import DirectiveMarkdown.Config.Reading
import DirectiveMarkdown.Machine

/-! Loading the configuration of a directory. -/
namespace DirectiveMarkdown.Config

def fileName : Text := text "sfdocs.toml"

/-- A directory and those above it, nearest first. -/
def enclosing : Location → List Location
  | [] => [[]]
  | name :: rest => (enclosing rest).map (name :: ·) ++ [[]]

/-- The places where the configuration of a directory may be, nearest first. -/
def candidates (directory : Location) : List Path :=
  (enclosing directory).map fun above => Path.ofLocation (above ++ [fileName])

variable {m : Type → Type} [Monad m] [MonadMachine m]

/-- The nearest of these places in which there is anything. -/
def discover? : m (Option Path) := do
  match ← MonadMachine.workingDirectory with
  | some directory => (candidates directory).findM? MonadMachine.pathExists
  | none => return none

def readFile (path : Path) : m (Except ConfigError Config) := do
  match ← MonadMachine.readFile path with
  | .error error => return .error (.unreadable error)
  | .ok content => return (read content).map fun config => { config with file := some path }

/-- The configuration in the given file, or else in the one that is found, or else the standard
one. -/
def load (given : Option Path) (overrides : Overrides) : m (Except ConfigError Config) := do
  let loaded ← match given with
    | some path =>
      if ← MonadMachine.pathExists path then readFile path
      else pure (.error (.notFound path))
    | none =>
      match ← discover? with
      | some path => readFile path
      | none => pure (.ok {})
  return loaded.map (·.override overrides)

end DirectiveMarkdown.Config
