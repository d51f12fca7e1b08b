import DirectiveMarkdown.FileSystem
import DirectiveMarkdown.Pipeline

/-! The configuration of a run: how callouts and videos are treated, which Markdown is read, and
whether raw HTML is let through. -/
namespace DirectiveMarkdown

/-- A configuration. `file` is the file that it was loaded from. -/
structure Config where
  callouts : CalloutConfig := .standard
  video : VideoPolicy := .lenient
  gfm : Bool := true
  rawHtml : Bool := true
  file : Option Path := none

/-- What is wrong with a configuration that can be read. -/
inductive ConfigProblem where
  | invalidElement (element : Text)
  | emptyCategory
  | repeatedCategory (category : Text)
  | untitledCategory (category : Text)
deriving DecidableEq

def ConfigProblem.message : ConfigProblem → Text
  | .invalidElement element =>
    text "callouts.element '" ++ element ++ text "' is not a valid element name"
  | .emptyCategory => text "callouts.categories cannot contain empty names"
  | .repeatedCategory category =>
    text "callouts.categories lists '" ++ category ++ text "' more than once"
  | .untitledCategory category =>
    text "callout category '" ++ category ++ text "' needs a title in [callouts.titles]"

/-- Why there is no configuration. -/
inductive ConfigError where
  | notFound (path : Path)
  | unreadable (error : FileError)
  | malformed
  | invalid (problem : ConfigProblem)
deriving DecidableEq

/-- The text of the error. It does not tell where a malformed file is wrong. -/
def ConfigError.message : ConfigError → Text
  | .notFound path => text "Configuration file not found: " ++ path.toText
  | .unreadable error => text "I/O error: " ++ error.message
  | .malformed => text "TOML parse error"
  | .invalid problem => text "Configuration error: " ++ problem.message

namespace Config

/-- The first problem of the categories, in their order. `earlier` are those before. -/
def categoryProblem? (titles : TextMap) (earlier : List Text) : List Text → Option ConfigProblem
  | [] => none
  | category :: rest =>
    if category = [] then some .emptyCategory
    else if category ∈ earlier then some (.repeatedCategory category)
    else if !titles.contains category then some (.untitledCategory category)
    else categoryProblem? titles (earlier ++ [category]) rest

def problem? (config : Config) : Option ConfigProblem :=
  if isTagName config.callouts.element then
    categoryProblem? config.callouts.titles [] config.callouts.categories
  else some (.invalidElement config.callouts.element)

/-- The configuration with the built-in titles for those categories that it gives none. -/
def completed (config : Config) : Config :=
  { config with callouts.titles := config.callouts.titles.orElse CalloutConfig.builtInTitles }

def pipeline (config : Config) : Except PipelineError Pipeline :=
  Pipeline.standard config.video config.callouts config.gfm config.rawHtml

end Config

/-- Settings that stand above those of the configuration, where they are given. -/
structure Overrides where
  strictVideo : Option Bool := none
  gfm : Option Bool := none

def Config.override (config : Config) (overrides : Overrides) : Config :=
  { config with
    video := match overrides.strictVideo with
      | some true => .strict
      | some false => .lenient
      | none => config.video
    gfm := overrides.gfm.getD config.gfm }

end DirectiveMarkdown
