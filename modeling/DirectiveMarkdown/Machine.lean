import DirectiveMarkdown.FileSystem

/-! What a command needs of the machine that it runs on, and a machine as a value. -/
namespace DirectiveMarkdown

/-- The actions that a command is made of. -/
class MonadMachine (m : Type → Type) where
  workingDirectory : m (Option Location)
  pathExists : Path → m Bool
  readFile : Path → m (Except FileError Text)
  writeFile : Path → Text → m (Except FileError Unit)
  readInput : m (Except FileError Text)
  print : Text → m (Except FileError Unit)
  report : Text → m Unit

/-- A machine: its files, the working directory, the text at the standard input, what was printed to
the standard output, and what was reported to the standard error. The output may be closed. -/
structure Machine where
  files : FileSystem
  workingDirectory : Location := []
  input : Text := []
  output : Text := []
  messages : Text := []
  outputIsOpen : Bool := true

namespace Machine

/-- Writes a file, or changes nothing. -/
def writeFile (machine : Machine) (path : Path) (content : Text) :
    Except FileError Unit × Machine :=
  match machine.files.write machine.workingDirectory path content with
  | .ok files => (.ok (), { machine with files })
  | .error error => (.error error, machine)

def print (machine : Machine) (s : Text) : Except FileError Unit × Machine :=
  if machine.outputIsOpen then (.ok (), { machine with output := machine.output ++ s })
  else (.error (.other (text "Broken pipe (os error 32)")), machine)

instance : MonadMachine (StateM Machine) where
  workingDirectory := fun machine => (some machine.workingDirectory, machine)
  pathExists path := fun machine =>
    (machine.files.exists? machine.workingDirectory path, machine)
  readFile path := fun machine => (machine.files.read machine.workingDirectory path, machine)
  writeFile path content := fun machine => machine.writeFile path content
  readInput := fun machine => (.ok machine.input, machine)
  print s := fun machine => machine.print s
  report s := fun machine => ((), { machine with messages := machine.messages ++ s })

end Machine

end DirectiveMarkdown
