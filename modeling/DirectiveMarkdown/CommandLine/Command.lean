import DirectiveMarkdown.CommandLine.Grammar
import DirectiveMarkdown.FileSystem

/-! The commands and their options. -/
namespace DirectiveMarkdown.CommandLine

/-- A stage of a run whose result is printed. -/
inductive Stage where
  | source
  | rewritten
  | target
  | html
deriving DecidableEq

def Stage.ofName? (name : Text) : Option Stage :=
  [(text "source", Stage.source), (text "rewritten", .rewritten), (text "target", .target),
   (text "html", .html)].lookup name

/-- What a command to render is told: the input, a hyphen for the standard one, and the options. -/
structure RenderSettings where
  input : Option Path := none
  stage : Option Stage := none
  config : Option Path := none
  strictVideo : Bool := false
  noGfm : Bool := false
  output : Option Path := none
  verbose : Bool := false

structure DemoSettings where
  config : Option Path := none
  verbose : Bool := false

inductive Command where
  | render (input : Path) (settings : RenderSettings)
  | demo (settings : DemoSettings)
  | version
  | help

/-- A path given by a word. It is not empty and given only once. -/
def pathOnce (word : Text) (earlier : Option Path) : Option Path :=
  if word = [] ∨ earlier.isSome then none else some (Path.ofText word)

/-- A flag that is set for the first time. -/
def flagOnce {σ : Type} (isSet : σ → Bool) (set : σ → σ) : Effect σ :=
  .flag fun settings => if isSet settings then none else some (set settings)

def renderGrammar : Grammar RenderSettings where
  switches := [
    { name := text "stage"
      effect := .valued fun word settings =>
        if settings.stage.isSome then none
        else (Stage.ofName? word).map fun stage => { settings with stage := some stage } },
    { name := text "config", letter := some 'c'
      effect := .valued fun word settings =>
        (pathOnce word settings.config).map fun path => { settings with config := some path } },
    { name := text "strict-video"
      effect := flagOnce RenderSettings.strictVideo fun settings =>
        { settings with strictVideo := true } },
    { name := text "no-gfm"
      effect := flagOnce RenderSettings.noGfm fun settings => { settings with noGfm := true } },
    { name := text "output", letter := some 'o'
      effect := .valued fun word settings =>
        (pathOnce word settings.output).map fun path => { settings with output := some path } },
    { name := text "verbose", letter := some 'v'
      effect := flagOnce RenderSettings.verbose fun settings => { settings with verbose := true } }]
  operand word settings :=
    (pathOnce word settings.input).map fun path => { settings with input := some path }

def demoGrammar : Grammar DemoSettings where
  switches := [
    { name := text "config", letter := some 'c'
      effect := .valued fun word settings =>
        (pathOnce word settings.config).map fun path => { settings with config := some path } },
    { name := text "verbose", letter := some 'v'
      effect := flagOnce DemoSettings.verbose fun settings => { settings with verbose := true } }]
  operand _ _ := none

def commandNames : List Text := [text "render", text "demo", text "help"]

def readCommand (name : Text) (words : List Text) : Except Stop Command :=
  if name = text "render" then do
    let settings ← renderGrammar.read words { settings := {} }
    match settings.input with
    | some input => return .render input settings
    | none => throw .misuse
  else if name = text "demo" then do
    return .demo (← demoGrammar.read words { settings := {} })
  else if name = text "help" then
    match words with
    | [] => .ok .help
    | [command] => if commandNames.contains command then .ok .help else .error .misuse
    | _ => .error .misuse
  else .error .misuse

/-- Reads a whole command line. Before the name of a command only help and version can be asked
for. There is no result for a line out of use. -/
def Command.read? (words : List Text) : Option Command :=
  match words with
  | [] => none
  | word :: rest =>
    match word with
    | '-' :: '-' :: long =>
      if long = text "help" then some .help
      else if long = text "version" then some .version
      else none
    | '-' :: 'h' :: _ => some .help
    | '-' :: 'V' :: _ => some .version
    | _ =>
      match readCommand word rest with
      | .ok command => some command
      | .error .help => some .help
      | .error .misuse => none

end DirectiveMarkdown.CommandLine
