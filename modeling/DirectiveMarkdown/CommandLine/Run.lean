import DirectiveMarkdown.CommandLine.Command
import DirectiveMarkdown.Config.Loading
import DirectiveMarkdown.Dump

/-! Running a command. What is made for the user goes to the standard output or to a file; headings,
notes and errors go to the standard error. -/
namespace DirectiveMarkdown.CommandLine

inductive Failure where
  | config (error : ConfigError)
  | file (error : FileError)
  | pipeline (error : PipelineError)
  | render (error : RenderError)

def Failure.message : Failure → Text
  | .config error => error.message
  | .file error => error.message
  | .pipeline error => error.message
  | .render error => error.message

/-- The text of a stage: the trees as JSON, and HTML as it is. -/
def Stage.format (stage : Stage) (stages : Stages) : Text :=
  match stage with
  | .source => stages.source.toJson.toText
  | .rewritten => stages.rewritten.toJson.toText
  | .target => stages.target.toJson.toText
  | .html => stages.html

/-- The path means the standard input. Slashes and single dots behind the hyphen make no
difference. -/
def isStandardInput (path : Path) : Bool :=
  match path with
  | first :: rest => first == ['-'] && rest.all fun piece => piece == [] || piece == ['.']
  | [] => false

def sampleDocument : Text := text "# Welcome to SFDocs

This is a paragraph with :abbr[HTML]\x7btitle=\"HyperText Markup Language\"\x7d abbreviation.

::video\x7bsrc=\"https://youtube.com/embed/abc123\" title=\"Demo Video\" type=\"youtube\"\x7d

:::warning
Be careful when deleting records. This action cannot be undone.
:::

![Alt Text](https://example.com/image.jpg)"

/-- The settings of a command line that stand above those of the configuration. -/
def RenderSettings.overrides (settings : RenderSettings) : Overrides :=
  { strictVideo := if settings.strictVideo then some true else none
    gfm := if settings.noGfm then some false else none }

variable {m : Type → Type} [Monad m] [MonadMachine m]

/-- The result of an action, or the failure that its error is. -/
def orFail {ε α : Type} (failure : ε → Failure) (action : m (Except ε α)) :
    ExceptT Failure m α := do
  match ← (action : m (Except ε α)) with
  | .ok result => return result
  | .error error => throw (failure error)

def readInput (input : Path) : m (Except FileError Text) :=
  if isStandardInput input then MonadMachine.readInput else MonadMachine.readFile input

/-- Renders a document. Nothing is written before the result is there. -/
def render (input : Path) (settings : RenderSettings) : ExceptT Failure m Unit := do
  let config ← orFail .config (Config.load settings.config settings.overrides)
  let pipeline ← orFail .pipeline (pure config.pipeline)
  let source ← orFail .file (readInput input)
  let stages ← orFail .render (pure (pipeline.stages source))
  let result := (settings.stage.getD .html).format stages ++ ['\n']
  match settings.output with
  | some path =>
    orFail .file (MonadMachine.writeFile path result)
    MonadMachine.report (m := m) (text "Wrote " ++ path.toText ++ ['\n'])
  | none => orFail .file (MonadMachine.print result)

def heading (title : String) : Text :=
  let rule := List.replicate 70 '=' ++ ['\n']
  rule ++ title.toList ++ '\n' :: rule

def printSection (title : String) (body : Text) : ExceptT Failure m Unit := do
  MonadMachine.report (m := m) (heading title)
  orFail .file (MonadMachine.print (body ++ ['\n']))

def demonstrate (settings : DemoSettings) : ExceptT Failure m Unit := do
  let config ← orFail .config (Config.load settings.config {})
  let pipeline ← orFail .pipeline (pure config.pipeline)
  let stages ← orFail .render (pure (pipeline.stages sampleDocument))
  printSection "INPUT: Markdown" sampleDocument
  printSection "STAGE 1: Markdown -> syntax tree" (Stage.source.format stages)
  printSection "STAGE 2: Rewrite rules (video, callout)" (Stage.rewritten.format stages)
  printSection "STAGE 3: Syntax tree -> HTML tree" (Stage.target.format stages)
  printSection "STAGE 4: HTML tree -> HTML" (Stage.html.format stages)

def versionText : Text := text "sfdocs 0.1.0\n"

def usageText : Text :=
  text "Usage: sfdocs <COMMAND>

Commands:
  render <INPUT>  Render a Markdown document, or the standard input for -
  demo            Show every stage for a sample document

Options of both: -c, --config <FILE>, -v, --verbose
Options of render: --stage <source|rewritten|target|html>, --strict-video, --no-gfm,
  -o, --output <FILE>
"

def perform : Command → ExceptT Failure m Unit
  | .render input settings => render input settings
  | .demo settings => demonstrate settings
  | .version => orFail .file (MonadMachine.print versionText)
  | .help => orFail .file (MonadMachine.print usageText)

/-- Runs a command line. The result is the exit code: 1 for a failure, 2 for a line out of use. -/
def run (words : List Text) : m UInt32 := do
  match Command.read? words with
  | none =>
    MonadMachine.report usageText
    return 2
  | some command =>
    match ← (perform command).run with
    | .ok () => return 0
    | .error failure =>
      MonadMachine.report (text "Error: " ++ failure.message ++ ['\n'])
      return 1

end DirectiveMarkdown.CommandLine
