import DirectiveMarkdown.Config.Basic
import DirectiveMarkdown.Toml.Document

/-! Configurations that are written in TOML. Every setting has a default. A setting of the wrong
type makes the whole text malformed; a key that is no setting is passed over. -/
namespace DirectiveMarkdown.Config

open Toml (Value)

/-- The key under which a date or time counts as a table with its spelling as the only entry. -/
def dateTimeKey : Text := text "$__toml_private_datetime"

/-- The values of settings, given by their keys in a table or by their places in an array. Other
entries of a table must hold numbers of a usable size. -/
def settings? (keys : List Text) : Value → Option (List (Option Value))
  | .table _ entries =>
    if entries.all fun (key, value) => keys.contains key || value.isRepresentable then
      some (keys.map fun key => List.lookup key entries)
    else none
  | .array items | .tables items => some ((List.range keys.length).map fun i => items[i]?)
  | .dateTime _ => some (keys.map fun _ => none)
  | _ => none

def setting? {α : Type} (default : α) (read : Value → Option α) : Option Value → Option α
  | some value => read value
  | none => some default

def readText? : Value → Option Text
  | .string value => some value
  | _ => none

def readFlag? : Value → Option Bool
  | .boolean value => some value
  | _ => none

def readTexts? : Value → Option (List Text)
  | .array items | .tables items => items.mapM readText?
  | _ => none

def readTextMap? : Value → Option TextMap
  | .table _ entries =>
    (entries.mapM fun entry => (readText? entry.2).map (entry.1, ·)).map TextMap.ofList
  | .dateTime spelling => some (TextMap.insert ∅ dateTimeKey spelling)
  | _ => none

def policyOf? (name : Text) : Option VideoPolicy :=
  if name = text "lenient" then some .lenient
  else if name = text "strict" then some .strict
  else none

/-- A policy, named by a text or by the only key of a table, which has nothing in it then. -/
def readPolicy? : Value → Option VideoPolicy
  | .string name => policyOf? name
  | .table _ [(name, .array [])] | .table _ [(name, .table _ [])] => policyOf? name
  | _ => none

def readCallouts? (settings : Value) : Option CalloutConfig := do
  match ← settings? [text "element", text "categories", text "titles"] settings with
  | [element, categories, titles] =>
    return {
      element := ← setting? CalloutConfig.standard.element readText? element
      categories := ← setting? CalloutConfig.standard.categories readTexts? categories
      titles := ← setting? CalloutConfig.standard.titles readTextMap? titles }
  | _ => none

def readVideo? (settings : Value) : Option VideoPolicy := do
  match ← settings? [text "policy"] settings with
  | [policy] => setting? .lenient readPolicy? policy
  | _ => none

/-- The settings of what is read and written: the Markdown extensions, and raw HTML. -/
def readRender? (settings : Value) : Option (Bool × Bool) := do
  match ← settings? [text "gfm", text "allow_raw_html"] settings with
  | [gfm, rawHtml] => return (← setting? true readFlag? gfm, ← setting? true readFlag? rawHtml)
  | _ => none

/-- A configuration with its three sections. -/
def ofToml? (document : Value) : Option Config := do
  match ← settings? [text "callouts", text "video", text "render"] document with
  | [callouts, video, render] =>
    let callouts ← setting? CalloutConfig.standard readCallouts? callouts
    let video ← setting? .lenient readVideo? video
    let (gfm, rawHtml) ← setting? (true, true) readRender? render
    return { callouts, video, gfm, rawHtml }
  | _ => none

/-- The configuration that a text describes, completed and without problems. -/
def read (s : Text) : Except ConfigError Config :=
  match (Toml.read? s).bind ofToml? with
  | none => .error .malformed
  | some config =>
    match config.completed.problem? with
    | some problem => .error (.invalid problem)
    | none => .ok config.completed

end DirectiveMarkdown.Config
