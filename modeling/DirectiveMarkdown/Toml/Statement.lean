import DirectiveMarkdown.Toml.Quoted
import DirectiveMarkdown.Toml.Table

/-! The lines of a document: headers of tables and assignments of values to keys. -/
namespace DirectiveMarkdown.Toml

/-- A line of a document, or an assignment that takes several: the header of a table, the header of
one more table of an array, or the assignment of a value. -/
inductive Statement where
  | header (path : List Text)
  | element (path : List Text)
  | assignment (path : List Text) (value : Value)

/-- A reader takes something from the start of a text and gives the text after it. -/
abbrev Reader := StateT Text Option

namespace Reader

/-- Reads the given text. -/
def expect (expected : Text) : Reader Unit := fun s =>
  if Text.startsWith s expected then some ((), s.drop expected.length) else none

/-- Reads a text if it is there, and tells whether it was. -/
def accept (expected : Text) : Reader Bool := fun s =>
  if Text.startsWith s expected then some (true, s.drop expected.length) else some (false, s)

/-- Reads the longest text of such characters. -/
def run (p : Char → Bool) : Reader Text := fun s => some (s.takeWhile p, s.dropWhile p)

def peek : Reader (Option Char) := fun s => some (s.head?, s)

/-- Reads items until there is no other. An item is not empty. -/
def gather {α : Type} (item : Reader (Option α)) (s : Text) : Option (List α × Text) :=
  match item s with
  | none => none
  | some (none, rest) => some ([], rest)
  | some (some a, rest) =>
    if _hShorter : rest.length < s.length then
      (gather item rest).map fun (items, rest) => (a :: items, rest)
    else none
termination_by s.length

end Reader

open Reader

/-- Levels that values may be nested in each other, and keys of a path in front of the last. -/
def levels : Nat := 80

def spaces : Reader Unit := do let _ ← run isSpace

def comment : Reader Unit := do
  if (← peek) = some '#' then
    let _ ← run isLineChar

/-- A line break, if there is one, and whether there is. -/
def lineBreak : Reader Bool := fun s =>
  match lineBreak? s with
  | some rest => some (true, rest)
  | none => some (false, s)

def blankLines : Reader Unit := do
  let _ ← gather do
    spaces
    comment
    return if ← lineBreak then some () else none

def isBareChar (c : Char) : Bool := c.isAlphanum || c == '-' || c == '_'

def key : Reader Text := do
  if (← peek) = some '"' then
    expect ['"']
    basicString?
  else if (← peek) = some '\'' then
    expect ['\'']
    literalString?
  else
    let name ← run isBareChar
    guard (!name.isEmpty)
    return name

def path : Reader (List Text) := do
  let first ← key
  let more ← gather do
    spaces
    if ← accept ['.'] then
      spaces
      return some (← key)
    else return none
  guard (more.length < levels)
  return first :: more

def isScalarChar (c : Char) : Bool :=
  c.isAlphanum || c == '+' || c == '-' || c == '_' || c == '.' || c == ':'

/-- A value without quotation marks. A blank may stand between a date and a time. -/
def scalar : Reader Value := do
  let start ← run isScalarChar
  let rest ← get
  match dateTime? start, rest with
  | some _, ' ' :: c :: _ =>
    if start.length = 10 ∧ c.isDigit then
      expect [' ']
      let time ← run isScalarChar
      return ← scalar? (start ++ ' ' :: time)
    else return ← scalar? start
  | _, _ => return ← scalar? start

/-- Items between an opening mark, which has been read, and the closing one. There is a comma
between each two of them, and there may be one after the last. -/
def items {α : Type} (closing : Char) (item : Reader α) : Reader (List α) :=
  gather do
    blankLines
    if ← accept [closing] then return none
    else
      let a ← item
      blankLines
      if !(← accept [',']) then guard ((← peek) = some closing)
      return some a

/-- A path and the value that it is assigned. -/
def assignment (value : Reader Value) : Reader (List Text × Value) := do
  let keys ← path
  spaces
  expect ['=']
  spaces
  return (keys, ← value)

/-- A value in which others are nested to a depth of at most the given levels. -/
def value : Nat → Reader Value
  | 0 => do
    if (← peek) = some '"' ∨ (← peek) = some '\'' then
      return .string (← string?)
    else scalar
  | levels + 1 => do
    if ← accept ['['] then
      return .array (← items ']' (value levels))
    else if ← accept ['\x7b'] then
      let assignments ← items '\x7d' (assignment (value levels))
      return ← Value.ofAssignments assignments
    else value 0

def header (closing : Text) : Reader (List Text) := do
  spaces
  let keys ← path
  spaces
  expect closing
  return keys

def statement : Reader (Option Statement) := do
  match ← peek with
  | none | some '#' | some '\n' | some '\r' => return none
  | _ =>
    if ← accept (text "[[") then return some (.element (← header (text "]]")))
    else if ← accept (text "[") then return some (.header (← header (text "]")))
    else
      let (keys, value) ← assignment (value levels)
      return some (.assignment keys value)

/-- A line up to and with its line break, which the last need not have. -/
def line : Reader (Option (Option Statement)) := do
  if (← peek).isNone then return none
  else
    spaces
    let stated ← statement
    spaces
    comment
    if !(← lineBreak) then guard (← peek).isNone
    return some stated

end DirectiveMarkdown.Toml
