import DirectiveMarkdown.Text.CaseFold
import DirectiveMarkdown.Markdown.Link

/-! Link reference definitions and their labels. -/
namespace DirectiveMarkdown.Markdown

structure Definition where
  url : Text
  title : Text

/-- A label after its opening bracket, up to the closing one, as written. It holds no unescaped
bracket. -/
def labelBody? : Text → Option (Text × Text)
  | [] => none
  | '\\' :: c :: rest => (labelBody? rest).map fun (read, after) => ('\\' :: c :: read, after)
  | c :: rest =>
    if c = ']' then some ([], rest)
    else if c = '[' then none
    else (labelBody? rest).map fun (read, after) => (c :: read, after)

/-- A label in brackets: at most 999 characters, not all of them white space. -/
def linkLabel? (s : Text) : Option (Text × Text) :=
  match s with
  | '[' :: rest =>
    (labelBody? rest).bind fun (label, after) =>
      if label.length > 999 ∨ label.all isAsciiBlank then none else some (label, after)
  | _ => none

/-- White space inside a label counts as one space each, and none at its ends. -/
def collapseBlanks : Text → Text
  | [] => []
  | c :: rest =>
    if isAsciiBlank c then
      match rest with
      | [] => []
      | next :: _ => if isAsciiBlank next then collapseBlanks rest else ' ' :: collapseBlanks rest
    else c :: collapseBlanks rest

/-- The form in which two labels are compared: white space collapsed, case folded. -/
def normalizeLabel (label : Text) : Text :=
  (collapseBlanks (label.dropWhile isAsciiBlank)).flatMap foldCase

/-- The definitions of a document, by normalized label, the first one first. -/
abbrev Definitions := List (Text × Definition)

def Definitions.find? (definitions : Definitions) (label : Text) : Option Definition :=
  List.lookup (normalizeLabel label) definitions

/-- The text after the rest of a line that must be blank. -/
def endOfLine? (s : Text) : Option Text :=
  match s.dropWhile isInlineBlank with
  | [] => some []
  | '\n' :: rest => some rest
  | _ => none

/-- The title of a definition, on the line of the destination or the next one, and the text after
its line. -/
def definitionTitle? (s : Text) : Option (Text × Text) :=
  let start := skipBlanks s
  if start.length < s.length then
    (linkTitle? start).bind fun (title, after) => (endOfLine? after).map fun rest => (title, rest)
  else none

/-- A definition at the start of a paragraph, and the text after its last line. -/
def definition? (s : Text) : Option (Text × Definition × Text) :=
  (linkLabel? (s.dropWhile isInlineBlank)).bind fun (label, afterLabel) =>
    match afterLabel with
    | ':' :: rest =>
      let start := skipBlanks rest
      match start with
      | [] => none
      | _ =>
        (linkDestination? start).bind fun (url, afterUrl) =>
          if afterUrl.length = start.length then none
          else match definitionTitle? afterUrl with
            | some (title, after) => some (normalizeLabel label, ⟨url, title⟩, after)
            | none =>
              (endOfLine? afterUrl).map fun after => (normalizeLabel label, ⟨url, []⟩, after)
    | _ => none

/-- The definitions that a paragraph starts with, at most `fuel` of them, and the text after them.
-/
def leadingDefinitions : Nat → Text → Definitions × Text
  | 0, s => ([], s)
  | fuel + 1, s =>
    match definition? s with
    | some (label, definition, after) =>
      let (more, rest) := leadingDefinitions fuel after
      ((label, definition) :: more, rest)
    | none => ([], s)

end DirectiveMarkdown.Markdown
