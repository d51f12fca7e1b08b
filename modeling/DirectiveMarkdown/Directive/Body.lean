import DirectiveMarkdown.Directive.Arguments
import DirectiveMarkdown.Text.Numeral

/-! What every directive has after its colons: a name, a label in brackets and an attribute list in
braces, with nothing between them. -/
namespace DirectiveMarkdown

def endsDirectiveName (c : Char) : Bool := c == '[' || c == '{' || isBlank c

/-- Names start with a letter and hold letters, numerals, hyphens and underscores. -/
def isDirectiveName (name : Text) : Bool :=
  (name.head?.map isLetter).getD false && name.all fun c => isWordChar c || c == '-' || c == '_'

/-- The content of a delimited piece after its opening delimiter, and the text after its closing
one. Delimiters inside it are balanced, and `depth` of them are open. -/
def delimitedBody? (opening closing : Char) (depth : Nat) : Text → Option (Text × Text)
  | [] => none
  | c :: rest =>
    if c = opening then
      (delimitedBody? opening closing (depth + 1) rest).map fun (content, after) =>
        (c :: content, after)
    else if c = closing then
      match depth with
      | 0 => some ([], rest)
      | depth + 1 =>
        (delimitedBody? opening closing depth rest).map fun (content, after) =>
          (c :: content, after)
    else
      (delimitedBody? opening closing depth rest).map fun (content, after) => (c :: content, after)

/-- The content of a delimited piece at the start of a text, and the text after it. A piece that is
missing or never closed is empty and takes nothing. -/
def delimited (opening closing : Char) (s : Text) : Text × Text :=
  match s with
  | c :: rest =>
    if c = opening then (delimitedBody? opening closing 0 rest).getD ([], s) else ([], s)
  | [] => ([], s)

structure DirectiveBody where
  name : Text
  arguments : Arguments

/-- The directive after its colons, the text after its name and the text after all of it. -/
def readDirectiveBody? (s : Text) : Option (DirectiveBody × Text × Text) :=
  let name := s.takeWhile fun c => !endsDirectiveName c
  let afterName := s.dropWhile fun c => !endsDirectiveName c
  if isDirectiveName name then
    let (label, afterLabel) := delimited '[' ']' afterName
    let (attributeList, rest) := delimited '{' '}' afterLabel
    some (⟨name, Arguments.read label attributeList⟩, afterName, rest)
  else none

end DirectiveMarkdown
