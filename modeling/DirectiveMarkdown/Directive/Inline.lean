import DirectiveMarkdown.Directive.Body

/-! Directives inside running text. -/
namespace DirectiveMarkdown

/-- A directive found in a text: the text before it, the directive as it is written, and the text
after it. -/
structure InlineDirective where
  before : Text
  body : DirectiveBody
  written : Text
  after : Text

namespace InlineDirective

/-- The directive after a colon, as written without the colon, and the text after it. Its name
starts with an ASCII letter, and a label or an attribute list follows the name. -/
def readAt? (s : Text) : Option (DirectiveBody × Text × Text) :=
  if (s.head?.map Char.isAlpha).getD false then
    (readDirectiveBody? s).bind fun (body, afterName, after) =>
      if after.length < afterName.length then
        some (body, s.take (s.length - after.length), after)
      else none
  else none

/-- A colon may start a directive after this character. -/
def mayFollow (previous : Option Char) : Bool :=
  match previous with
  | none => true
  | some c => !isWordChar c && c != ':'

/-- The first directive of a text that follows the given character. The colon of a directive follows
neither a letter or numeral nor another colon, which keeps times and addresses as they are. -/
def find? (previous : Option Char) : Text → Option InlineDirective
  | [] => none
  | c :: rest =>
    match if c = ':' ∧ mayFollow previous then readAt? rest else none with
    | some (body, written, after) => some ⟨[], body, c :: written, after⟩
    | none => (find? (some c) rest).map fun found => { found with before := c :: found.before }

/-- All directives of a text that follows the given character, each sought in the text after the one
before it. At most `fuel` are found. -/
def findAllUpTo : Nat → Option Char → Text → List InlineDirective
  | 0, _, _ => []
  | fuel + 1, previous, s =>
    match find? previous s with
    | none => []
    | some found => found :: findAllUpTo fuel found.written.getLast? found.after

def findAll (previous : Option Char) (s : Text) : List InlineDirective :=
  findAllUpTo s.length previous s

end InlineDirective

end DirectiveMarkdown
