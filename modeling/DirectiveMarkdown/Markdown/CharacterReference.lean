import DirectiveMarkdown.Text.Digit
import DirectiveMarkdown.Text.Punctuation
import DirectiveMarkdown.Markdown.NamedCharacter

/-! Character references and backslash escapes. -/
namespace DirectiveMarkdown.Markdown

/-- The character with a code point. The null character and what is no character are replaced. -/
def characterOfCode (code : Nat) : Char :=
  if code = 0 then '\ufffd'
  else if h : code.isValidChar then Char.ofNatAux code h
  else '\ufffd'

/-- The digits at the start of a text, if there are at most `limit` of them and a semicolon ends
them. -/
def referenceDigits? (isDigit : Char → Bool) (limit : Nat) (s : Text) : Option (Text × Text) :=
  let digits := s.takeWhile isDigit
  match s.dropWhile isDigit with
  | ';' :: rest => if digits.isEmpty ∨ digits.length > limit then none else some (digits, rest)
  | _ => none

/-- A character reference after its ampersand: the text it stands for and the text after it. -/
def characterReference? (s : Text) : Option (Text × Text) :=
  match s with
  | '#' :: x :: digits =>
    if x = 'x' ∨ x = 'X' then
      (referenceDigits? isHexDigit 6 digits).map fun (digits, rest) =>
        ([characterOfCode (ofDigits 16 digits)], rest)
    else
      (referenceDigits? Char.isDigit 7 (x :: digits)).map fun (digits, rest) =>
        ([characterOfCode (ofDigits 10 digits)], rest)
  | _ =>
    let name := s.takeWhile Char.isAlphanum
    match s.dropWhile Char.isAlphanum with
    | ';' :: rest => (namedCharacter? name).map fun value => (value, rest)
    | _ => none

/-- Resolves the escapes and references of at most `fuel` pieces of text. -/
def unescapeUpTo : Nat → Text → Text
  | 0, s => s
  | _ + 1, [] => []
  | fuel + 1, '\\' :: c :: rest =>
    if isAsciiPunctuation c then c :: unescapeUpTo fuel rest
    else '\\' :: unescapeUpTo fuel (c :: rest)
  | fuel + 1, '&' :: rest =>
    match characterReference? rest with
    | some (value, after) => value ++ unescapeUpTo fuel after
    | none => '&' :: unescapeUpTo fuel rest
  | fuel + 1, c :: rest => c :: unescapeUpTo fuel rest

def unescape (s : Text) : Text := unescapeUpTo s.length s

end DirectiveMarkdown.Markdown
