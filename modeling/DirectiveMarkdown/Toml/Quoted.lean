import DirectiveMarkdown.Toml.Scalar

/-! Strings in quotation marks. Each reader starts after the opening marks and gives the content and
the text after the closing marks. A carriage return is taken to stand before a line feed. -/
namespace DirectiveMarkdown.Toml

/-- A character that may stand in a line: a tab, or none of the control characters. -/
def isLineChar (c : Char) : Bool := c == '\t' || (c.toNat ≥ 0x20 && c.toNat ≠ 0x7f)

/-- A character that may stand in a text of several lines. -/
def isMultilineChar (c : Char) : Bool := isLineChar c || c == '\n' || c == '\r'

def characterOf? (digits : Text) : Option Char :=
  if digits.all isHexDigit then
    let code := ofDigits 16 digits
    if h : code.isValidChar then some (Char.ofNatAux code h) else none
  else none

def shortEscape? (c : Char) : Option Char :=
  [('b', '\x08'), ('t', '\t'), ('n', '\n'), ('f', '\x0c'), ('r', '\r'), ('e', '\x1b'), ('"', '"'),
   ('\\', '\\')].lookup c

def escape? : Text → Option (Char × Text)
  | 'x' :: a :: b :: rest => (characterOf? [a, b]).map (·, rest)
  | 'u' :: a :: b :: c :: d :: rest => (characterOf? [a, b, c, d]).map (·, rest)
  | 'U' :: a :: b :: c :: d :: e :: f :: g :: h :: rest =>
    (characterOf? [a, b, c, d, e, f, g, h]).map (·, rest)
  | c :: rest => (shortEscape? c).map (·, rest)
  | [] => none

/-- An escape takes at least one character. -/
theorem length_escape?_lt {s rest : Text} {c : Char} (h : escape? s = some (c, rest)) :
    rest.length < s.length := by
  unfold escape? at h
  split at h <;> simp_all <;> grind

/-- A string that takes part of one line, with its escapes resolved. -/
def basicString? (s : Text) : Option (Text × Text) :=
  match s with
  | [] => none
  | '"' :: rest => some ([], rest)
  | '\\' :: rest =>
    match _hEscape : escape? rest with
    | some (c, after) => (basicString? after).map fun (content, rest) => (c :: content, rest)
    | none => none
  | c :: rest =>
    if isLineChar c then (basicString? rest).map fun (content, rest) => (c :: content, rest)
    else none
termination_by s.length
decreasing_by
  all_goals simp
  have := length_escape?_lt _hEscape
  omega

/-- A string that takes part of one line and is meant as it stands. -/
def literalString? : Text → Option (Text × Text)
  | [] => none
  | '\'' :: rest => some ([], rest)
  | c :: rest =>
    if isLineChar c then (literalString? rest).map fun (content, rest) => (c :: content, rest)
    else none

def isSpace (c : Char) : Bool := c == ' ' || c == '\t'

/-- The text after a line break at its start. -/
def lineBreak? : Text → Option Text
  | '\n' :: rest | '\r' :: '\n' :: rest => some rest
  | _ => none

def dropLineBreak (s : Text) : Text := (lineBreak? s).getD s

/-- The text after a backslash that ends its line, and after all blanks and line breaks that
follow. -/
def joinedLine? (s : Text) : Option Text :=
  (lineBreak? (s.dropWhile isSpace)).map fun rest =>
    rest.dropWhile fun c => isSpace c || c == '\n' || c == '\r'

theorem length_lineBreak?_lt {s rest : Text} (h : lineBreak? s = some rest) :
    rest.length < s.length := by
  unfold lineBreak? at h
  split at h <;> grind

theorem length_joinedLine?_lt {s rest : Text} (h : joinedLine? s = some rest) :
    rest.length < s.length := by
  obtain ⟨after, hBreak, rfl⟩ := Option.map_eq_some_iff.1 h
  have hAfter := length_lineBreak?_lt hBreak
  have hBlanks := (List.dropWhile_sublist isSpace (l := s)).length_le
  have hRest := (List.dropWhile_sublist (fun c => isSpace c || c == '\n' || c == '\r')
    (l := after)).length_le
  omega

/-- The content of a string of several lines after its first line break. Up to two quotation marks
may stand before the closing ones. -/
def basicLines? (s : Text) : Option (Text × Text) :=
  match s with
  | [] => none
  | '"' :: '"' :: '"' :: '"' :: '"' :: rest => some (['"', '"'], rest)
  | '"' :: '"' :: '"' :: '"' :: rest => some (['"'], rest)
  | '"' :: '"' :: '"' :: rest => some ([], rest)
  | '\\' :: rest =>
    match _hJoined : joinedLine? rest with
    | some after => basicLines? after
    | none =>
      match _hEscape : escape? rest with
      | some (c, after) => (basicLines? after).map fun (content, rest) => (c :: content, rest)
      | none => none
  | c :: rest =>
    if isMultilineChar c then (basicLines? rest).map fun (content, rest) => (c :: content, rest)
    else none
termination_by s.length
decreasing_by
  all_goals simp
  · have := length_joinedLine?_lt _hJoined
    omega
  · have := length_escape?_lt _hEscape
    omega

/-- The same for a string that is meant as it stands. -/
def literalLines? : Text → Option (Text × Text)
  | [] => none
  | '\'' :: '\'' :: '\'' :: '\'' :: '\'' :: rest => some (['\'', '\''], rest)
  | '\'' :: '\'' :: '\'' :: '\'' :: rest => some (['\''], rest)
  | '\'' :: '\'' :: '\'' :: rest => some ([], rest)
  | c :: rest =>
    if isMultilineChar c then (literalLines? rest).map fun (content, rest) => (c :: content, rest)
    else none

/-- A string of any of the four kinds. A line break right after the opening marks of one with
several lines does not count. -/
def string? : Text → Option (Text × Text)
  | '"' :: '"' :: '"' :: rest => basicLines? (dropLineBreak rest)
  | '\'' :: '\'' :: '\'' :: rest => literalLines? (dropLineBreak rest)
  | '"' :: rest => basicString? rest
  | '\'' :: rest => literalString? rest
  | _ => none

end DirectiveMarkdown.Toml
