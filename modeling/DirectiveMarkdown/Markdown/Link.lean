import DirectiveMarkdown.Markdown.CharacterReference

/-! Destinations and titles of links. Each reader gives what it read, with escapes resolved, and the
text after it. -/
namespace DirectiveMarkdown.Markdown

/-- A destination after its `<`, read up to the `>`. It holds no line break and no other `<`. -/
def pointyDestination? : Text → Option (Text × Text)
  | [] => none
  | '>' :: rest => some ([], rest)
  | '\\' :: c :: rest =>
    if c = '\n' then none
    else (pointyDestination? rest).map fun (read, after) => ('\\' :: c :: read, after)
  | c :: rest =>
    if c = '<' ∨ c = '\n' then none
    else (pointyDestination? rest).map fun (read, after) => (c :: read, after)

def endsDestination (c : Char) : Bool := c.toNat ≤ 0x20 || c.toNat = 0x7f

/-- A destination without angle brackets: it ends before a blank, a control character or an
unbalanced closing parenthesis. At most 32 parentheses are open at once. -/
def plainDestination? (depth : Nat) : Text → Option (Text × Text)
  | [] => if depth = 0 then some ([], []) else none
  | '\\' :: c :: rest =>
    if isAsciiPunctuation c then
      (plainDestination? depth rest).map fun (read, after) => ('\\' :: c :: read, after)
    else if endsDestination c then
      if depth = 0 then some (['\\'], c :: rest) else none
    else (plainDestination? depth (c :: rest)).map fun (read, after) => ('\\' :: read, after)
  | c :: rest =>
    if endsDestination c then if depth = 0 then some ([], c :: rest) else none
    else if c = '(' then
      if depth ≥ 32 then none
      else (plainDestination? (depth + 1) rest).map fun (read, after) => (c :: read, after)
    else if c = ')' then
      match depth with
      | 0 => some ([], c :: rest)
      | depth + 1 => (plainDestination? depth rest).map fun (read, after) => (c :: read, after)
    else (plainDestination? depth rest).map fun (read, after) => (c :: read, after)

/-- A link destination. Without angle brackets it may be empty. -/
def linkDestination? (s : Text) : Option (Text × Text) :=
  (match s with
    | '<' :: rest => pointyDestination? rest
    | _ => plainDestination? 0 s).map fun (read, after) => (unescape read, after)

/-- A title after its opening mark, up to the closing one. A title in parentheses holds no other
opening parenthesis. -/
def titleBody? (opening closing : Char) : Text → Option (Text × Text)
  | [] => none
  | '\\' :: c :: rest =>
    (titleBody? opening closing rest).map fun (read, after) => ('\\' :: c :: read, after)
  | c :: rest =>
    if c = closing then some ([], rest)
    else if c = opening then none
    else (titleBody? opening closing rest).map fun (read, after) => (c :: read, after)

def linkTitle? (s : Text) : Option (Text × Text) :=
  (match s with
    | '"' :: rest => titleBody? '"' '"' rest
    | '\'' :: rest => titleBody? '\'' '\'' rest
    | '(' :: rest => titleBody? '(' ')' rest
    | _ => none).map fun (read, after) => (unescape read, after)

/-- White space of Markdown's grammar removed at the start. -/
def skipBlanks (s : Text) : Text := s.dropWhile isAsciiBlank

/-- The destination and title in parentheses after a link text. -/
def inlineTarget? (s : Text) : Option (Text × Text × Text) :=
  match s with
  | '(' :: rest =>
    (linkDestination? (skipBlanks rest)).bind fun (url, afterUrl) =>
      let titleStart := skipBlanks afterUrl
      let (title, afterTitle) :=
        if titleStart.length < afterUrl.length then
          match linkTitle? titleStart with
          | some (title, after) => (title, skipBlanks after)
          | none => ([], titleStart)
        else ([], titleStart)
      match afterTitle with
      | ')' :: after => some (url, title, after)
      | _ => none
  | _ => none

end DirectiveMarkdown.Markdown
