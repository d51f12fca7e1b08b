import DirectiveMarkdown.Markdown.Emphasis
import DirectiveMarkdown.Markdown.RawHtml
import DirectiveMarkdown.Markdown.Reference

/-! Inline content: code spans, links, images, HTML, escapes, breaks and emphasis. -/
namespace DirectiveMarkdown.Markdown

/-- Characters at which plain text stops. -/
def isSpecial (c : Char) : Bool :=
  c == '\\' || c == '\n' || c == '\x60' || c == '<' || c == '&' || c == '*' || c == '_' ||
    c == '~' || c == '!' || c == '[' || c == ']'

/-- Code up to the next run of exactly `length` backticks, as written, and the text after the run.
-/
def codeEnd? (length : Nat) : Nat → Text → Option (Text × Text)
  | 0, _ => none
  | fuel + 1, s =>
    let code := s.takeWhile (· != '\x60')
    match s.dropWhile (· != '\x60') with
    | [] => none
    | marked =>
      let run := marked.takeWhile (· == '\x60')
      let after := marked.dropWhile (· == '\x60')
      if run.length = length then some (code, after)
      else (codeEnd? length fuel after).map fun (more, after) => (code ++ run ++ more, after)

/-- The content of a code span: line breaks are spaces, and one space at both ends is removed unless
there is nothing else. -/
def codeValue (written : Text) : Text :=
  let value := written.map fun c => if c = '\n' then ' ' else c
  match value with
  | ' ' :: inner =>
    if inner.getLast? = some ' ' ∧ ¬inner.all (· == ' ') then inner.dropLast else value
  | _ => value

/-- The text between angle brackets, after the first of them, without blanks and control
characters. -/
def bracketed? : Text → Option (Text × Text)
  | [] => none
  | c :: rest =>
    if c = '>' then some ([], rest)
    else if c = '<' ∨ c.toNat ≤ 0x20 ∨ c.toNat = 0x7f then none
    else (bracketed? rest).map fun (read, after) => (c :: read, after)

/-- An absolute URI: a scheme of two to 32 characters and a colon, then anything. -/
def isUri (s : Text) : Bool :=
  let scheme := s.takeWhile fun c => c.isAlphanum || c == '+' || c == '.' || c == '-'
  (scheme.head?.map Char.isAlpha).getD false && 2 ≤ scheme.length && scheme.length ≤ 32 &&
    (s.drop scheme.length).head? == some ':'

def isMailboxChar (c : Char) : Bool :=
  c.isAlphanum || (text ".!#$%&'*+/=?^_\x60\x7b|\x7d~-").contains c

/-- A label of a domain name: at most 63 letters, digits and inner hyphens. -/
def isDomainLabel (s : Text) : Bool :=
  s.length ≤ 63 && s.all (fun c => c.isAlphanum || c == '-') &&
    (s.head?.map Char.isAlphanum).getD false && (s.getLast?.map Char.isAlphanum).getD false

def isEmail (s : Text) : Bool :=
  let mailbox := s.takeWhile isMailboxChar
  match s.drop mailbox.length with
  | '@' :: domain => !mailbox.isEmpty && (Text.splitOn '.' domain).all isDomainLabel
  | _ => false

/-- A link whose text is its own address, after the `<`. -/
def autolink? (s : Text) : Option (Text × Text) :=
  (bracketed? s).bind fun (address, after) =>
    if isUri address ∨ isEmail address then some (address, after) else none

/-- An opening bracket that waits for its closing one. `source` is the text after it, `before` the
pieces before it, last first. A bracket with a link inside is not `active`, and one with another
opening bracket inside is `crossed`. -/
structure Bracket where
  image : Bool
  active : Bool
  crossed : Bool
  source : Text
  before : List Piece

def Bracket.piece (bracket : Bracket) : Piece :=
  .node (.text (if bracket.image then ['!', '['] else ['[']))

/-- What was read of inline content: the open brackets, innermost first, the pieces after the
innermost, last first, and the last character. -/
structure InlineState where
  brackets : List Bracket := []
  pieces : List Piece := []
  last : Option Char := none

namespace InlineState

def push (state : InlineState) (node : Inline) (last : Char) : InlineState :=
  { state with pieces := .node node :: state.pieces, last := some last }

def openBracket (state : InlineState) (image : Bool) (source : Text) : InlineState :=
  let outer := match state.brackets with
    | [] => []
    | bracket :: more => { bracket with crossed := true } :: more
  ⟨⟨image, true, false, source, state.pieces⟩ :: outer, [], some '['⟩

/-- The pieces of all that was read, last first, with the open brackets as text. -/
def allPieces (state : InlineState) : List Piece :=
  state.brackets.foldl (fun pieces bracket => pieces ++ bracket.piece :: bracket.before)
    state.pieces

end InlineState

/-- Destination and title of the link that a closing bracket ends, and the text after the link. The
text follows the closing bracket. -/
def linkTarget? (definitions : Definitions) (bracket : Bracket) (rest : Text) :
    Option (Definition × Text) :=
  match inlineTarget? rest with
  | some (url, title, after) => some (⟨url, title⟩, after)
  | none =>
    match linkLabel? rest with
    | some (label, after) => (definitions.find? label).map fun definition => (definition, after)
    | none =>
      if bracket.crossed then none
      else
        let label := bracket.source.take (bracket.source.length - (rest.length + 1))
        let after := match rest with
          | '[' :: ']' :: after => after
          | _ => rest
        (definitions.find? label).map fun definition => (definition, after)

def closeBracket (definitions : Definitions) (state : InlineState) (rest : Text) :
    InlineState × Text :=
  match state.brackets with
  | [] => (state.push (.text [']']) ']', rest)
  | bracket :: outer =>
    match if bracket.active then linkTarget? definitions bracket rest else none with
    | some (target, after) =>
      let content := emphasize state.pieces.reverse
      if bracket.image then
        (⟨outer, .node (.image target.url target.title content) :: bracket.before, some ')'⟩, after)
      else
        let outer := outer.map fun other =>
          if other.image then other else { other with active := false }
        (⟨outer, .node (.link target.url target.title content) :: bracket.before, some ')'⟩, after)
    | none =>
      (⟨outer, .node (.text [']']) :: (state.pieces ++ bracket.piece :: bracket.before), some ']'⟩,
        rest)

/-- Plain text up to the next special character. Blanks before a line break belong to the break,
which is hard if they end with two spaces. -/
def plainText (state : InlineState) (s : Text) : InlineState × Text :=
  let run := s.takeWhile fun c => !isSpecial c
  match s.drop run.length with
  | '\n' :: rest =>
    let trimmed := (run.reverse.dropWhile isInlineBlank).reverse
    let break' := if (text "  ").isPrefixOf run.reverse then Inline.hardBreak else .softBreak
    let state := if trimmed.isEmpty then state else state.push (.text trimmed) '\n'
    (state.push break' '\n', rest.dropWhile isInlineBlank)
  | rest => ({ state.push (.text run) ' ' with last := run.getLast? }, rest)

/-- Reads one piece of inline content at a nonempty text that starts with the given character. -/
def inlineStep (gfm : Bool) (definitions : Definitions) (state : InlineState) (c : Char)
    (rest : Text) : InlineState × Text :=
  if c = '\\' then
    match rest with
    | '\n' :: after => (state.push .hardBreak '\n', after.dropWhile isInlineBlank)
    | next :: after =>
      if isAsciiPunctuation next then (state.push (.text [next]) next, after)
      else (state.push (.text [c]) c, rest)
    | [] => (state.push (.text [c]) c, rest)
  else if c = '\n' then (state.push .softBreak c, rest.dropWhile isInlineBlank)
  else if c = '\x60' then
    let run := (c :: rest).takeWhile (· == '\x60')
    let after := (c :: rest).dropWhile (· == '\x60')
    match codeEnd? run.length (after.length + 1) after with
    | some (code, after) => (state.push (.code (codeValue code)) c, after)
    | none => (state.push (.text run) c, after)
  else if c = '<' then
    match autolink? rest with
    | some (address, after) => (state.push (.link address [] [.text address]) '>', after)
    | none =>
      match inlineHtml? rest with
      | some after =>
        (state.push (.html (c :: rest.take (rest.length - after.length))) '>', after)
      | none => (state.push (.text [c]) c, rest)
  else if c = '&' then
    match characterReference? rest with
    | some (value, after) => (state.push (.text value) ';', after)
    | none => (state.push (.text [c]) c, rest)
  else if c = '*' ∨ c = '_' ∨ (c = '~' ∧ gfm) then
    let run := (c :: rest).takeWhile (· == c)
    let after := (c :: rest).dropWhile (· == c)
    let piece := delimiterPiece c run.length state.last after.head?
    ({ state with pieces := piece :: state.pieces, last := some c }, after)
  else if c = '!' then
    match rest with
    | '[' :: after => (state.openBracket true after, after)
    | _ => (state.push (.text [c]) c, rest)
  else if c = '[' then (state.openBracket false rest, rest)
  else if c = ']' then closeBracket definitions state rest
  else if c = '~' then (state.push (.text [c]) c, rest)
  else plainText state (c :: rest)

def readInlines (gfm : Bool) (definitions : Definitions) : Nat → InlineState → Text → InlineState
  | 0, state, _ => state
  | _ + 1, state, [] => state
  | fuel + 1, state, c :: rest =>
    let (state, rest) := inlineStep gfm definitions state c rest
    readInlines gfm definitions fuel state rest

/-- The inline content of a text. Blanks at its ends do not count. -/
def inlines (gfm : Bool) (definitions : Definitions) (s : Text) : List Inline :=
  let s := ((s.dropWhile isAsciiBlank).reverse.dropWhile isAsciiBlank).reverse
  emphasize (readInlines gfm definitions s.length {} s).allPieces.reverse

end DirectiveMarkdown.Markdown
