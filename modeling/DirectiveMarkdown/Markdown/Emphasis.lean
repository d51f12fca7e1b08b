import DirectiveMarkdown.Text.Punctuation
import DirectiveMarkdown.Markdown.Syntax

/-! Emphasis, strong emphasis and strikethrough: the pairing of delimiter runs. -/
namespace DirectiveMarkdown.Markdown

/-- A run of marks that may start or end emphasis. `length` counts the marks not used yet, `written`
those of the source. -/
structure Delimiter where
  mark : Char
  length : Nat
  written : Nat
  opens : Bool
  closes : Bool

/-- A piece of inline content before the delimiters are paired. -/
inductive Piece where
  | node (node : Inline)
  | delimiter (delimiter : Delimiter)

/-- A run may open emphasis between these two characters. Asterisks and double tildes may do so
inside a word. -/
def mayOpen (mark : Char) (length : Nat) (before after : Option Char) : Bool :=
  match after with
  | none => false
  | some next =>
    if isBlank next then false
    else match before with
      | none => true
      | some previous =>
        (mark == '*' && !isPunctuation next) || (mark == '~' && length > 1) ||
          isBlank previous || isPunctuation previous

/-- A run may close emphasis between these two characters. -/
def mayClose (mark : Char) (length : Nat) (before after : Option Char) : Bool :=
  match before with
  | none => false
  | some previous =>
    if isBlank previous then false
    else match after with
      | none => true
      | some next =>
        ((mark == '*' || (mark == '~' && length > 1)) && !isPunctuation previous) ||
          isBlank next || isPunctuation next

/-- The run as a piece. A run of more than two tildes, and one that neither opens nor closes, is
text. -/
def delimiterPiece (mark : Char) (length : Nat) (before after : Option Char) : Piece :=
  let opens := mayOpen mark length before after
  let closes := mayClose mark length before after
  if (opens || closes) && (mark != '~' || length ≤ 2) then
    .delimiter ⟨mark, length, length, opens, closes⟩
  else .node (.text (List.replicate length mark))

/-- An opening run that waits for its closing one, and the content before it, last first, back to
the opening run outside it. -/
structure Opener where
  delimiter : Delimiter
  before : List Inline

/-- Two runs can be paired. Tildes pair with as many tildes. Where one of the runs may both open and
close, the sum of their lengths must not be a multiple of three, unless both lengths are. -/
def pairs (opener closer : Delimiter) : Bool :=
  opener.mark == closer.mark &&
    if closer.mark == '~' then opener.written == closer.written
    else
      !((opener.closes || closer.opens) && (opener.written + closer.written) % 3 == 0 &&
        !(opener.written % 3 == 0 && closer.written % 3 == 0))

def Delimiter.toInlines (delimiter : Delimiter) : List Inline :=
  if delimiter.length = 0 then [] else [.text (List.replicate delimiter.length delimiter.mark)]

/-- Openers that are given up become text before the content that followed them. All lists are last
first. -/
def giveUp (openers : List Opener) (content : List Inline) : List Inline :=
  openers.foldl (fun content opener => content ++ opener.delimiter.toInlines ++ opener.before)
    content

/-- The openers inside the innermost one that pairs with a closing run, that opener, and the openers
outside it. -/
def findOpener (closer : Delimiter) : List Opener → Option (List Opener × Opener × List Opener)
  | [] => none
  | opener :: outer =>
    if pairs opener.delimiter closer then some ([], opener, outer)
    else (findOpener closer outer).map fun (inner, found, rest) => (opener :: inner, found, rest)

/-- Content between paired runs of which `used` marks are taken. -/
def wrap (mark : Char) (used : Nat) (content : List Inline) : Inline :=
  if mark = '~' then .strikethrough content
  else if used = 2 then .strong content
  else .emphasis content

/-- Pairs a closing run with openers as long as there are some. The result tells how many of its
marks are left. -/
def close : Nat → Delimiter → List Opener → List Inline → Nat × List Opener × List Inline
  | 0, closer, openers, content => (closer.length, openers, content)
  | fuel + 1, closer, openers, content =>
    match findOpener closer openers with
    | none => (closer.length, openers, content)
    | some (inner, opener, outer) =>
      let inside := (giveUp inner content).reverse
      let used :=
        if closer.mark = '~' then closer.length
        else if closer.length ≥ 2 ∧ opener.delimiter.length ≥ 2 then 2
        else 1
      let node := wrap closer.mark used inside
      let left := opener.delimiter.length - used
      let (openers, content) :=
        if left = 0 then (outer, node :: opener.before)
        else
          ({ opener with delimiter := { opener.delimiter with length := left } } :: outer, [node])
      let closer := { closer with length := closer.length - used }
      if closer.length = 0 then (0, openers, content) else close fuel closer openers content

/-- Pairs the delimiters of a sequence of pieces, given the openers so far, innermost first, and the
content after the innermost one, last first. -/
def pairDelimiters (openers : List Opener) (content : List Inline) : List Piece → List Inline
  | [] => (giveUp openers content).reverse
  | .node node :: rest => pairDelimiters openers (node :: content) rest
  | .delimiter delimiter :: rest =>
    let (left, openers, content) :=
      if delimiter.closes then close delimiter.length delimiter openers content
      else (delimiter.length, openers, content)
    if left = 0 then pairDelimiters openers content rest
    else
      let delimiter := { delimiter with length := left }
      if delimiter.opens then pairDelimiters (⟨delimiter, content⟩ :: openers) [] rest
      else pairDelimiters openers (delimiter.toInlines ++ content) rest

def emphasize (pieces : List Piece) : List Inline := pairDelimiters [] [] pieces

end DirectiveMarkdown.Markdown
