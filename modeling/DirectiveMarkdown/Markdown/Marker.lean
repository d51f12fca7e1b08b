import DirectiveMarkdown.Text.Digit
import DirectiveMarkdown.Markdown.Syntax
import DirectiveMarkdown.Markdown.Line

/-! What the start of a line can open. Each reader takes the text of the line after its
indentation. -/
namespace DirectiveMarkdown.Markdown

/-- At least three of one mark and, apart from spaces and tabs, nothing else. -/
def isThematicBreak (line : Text) : Bool :=
  let marks := line.filter fun c => !isInlineBlank c
  match marks with
  | mark :: _ =>
    (mark == '*' || mark == '-' || mark == '_') && marks.length ≥ 3 && marks.all (· == mark)
  | [] => false

/-- The closing run of `#` of a heading and the space before it, removed. -/
def dropClosingMarks (content : Text) : Text :=
  let trimmed := (content.reverse.dropWhile isInlineBlank)
  let body := trimmed.dropWhile (· == '#')
  match body with
  | [] => []
  | c :: _ =>
    if trimmed.length ≠ body.length ∧ isInlineBlank c then (body.dropWhile isInlineBlank).reverse
    else trimmed.reverse

/-- A heading of one to six `#`, with its text. -/
def atxHeading? (line : Text) : Option (HeadingLevel × Text) :=
  let marks := (line.takeWhile (· == '#')).length
  let rest := line.dropWhile (· == '#')
  match marks with
  | 0 => none
  | depth + 1 =>
    if h : depth < 6 then
      match rest with
      | [] => some (⟨depth, h⟩, [])
      | c :: _ =>
        if isInlineBlank c then
          some (⟨depth, h⟩, dropClosingMarks (rest.dropWhile isInlineBlank))
        else none
    else none

/-- A line of `=` or `-` that makes a heading of the paragraph before it. -/
def setextLevel? (line : Text) : Option HeadingLevel :=
  match line with
  | '=' :: _ => if (line.dropWhile (· == '=')).all isInlineBlank then some 0 else none
  | '-' :: _ => if (line.dropWhile (· == '-')).all isInlineBlank then some 1 else none
  | _ => none

structure FenceMarker where
  mark : Char
  length : Nat
  info : Text

/-- At least three backticks or tildes and the info string. The info string of backticks holds
none. -/
def fenceMarker? (line : Text) : Option FenceMarker :=
  match line with
  | mark :: _ =>
    if mark = '\x60' ∨ mark = '~' then
      let length := (line.takeWhile (· == mark)).length
      let rest := line.dropWhile (· == mark)
      if length ≥ 3 ∧ ¬(mark = '\x60' ∧ rest.contains mark) then
        let info := (rest.dropWhile isAsciiBlank).reverse.dropWhile isAsciiBlank
        some ⟨mark, length, info.reverse⟩
      else none
    else none
  | [] => none

/-- The line closes fenced code: as many marks as opened it, or more, and nothing else. -/
def closesFence (mark : Char) (length : Nat) (line : Text) : Bool :=
  (line.takeWhile (· == mark)).length ≥ length &&
    (line.dropWhile (· == mark)).all isInlineBlank

/-- The marker of a list item: the character that tells lists apart, the number if there is one,
and the characters it takes. -/
structure ListMarker where
  mark : Char
  number : Option Nat
  width : Nat
deriving DecidableEq

/-- A bullet, or at most nine digits and a point or parenthesis. What follows is not looked at. -/
def listMarker? (line : Text) : Option ListMarker :=
  match line with
  | [] => none
  | c :: _ =>
    if c = '-' ∨ c = '+' ∨ c = '*' then some ⟨c, none, 1⟩
    else
      let digits := line.takeWhile Char.isDigit
      if 1 ≤ digits.length ∧ digits.length ≤ 9 then
        match line.drop digits.length with
        | mark :: _ =>
          if mark = '.' ∨ mark = ')' then some ⟨mark, some (ofDigits 10 digits), digits.length + 1⟩
          else none
        | [] => none
      else none

/-- A check box `[ ]` or `[x]` and the text after it, which starts with white space if there is
any. -/
def taskMarker? (line : Text) : Option (Bool × Text) :=
  match line with
  | '[' :: c :: ']' :: rest =>
    let followed := match rest with
      | [] => true
      | next :: _ => isInlineBlank next
    if !followed then none
    else if c = 'x' ∨ c = 'X' then some (true, rest)
    else if isInlineBlank c then some (false, rest)
    else none
  | _ => none

def splitCells : Text → List Text
  | [] => [[]]
  | '\\' :: c :: rest =>
    match splitCells rest with
    | [] => [['\\', c]]
    | cell :: more => ('\\' :: c :: cell) :: more
  | c :: rest =>
    if c = '|' then [] :: splitCells rest
    else match splitCells rest with
      | [] => [[c]]
      | cell :: more => (c :: cell) :: more

def trimCell (cell : Text) : Text :=
  ((cell.dropWhile isInlineBlank).reverse.dropWhile isInlineBlank).reverse

/-- An escaped pipe in a cell is a pipe. -/
def unescapePipes : Text → Text
  | [] => []
  | '\\' :: '|' :: rest => '|' :: unescapePipes rest
  | c :: rest => c :: unescapePipes rest

/-- The pieces of a table row. Pipes at the ends of the row are optional. -/
def rowPieces (line : Text) : List Text :=
  let trimmed := trimCell line
  let pieces := splitCells (match trimmed with
    | '|' :: rest => rest
    | _ => trimmed)
  match pieces.reverse with
  | last :: before => if (trimCell last).isEmpty then before.reverse else pieces
  | [] => []

def tableCells (line : Text) : List Text :=
  (rowPieces line).map fun cell => unescapePipes (trimCell cell)

/-- The alignment that one cell of a delimiter row asks for. -/
def cellAlignment? (cell : Text) : Option Alignment :=
  let cell := trimCell cell
  let left := cell.head? == some ':'
  let right := cell.getLast? == some ':'
  let dashes := cell.filter (· == '-')
  let rest := cell.filter fun c => c != '-'
  let colons := (if left then 1 else 0) + (if right then 1 else 0)
  if dashes.isEmpty ∨ rest.length ≠ colons then none
  else some (match left, right with
    | true, true => .center
    | true, false => .left
    | false, true => .right
    | false, false => .unset)

/-- The delimiter row of a table: one cell of dashes per column and at least one pipe. -/
def delimiterRow? (line : Text) : Option (List Alignment) :=
  if line.contains '|' then
    match (rowPieces line).mapM cellAlignment? with
    | some [] => none
    | columns => columns
  else none

end DirectiveMarkdown.Markdown
