import DirectiveMarkdown.Text.Basic

/-! List items as the search for directives sees them: a line inside a list item is no directive of
the level outside. -/
namespace DirectiveMarkdown

def leadingSpaces (line : Text) : Nat := (line.takeWhile (· == ' ')).length

/-- The length of a bullet, or of at most nine digits and a point or parenthesis. -/
def listMarkerLength? (s : Text) : Option Nat :=
  match s with
  | [] => none
  | c :: _ =>
    if c = '-' ∨ c = '*' ∨ c = '+' then some 1
    else
      let digits := (s.takeWhile Char.isDigit).length
      match s.drop digits with
      | mark :: _ =>
        if digits ≠ 0 ∧ digits ≤ 9 ∧ (mark = '.' ∨ mark = ')') then some (digits + 1) else none
      | [] => none

/-- The column at which the content of a list item starts, if the line opens one. An item without
content, and one that starts with indented code, has its content one column after the marker. -/
def listItemColumn? (line : Text) : Option Nat :=
  let indent := leadingSpaces line
  if indent > 3 then none
  else
    (listMarkerLength? (line.drop indent)).bind fun marker =>
      let after := line.drop (indent + marker)
      let spaces := leadingSpaces after
      if Text.isBlankText after then some (indent + marker + 1)
      else if spaces = 0 then none
      else if spaces > 4 then some (indent + marker + 1)
      else some (indent + marker + spaces)

/-- The content columns of the list items that are open, outermost first, and whether the last line
was blank. -/
structure ListColumns where
  columns : List Nat := []
  afterBlank : Bool := false
deriving DecidableEq

namespace ListColumns

/-- Takes a line and tells whether it belongs to a list item. A line that is indented less than
every open item leaves them open, unless it follows a blank line, because it may go on with a
paragraph. -/
def next (list : ListColumns) (line : Text) : Bool × ListColumns :=
  if Text.isBlankText line then (!list.columns.isEmpty, { list with afterBlank := true })
  else
    let column := leadingSpaces line
    match listItemColumn? line with
    | some item => (true, ⟨list.columns.filter (· ≤ column) ++ [item], false⟩)
    | none =>
      let deeper := (list.columns.filter (· ≤ column)).length
      if deeper = 0 ∧ !list.afterBlank then (false, { list with afterBlank := false })
      else (deeper > 0, ⟨list.columns.take deeper, false⟩)

end ListColumns

end DirectiveMarkdown
