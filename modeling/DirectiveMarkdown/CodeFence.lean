import DirectiveMarkdown.Text.Basic

/-! Fenced code as the search for directives sees it, line by line. The indentation of a fence does
not count, so that fences inside list items and quotes are seen as well. -/
namespace DirectiveMarkdown

/-- An open fence: its mark and the number of marks that opened it. -/
structure CodeFence where
  mark : Char
  length : Nat
deriving DecidableEq

namespace CodeFence

/-- The fence that a line opens. The text after backticks holds no backtick. -/
def opening? (line : Text) : Option CodeFence :=
  let line := Text.trimStart line
  match line with
  | [] => none
  | mark :: _ =>
    let length := (line.takeWhile (· == mark)).length
    if mark = '\x60' ∨ mark = '~' then
      if length < 3 ∨ (mark = '\x60' ∧ (line.drop length).contains mark) then none
      else some ⟨mark, length⟩
    else none

/-- The line closes the fence: it holds as many marks or more, and nothing else. -/
def closedBy (fence : CodeFence) (line : Text) : Bool :=
  let line := Text.trimStart line
  let length := (line.takeWhile (· == fence.mark)).length
  fence.length ≤ length && Text.isBlankText (line.drop length)

/-- The fence that is open after a line, and whether the line itself opened or closed one. -/
def next (fence : Option CodeFence) (line : Text) : Bool × Option CodeFence :=
  match fence with
  | some fence => if fence.closedBy line then (true, none) else (false, some fence)
  | none =>
    let opened := opening? line
    (opened.isSome, opened)

end CodeFence

end DirectiveMarkdown
