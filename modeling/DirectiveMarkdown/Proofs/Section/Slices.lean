import DirectiveMarkdown.Section
import DirectiveMarkdown.Proofs.Directive.Slices
import DirectiveMarkdown.Proofs.Text.Wrapping

/-! The lines of a source read by byte offsets, with the code fences and list items that are open. The
marks of a fence and the characters of a list marker take one byte each, so that they can be counted
instead of measured. For a closing fence this rests on the mark of the fence that is open, which is
carried from line to line. -/
namespace DirectiveMarkdown

open Text

namespace CodeFence

def openingBytes (line : Text) : Except Panic (Option CodeFence) :=
  let trimmed := trimStart line
  match trimmed.head?.filter fun c => c == '\x60' || c == '~' with
  | none => .ok none
  | some mark =>
    let count := (trimmed.takeWhile (· == mark)).length
    if count < 3 then .ok none
    else if mark = '\x60' then do
      let rest ← sliceFrom trimmed count
      return if rest.contains mark then none else some ⟨mark, count⟩
    else .ok (some ⟨mark, count⟩)

def closedByBytes (fence : CodeFence) (line : Text) : Except Panic Bool :=
  let trimmed := trimStart line
  let count := (trimmed.takeWhile (· == fence.mark)).length
  if fence.length ≤ count then do
    let rest ← sliceFrom trimmed count
    return isBlankText rest
  else .ok false

/-- The fence that is open after a line, and whether the line itself opened or closed one. -/
def nextBytes (fence : Option CodeFence) (line : Text) : Except Panic (Bool × Option CodeFence) :=
  match fence with
  | some fence => do
    let closed ← fence.closedByBytes line
    return if closed then (true, none) else (false, some fence)
  | none => do
    let opened ← openingBytes line
    return (opened.isSome, opened)

def afterBytes (fence : Option CodeFence) : List Text → Except Panic (Option CodeFence)
  | [] => .ok fence
  | line :: rest => do
    let next ← nextBytes fence line
    afterBytes next.2 rest

/-- Fences are marked with backticks or tildes. -/
def IsMark (c : Char) : Prop := c = '\x60' ∨ c = '~'

/-- Marks of fences are one byte each, so their number is an offset. -/
theorem sliceFrom_marks {mark : Char} (h : IsMark mark) (s : Text) :
    sliceFrom s (s.takeWhile (· == mark)).length = .ok (s.dropWhile (· == mark)) := by
  refine sliceFrom_length_takeWhile (fun c hChar => ?_) s
  rw [eq_of_beq hChar]
  rcases h with rfl | rfl <;> rfl

/-- The cut behind the marks of a fence never fails. -/
theorem openingBytes_eq (line : Text) : openingBytes line = .ok (opening? line) := by
  rw [openingBytes, opening?]
  dsimp only
  cases hTrim : trimStart line with
  | nil => rfl
  | cons mark rest =>
      by_cases hMark : mark = '\x60' ∨ mark = '~'
      · have hHead : (mark :: rest).head?.filter (fun c => c == '\x60' || c == '~') = some mark := by
          rcases hMark with rfl | rfl <;> rfl
        rw [hHead]
        dsimp only
        rw [sliceFrom_marks hMark, drop_length_takeWhile, if_pos hMark]
        by_cases hFew : ((mark :: rest).takeWhile (· == mark)).length < 3
        · rw [if_pos hFew, if_pos (.inl hFew)]
        · rw [if_neg hFew, Panic.ok_bind]
          by_cases hTick : mark = '\x60'
          · rw [if_pos hTick]
            exact congrArg Except.ok (if_congr (by rw [or_iff_right hFew, and_iff_right hTick]) rfl rfl)
          · rw [if_neg hTick, if_neg fun h => h.elim hFew fun h => hTick h.1]
      · have hHead : (mark :: rest).head?.filter (fun c => c == '\x60' || c == '~') = none := by
          simpa using hMark
        rw [hHead]
        exact (congrArg Except.ok (if_neg hMark)).symm

theorem closedByBytes_eq {fence : CodeFence} (h : IsMark fence.mark) (line : Text) :
    fence.closedByBytes line = .ok (fence.closedBy line) := by
  rw [closedByBytes, closedBy, sliceFrom_marks h, drop_length_takeWhile]
  split
  · next hLength => rw [decide_eq_true hLength]; rfl
  · next hLength => rw [decide_eq_false hLength]; rfl

theorem isMark_of_opening? {line : Text} {fence : CodeFence} (h : opening? line = some fence) :
    IsMark fence.mark := by
  rw [opening?] at h
  dsimp only at h
  split at h
  · cases h
  · next mark _ _ =>
      split at h
      · next hMark =>
          split at h
          · cases h
          · cases h
            exact hMark
      · cases h

/-- The fence that may be open has a mark of fences. -/
def HasMark (fence : Option CodeFence) : Prop := ∀ opened ∈ fence, IsMark opened.mark

theorem hasMark_none : HasMark none := fun opened hMem => absurd hMem (Option.not_mem_none opened)

/-- An open fence has a mark of fences, whatever line comes. -/
theorem hasMark_next {fence : Option CodeFence} (h : HasMark fence) (line : Text) :
    HasMark (next fence line).2 := by
  cases fence with
  | none => exact fun opened hMem => isMark_of_opening? hMem
  | some fence =>
      rw [next]
      split
      · exact fun opened hMem => absurd hMem (Option.not_mem_none opened)
      · exact h

/-- No cut of a line fails while the open fence has a mark of fences. -/
theorem nextBytes_eq {fence : Option CodeFence} (h : HasMark fence) (line : Text) :
    nextBytes fence line = .ok (next fence line) := by
  cases fence with
  | none =>
      rw [nextBytes, openingBytes_eq]
      rfl
  | some fence =>
      rw [nextBytes, closedByBytes_eq (h fence rfl)]
      rfl

/-- From line to line, the open fence is one whose marks can be counted. -/
theorem afterBytes_eq {fence : Option CodeFence} (h : HasMark fence) (lines : List Text) :
    afterBytes fence lines = .ok (lines.foldl (fun fence line => (next fence line).2) fence) := by
  induction lines generalizing fence with
  | nil => rfl
  | cons line rest ih =>
      rw [afterBytes, nextBytes_eq h, Panic.ok_bind, List.foldl_cons]
      exact ih (hasMark_next h line)

end CodeFence

def leadingSpacesBytes (line : Text) : Except Panic Nat :=
  checkedSub (width line) (width (line.dropWhile (· == ' ')))

/-- The widths of a line and of its end differ by the spaces at its start. -/
theorem leadingSpacesBytes_eq (line : Text) : leadingSpacesBytes line = .ok (leadingSpaces line) := by
  rw [leadingSpacesBytes, checkedSub_width_dropWhile, width_takeWhile utf8Size_of_beq_space]
  rfl

def isDigitByte (b : UInt8) : Bool := 48 ≤ b && b ≤ 57

/-- The length of a marker of a list item, whose digits are counted in bytes. -/
def markerLengthBytes (s : Text) : Except Panic (Option Nat) :=
  if s.head?.any fun c => c == '-' || c == '*' || c == '+' then .ok (some 1)
  else
    let digits := ((bytes s).takeWhile isDigitByte).length
    if digits = 0 ∨ digits > 9 then .ok none
    else do
      let rest ← sliceFrom s digits
      return if rest.head?.any fun c => c == '.' || c == ')' then some (digits + 1) else none

/-- No byte of a longer character is taken for a digit. -/
theorem length_takeWhile_isDigitByte (s : Text) :
    ((bytes s).takeWhile isDigitByte).length = (s.takeWhile Char.isDigit).length := by
  refine length_takeWhile_bytes (fun c hAscii => ?_) (fun c hDigit => ?_) (fun b hLarge => ?_) s
  · simp only [isDigitByte, Char.isDigit, UInt8.le_iff_toNat_le, UInt32.le_iff_toNat_le,
      toNat_ofNat_of_ascii hAscii]
    rfl
  · have hRange := toNat_of_isDigit hDigit
    omega
  · have hNot : ¬b ≤ 57 := by
      rw [UInt8.le_iff_toNat_le, Nat.not_le]
      exact Nat.lt_of_lt_of_le (by decide) hLarge
    rw [isDigitByte, decide_eq_false hNot, Bool.and_false]

/-- Digits of ASCII are bytes, so the marker has as many bytes as characters. -/
theorem markerLengthBytes_eq (s : Text) : markerLengthBytes s = .ok (listMarkerLength? s) := by
  cases s with
  | nil => rfl
  | cons c rest =>
      have hBullet : (c :: rest).head?.any (fun c => c == '-' || c == '*' || c == '+') = true ↔
          c = '-' ∨ c = '*' ∨ c = '+' := by
        simp [or_assoc]
      have hDigit : ∀ c, Char.isDigit c = true → c.utf8Size = 1 := fun c h => by
        have hRange := toNat_of_isDigit h
        exact utf8Size_of_ascii (by omega)
      rw [markerLengthBytes, listMarkerLength?, length_takeWhile_isDigitByte]
      simp only [hBullet, sliceFrom_length_takeWhile hDigit, Panic.ok_bind, drop_length_takeWhile]
      split
      · rfl
      · generalize ((c :: rest).takeWhile Char.isDigit).length = digits
        cases (c :: rest).dropWhile Char.isDigit with
        | nil => split <;> rfl
        | cons mark after =>
            have hEnd : (mark :: after).head?.any (fun c => c == '.' || c == ')') = true ↔
                mark = '.' ∨ mark = ')' := by
              simp
            split
            · next hNumber =>
                exact congrArg Except.ok
                  (if_neg fun h => hNumber.elim h.1 (Nat.not_lt.2 h.2.1)).symm
            · next hNumber =>
                rw [not_or, Nat.not_lt] at hNumber
                exact congrArg Except.ok (if_congr
                  (hEnd.trans ⟨fun h => ⟨hNumber.1, hNumber.2, h⟩, fun h => h.2.2⟩) rfl rfl)

namespace IsListMark

/-- The characters of marks take one byte each. -/
theorem width_eq {mark : Text} (h : IsListMark mark) : width mark = mark.length :=
  width_eq_length fun c hMem => by
    have hRange := h.toNat_of_mem hMem
    exact utf8Size_of_ascii (by omega)

end IsListMark

def itemColumnBytes (line : Text) : Except Panic (Option Nat) := do
  let indent ← leadingSpacesBytes line
  if indent > 3 then return none
  let rest ← sliceFrom line indent
  match ← markerLengthBytes rest with
  | none => return none
  | some marker =>
    let after ← sliceFrom rest marker
    if isBlankText after then return some (indent + marker + 1)
    let spaces ← leadingSpacesBytes after
    return if spaces = 0 then none
      else if spaces > 4 then some (indent + marker + 1)
      else some (indent + marker + spaces)

/-- No cut or difference fails in finding the column of an item. -/
theorem itemColumnBytes_eq (line : Text) : itemColumnBytes line = .ok (listItemColumn? line) := by
  have hFrom : sliceFrom line (leadingSpaces line) = .ok (line.drop (leadingSpaces line)) := by
    rw [leadingSpaces, sliceFrom_length_takeWhile utf8Size_of_beq_space, drop_length_takeWhile]
  rw [itemColumnBytes, leadingSpacesBytes_eq, Panic.ok_bind, listItemColumn?]
  dsimp only
  split
  · rfl
  · rw [hFrom, Panic.ok_bind, markerLengthBytes_eq, Panic.ok_bind]
    cases hMarker : listMarkerLength? (line.drop (leadingSpaces line)) with
    | none => rfl
    | some marker =>
        have hMark : sliceFrom (line.drop (leadingSpaces line)) marker =
            .ok (line.drop (leadingSpaces line + marker)) := by
          obtain ⟨mark, rest, hMark, hText, rfl⟩ := IsListMark.of_listMarkerLength? hMarker
          rw [← List.drop_drop, hText, List.drop_left, ← hMark.width_eq, sliceFrom_width]
        dsimp only
        rw [hMark, Panic.ok_bind, Option.bind_some, leadingSpacesBytes_eq]
        split <;> rfl

/-- The open list items after a line, and whether the line belongs to one. -/
def ListColumns.nextBytes (list : ListColumns) (line : Text) : Except Panic (Bool × ListColumns) := do
  if isBlankText line then return (!list.columns.isEmpty, { list with afterBlank := true })
  let column ← leadingSpacesBytes line
  match ← itemColumnBytes line with
  | some item => return (true, ⟨list.columns.filter (· ≤ column) ++ [item], false⟩)
  | none =>
    let deeper := (list.columns.filter (· ≤ column)).length
    return if deeper = 0 ∧ !list.afterBlank then (false, { list with afterBlank := false })
      else (deeper > 0, ⟨list.columns.take deeper, false⟩)

theorem ListColumns.nextBytes_eq (list : ListColumns) (line : Text) :
    list.nextBytes line = .ok (list.next line) := by
  rw [ListColumns.nextBytes, ListColumns.next, leadingSpacesBytes_eq, itemColumnBytes_eq]
  split
  · rfl
  · rw [Panic.ok_bind, Panic.ok_bind]
    cases listItemColumn? line with
    | some item => rfl
    | none =>
        dsimp only
        split <;> rfl

namespace LineScanner

/-- The directive on a line, and the scanner after it. -/
def nextBytes (scanner : LineScanner) (line : Text) :
    Except Panic (Option BlockLine × LineScanner) := do
  let fence ← CodeFence.nextBytes scanner.fence line
  if fence.1 || fence.2.isSome then return (none, ⟨fence.2, scanner.list⟩)
  let list ← scanner.list.nextBytes line
  if list.1 then return (none, ⟨fence.2, list.2⟩)
  match ← blockLineBytes line with
  | some directive => return (some directive, ⟨fence.2, {}⟩)
  | none => return (none, ⟨fence.2, list.2⟩)

theorem nextBytes_eq {scanner : LineScanner} (h : CodeFence.HasMark scanner.fence) (line : Text) :
    scanner.nextBytes line = .ok (scanner.next line) := by
  rw [nextBytes, next, CodeFence.nextBytes_eq h, Panic.ok_bind]
  dsimp only
  split
  · rfl
  · rw [ListColumns.nextBytes_eq, Panic.ok_bind]
    split
    · rfl
    · rw [blockLineBytes_eq, Panic.ok_bind]
      cases BlockLine.read? line <;> rfl

theorem hasMark_next {scanner : LineScanner} (h : CodeFence.HasMark scanner.fence) (line : Text) :
    CodeFence.HasMark (scanner.next line).2.fence := by
  have hFence := CodeFence.hasMark_next h line
  rw [next]
  dsimp only
  split
  · exact hFence
  · split
    · exact hFence
    · split <;> exact hFence

end LineScanner

/-- The lines of a source, each with the directive that it holds. -/
def scanLinesBytes (scanner : LineScanner) :
    List Text → Except Panic (List (Option BlockLine × Text))
  | [] => .ok []
  | line :: rest => do
    let read ← scanner.nextBytes line
    let more ← scanLinesBytes read.2 rest
    return (read.1, line) :: more

/-- The scanner reads every line, since the fences that it opens have marks of fences. -/
theorem scanLinesBytes_eq {scanner : LineScanner} (h : CodeFence.HasMark scanner.fence)
    (lines : List Text) : scanLinesBytes scanner lines = .ok (scanLines scanner lines) := by
  induction lines generalizing scanner with
  | nil => rfl
  | cons line rest ih =>
      rw [scanLinesBytes, LineScanner.nextBytes_eq h, Panic.ok_bind,
        ih (LineScanner.hasMark_next h line)]
      rfl

def Section.splitBytes (source : Text) : Except Panic (List Section) := do
  let entries ← scanLinesBytes {} (Text.lines source)
  return (entries.foldl OpenSections.next ⟨.document, []⟩).finish

/-- No cut fails in dividing a source. -/
theorem Section.splitBytes_eq (source : Text) :
    Section.splitBytes source = .ok (Section.split source) := by
  rw [Section.splitBytes, scanLinesBytes_eq CodeFence.hasMark_none]
  rfl

end DirectiveMarkdown
