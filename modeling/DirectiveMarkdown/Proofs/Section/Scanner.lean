import DirectiveMarkdown.Section

/-! The scanner that reads the lines of a source. Wherever no code is open it reads a directive at
the start of a line, since the content of a list item is always indented, and after a directive it
is as at the start. -/
namespace DirectiveMarkdown

theorem listMarkerLength?_pos {s : Text} {length : Nat} (h : listMarkerLength? s = some length) :
    0 < length := by
  unfold listMarkerLength? at h
  split at h
  · cases h
  · split at h
    · cases h
      exact Nat.one_pos
    · dsimp only at h
      split at h
      · split at h
        · cases h
          exact Nat.succ_pos _
        · cases h
      · cases h

/-- The content of a list item stands at least two columns behind the indentation of its marker. -/
theorem leadingSpaces_add_two_le_listItemColumn? {line : Text} {column : Nat}
    (h : listItemColumn? line = some column) : leadingSpaces line + 2 ≤ column := by
  unfold listItemColumn? at h
  dsimp only at h
  split at h
  · cases h
  · obtain ⟨marker, hMarker, hColumn⟩ := Option.bind_eq_some_iff.1 h
    have hPos := listMarkerLength?_pos hMarker
    split at hColumn
    · cases hColumn
      omega
    · split at hColumn
      · cases hColumn
      · split at hColumn <;> cases hColumn <;> omega

/-- The content of an item never starts at the start of the line. -/
theorem listItemColumn?_pos {line : Text} {column : Nat} (h : listItemColumn? line = some column) :
    0 < column := by
  have hColumn := leadingSpaces_add_two_le_listItemColumn? h
  omega

namespace ListColumns

/-- No list item has its content at the start of the line. -/
def AllPositive (list : ListColumns) : Prop := ∀ column ∈ list.columns, 0 < column

/-- A line opens no item at the start of the line. -/
theorem AllPositive.next {list : ListColumns} (h : list.AllPositive) (line : Text) :
    (list.next line).2.AllPositive := by
  unfold ListColumns.next
  split
  · exact h
  · dsimp only
    split
    · next item hItem =>
        intro column hMem
        rcases List.mem_append.1 hMem with hMem | hMem
        · exact h column (List.mem_filter.1 hMem).1
        · rw [List.mem_singleton.1 hMem]
          exact listItemColumn?_pos hItem
    · split
      · exact h
      · exact fun column hMem => h column (List.mem_of_mem_take hMem)

/-- A line that starts with a colon belongs to no list item. -/
theorem AllPositive.next_colon {list : ListColumns} (h : list.AllPositive) (rest : Text) :
    (list.next (':' :: rest)).1 = false := by
  have hNone : (list.columns.filter (· ≤ 0)).length = 0 := by
    rw [List.length_eq_zero_iff, List.filter_eq_nil_iff]
    intro column hMem hLe
    have hPos := h column hMem
    have hZero : column ≤ 0 := by simpa using hLe
    omega
  have hBlank : Text.isBlankText (':' :: rest) = false := rfl
  have hColumn : leadingSpaces (':' :: rest) = 0 := rfl
  have hItem : listItemColumn? (':' :: rest) = none := rfl
  simp only [ListColumns.next, hBlank, hColumn, hItem, hNone, Bool.false_eq_true, if_false]
  split <;> rfl

end ListColumns

namespace LineScanner

def after (scanner : LineScanner) (lines : List Text) : LineScanner :=
  lines.foldl (fun scanner line => (scanner.next line).2) scanner

/-- The fence that is open depends on the lines alone, not on the list items. -/
theorem fence_next (scanner : LineScanner) (line : Text) :
    (scanner.next line).2.fence = (CodeFence.next scanner.fence line).2 := by
  unfold LineScanner.next
  dsimp only
  split
  · rfl
  · split
    · rfl
    · split <;> rfl

/-- Lines that open no code leave none open. -/
theorem fence_after {lines : List Text} (h : ∀ line ∈ lines, CodeFence.opening? line = none)
    {scanner : LineScanner} (hFence : scanner.fence = none) : (scanner.after lines).fence = none := by
  induction lines generalizing scanner with
  | nil => exact hFence
  | cons line rest ih =>
      obtain ⟨hLine, hRest⟩ := List.forall_mem_cons.1 h
      refine ih hRest ?_
      rw [fence_next, hFence, CodeFence.next, hLine]

/-- No code is open, and a line that starts with a colon belongs to no list item. -/
structure IsNeutral (scanner : LineScanner) : Prop where
  fence : scanner.fence = none
  list : scanner.list.AllPositive

theorem allPositive_after {scanner : LineScanner} (h : scanner.list.AllPositive)
    (lines : List Text) : (scanner.after lines).list.AllPositive := by
  induction lines generalizing scanner with
  | nil => exact h
  | cons line rest ih =>
      refine ih ?_
      unfold LineScanner.next
      dsimp only
      split
      · exact h
      · split
        · exact h.next line
        · split
          · exact fun column hMem => by cases hMem
          · exact h.next line

theorem isNeutral_new : IsNeutral {} := ⟨rfl, fun column hMem => by cases hMem⟩

/-- Where the scanner is neutral it reads a directive and starts anew. -/
theorem IsNeutral.next {scanner : LineScanner} (h : scanner.IsNeutral) {rest : Text}
    {directive : BlockLine} (hRead : BlockLine.read? (':' :: rest) = some directive) :
    scanner.next (':' :: rest) = (some directive, {}) := by
  have hFence : CodeFence.next scanner.fence (':' :: rest) = (false, none) := by
    rw [h.fence]
    rfl
  have hList := h.list.next_colon rest
  rw [LineScanner.next, hFence]
  cases hNext : scanner.list.next (':' :: rest) with
  | mk inList list =>
      rw [hNext] at hList
      have hOutside : inList = false := hList
      simp [hOutside, hRead]

end LineScanner

/-- Lines are read in the state that the lines before them leave. -/
theorem scanLines_append (scanner : LineScanner) (a b : List Text) :
    scanLines scanner (a ++ b) = scanLines scanner a ++ scanLines (scanner.after a) b := by
  induction a generalizing scanner with
  | nil => rfl
  | cons line a ih => exact congrArg (((scanner.next line).1, line) :: ·) (ih _)

theorem map_snd_scanLines (scanner : LineScanner) (lines : List Text) :
    (scanLines scanner lines).map Prod.snd = lines := by
  induction lines generalizing scanner with
  | nil => rfl
  | cons line rest ih => exact congrArg (line :: ·) (ih _)

end DirectiveMarkdown
