import Mathlib
import DirectiveMarkdown.Proofs.Directive.Parts
import DirectiveMarkdown.Proofs.Section.Conservation

/-! The list items that are open between two lines. Their content columns increase from the outermost
to the innermost, whatever lines came before, so those that a line is indented to are the outermost
ones. No item has its content at the start of the line, so none keeps a directive that stands there. -/
namespace DirectiveMarkdown

namespace ListColumns

/-- The columns increase, and none lies in the two columns at the start of a line. -/
structure IsOrdered (list : ListColumns) : Prop where
  increasing : list.columns.Pairwise (· < ·)
  two_le : ∀ column ∈ list.columns, 2 ≤ column

theorem isOrdered_new : IsOrdered {} := ⟨.nil, List.forall_mem_nil _⟩

variable {list : ListColumns} {line : Text}

/-- Of increasing columns the outermost ones are kept, as many as are small enough. -/
theorem take_filter_le {columns : List Nat} (h : columns.Pairwise (· < ·)) (column : Nat) :
    columns.take (columns.filter (· ≤ column)).length = columns.filter (· ≤ column) := by
  induction columns with
  | nil => rfl
  | cons first rest ih =>
      obtain ⟨hFirst, hRest⟩ := List.pairwise_cons.1 h
      by_cases hLe : first ≤ column
      · rw [List.filter_cons_of_pos (by simpa using hLe), List.length_cons, List.take_succ_cons,
          ih hRest]
      · have hNone : (first :: rest).filter (· ≤ column) = [] := by
          refine List.filter_eq_nil_iff.2 fun other hMem => ?_
          rcases List.mem_cons.1 hMem with rfl | hOther
          · simpa using hLe
          · have hLess := hFirst other hOther
            simp only [decide_eq_true_eq]
            omega
        rw [hNone]
        rfl

/-- One line keeps the columns in order. -/
theorem IsOrdered.next (h : list.IsOrdered) (line : Text) : (list.next line).2.IsOrdered := by
  unfold ListColumns.next
  split
  · exact ⟨h.increasing, h.two_le⟩
  · dsimp only
    split
    · next item hItem =>
        have hColumn := leadingSpaces_add_two_le_listItemColumn? hItem
        refine ⟨List.pairwise_append.2 ⟨h.increasing.filter _, List.pairwise_singleton ..,
          fun outer hOuter inner hInner => ?_⟩, fun column hMem => ?_⟩
        · have hLe : outer ≤ leadingSpaces line := by simpa using (List.mem_filter.1 hOuter).2
          rw [List.mem_singleton.1 hInner]
          omega
        · rcases List.mem_append.1 hMem with hOuter | hNew
          · exact h.two_le column (List.mem_filter.1 hOuter).1
          · rw [List.mem_singleton.1 hNew]
            omega
    · split
      · exact ⟨h.increasing, h.two_le⟩
      · exact ⟨h.increasing.take, fun column hMem => h.two_le column (List.mem_of_mem_take hMem)⟩

/-- What the list items are told: a line, or that a directive ends them all. -/
inductive Input where
  | line (content : Text)
  | reset

/-- The items that are open after an input. -/
def take (list : ListColumns) : Input → ListColumns
  | .line content => (list.next content).2
  | .reset => {}

def after (inputs : List Input) : ListColumns := inputs.foldl take {}

/-- The columns of open items increase, whatever came before. -/
theorem isOrdered_after (inputs : List Input) : (after inputs).IsOrdered := by
  have hRun : ∀ list : ListColumns, list.IsOrdered → (inputs.foldl take list).IsOrdered := by
    induction inputs with
    | nil => exact fun _ h => h
    | cons input rest ih =>
        intro list h
        refine ih _ ?_
        cases input with
        | line content => exact h.next content
        | reset => exact isOrdered_new
  exact hRun {} isOrdered_new

/-- A line with text in it belongs to a list item exactly if it opens one or is indented to the content
of one that is open. -/
theorem next_iff (hBlank : Text.isBlankText line = false) :
    (list.next line).1 = true ↔
      (listItemColumn? line).isSome = true ∨
        ∃ column ∈ list.columns, column ≤ leadingSpaces line := by
  have hDeeper : 0 < (list.columns.filter (· ≤ leadingSpaces line)).length ↔
      ∃ column ∈ list.columns, column ≤ leadingSpaces line := by
    rw [List.length_pos_iff_exists_mem]
    simp only [List.mem_filter, decide_eq_true_eq]
  rw [← hDeeper, ListColumns.next, hBlank]
  cases hItem : listItemColumn? line with
  | some item => simp
  | none =>
      simp only [Bool.false_eq_true, if_false, Option.isSome_none, false_or]
      split
      · next hNone => simp [hNone.1]
      · simp

/-- Text at the start of a line belongs to a list item only if it opens one. -/
theorem IsOrdered.next_of_start (h : list.IsOrdered) (hBlank : Text.isBlankText line = false)
    (hStart : leadingSpaces line = 0) : (list.next line).1 = (listItemColumn? line).isSome := by
  have hNone : ¬∃ column ∈ list.columns, column ≤ leadingSpaces line := by
    rintro ⟨column, hMem, hLe⟩
    have hTwo := h.two_le column hMem
    omega
  rw [Bool.eq_iff_iff, next_iff hBlank, or_iff_left hNone]

end ListColumns

/-- The block that a directive line starts, if it is a leaf or the opening of a container. -/
def Mark.ofLine? : BlockLine → Option Mark
  | .leaf directive => some (.leaf directive)
  | .opening _ directive => some (.opening directive)
  | .closing _ => none

/-- The leaves and containers that lines start, in order. -/
def startedBlocks (entries : List (Option BlockLine × Text)) : List Mark :=
  entries.filterMap fun entry => entry.1.bind Mark.ofLine?

def Section.blocks (sections : List Section) : List Mark :=
  ((piecesAll sections).filterMap Piece.mark?).filter fun mark => !mark.isClosing

/-- The marks of lines, closing ones apart, are the blocks that the lines start. -/
theorem filter_markLines (opened : List Nat) (entries : List (Option BlockLine × Text)) :
    ((markLines opened entries).filterMap Prod.fst).filter (fun mark => !mark.isClosing) =
      startedBlocks entries := by
  induction entries generalizing opened with
  | nil => rfl
  | cons entry rest ih =>
      obtain ⟨_ | line, content⟩ := entry
      · exact ih opened
      · cases line with
        | leaf directive => exact congrArg (Mark.leaf directive :: ·) (ih opened)
        | opening colons directive => exact congrArg (Mark.opening directive :: ·) (ih _)
        | closing colons =>
            have hStarted : startedBlocks ((some (.closing colons), content) :: rest) =
                startedBlocks rest := rfl
            rw [hStarted]
            cases opened with
            | nil => exact ih []
            | cons innermost outer =>
                rw [markLines, Mark.next]
                split
                · exact ih outer
                · exact ih (innermost :: outer)

/-- The leaves and containers of a source are those that its lines start. -/
theorem Section.blocks_split (source : Text) :
    blocks (split source) = startedBlocks (scanLines {} (Text.lines source)) := by
  rw [blocks, marks_split, markedLines, filter_markLines]

/-- A directive at the start of a line starts with a colon. -/
theorem exists_colon_of_read? {line : Text} {directive : BlockLine}
    (hRead : BlockLine.read? line = some directive) (hStart : leadingSpaces line = 0) :
    ∃ rest, line = ':' :: rest := by
  cases line with
  | nil => cases hRead
  | cons c rest =>
      by_cases hColon : c = ':'
      · exact ⟨rest, by rw [hColon]⟩
      · have hSpace : c ≠ ' ' := by
          rintro rfl
          cases hStart
        rw [BlockLine.read?_of_head hSpace hColon] at hRead
        cases hRead

/-- Outside fenced code a directive at the start of a line is read, whatever lines came before it, and
the lines after it are read as if they were the first. -/
theorem scanLines_of_start {before : List Text} {line : Text} {directive : BlockLine}
    (hFence : (LineScanner.after {} before).fence = none) (hStart : leadingSpaces line = 0)
    (hRead : BlockLine.read? line = some directive) (rest : List Text) :
    scanLines {} (before ++ line :: rest) =
      scanLines {} before ++ (some directive, line) :: scanLines {} rest := by
  obtain ⟨more, rfl⟩ := exists_colon_of_read? hRead hStart
  have hNeutral : (LineScanner.after {} before).IsNeutral :=
    ⟨hFence, LineScanner.allPositive_after LineScanner.isNeutral_new.list _⟩
  rw [scanLines_append, scanLines, hNeutral.next hRead]

/-- After any sequence of lines and resets the content columns of the open list items increase and are
at least two, so that cutting them off after the number of those that a line is indented to keeps just
these. A line with text in it belongs to a list item exactly if it opens one or is indented to the
content of an open one, and text at the start of a line only if it opens one. So outside fenced code
every leaf and every opening at the start of a line is a block of its source, between the blocks of the
lines before it and those of the lines after it. -/
theorem openItems_ordered :
    (∀ inputs : List ListColumns.Input,
      let list := ListColumns.after inputs
      list.columns.Pairwise (· < ·) ∧ (∀ column ∈ list.columns, 2 ≤ column) ∧
      (∀ column, list.columns.take (list.columns.filter (· ≤ column)).length =
        list.columns.filter (· ≤ column)) ∧
      (∀ line, Text.isBlankText line = false →
        ((list.next line).1 = true ↔ (listItemColumn? line).isSome = true ∨
          ∃ column ∈ list.columns, column ≤ leadingSpaces line)) ∧
      ∀ line, Text.isBlankText line = false → leadingSpaces line = 0 →
        (list.next line).1 = (listItemColumn? line).isSome) ∧
    ∀ (source : Text) (before rest : List Text) (line : Text) (directive : BlockLine) (mark : Mark),
      Text.lines source = before ++ line :: rest → (LineScanner.after {} before).fence = none →
      leadingSpaces line = 0 → BlockLine.read? line = some directive →
      Mark.ofLine? directive = some mark →
        Section.blocks (Section.split source) =
          startedBlocks (scanLines {} before) ++ mark :: startedBlocks (scanLines {} rest) := by
  refine ⟨fun inputs => ?_, ?_⟩
  · have hOrdered := ListColumns.isOrdered_after inputs
    exact ⟨hOrdered.increasing, hOrdered.two_le, ListColumns.take_filter_le hOrdered.increasing,
      fun line hBlank => ListColumns.next_iff hBlank, fun line => hOrdered.next_of_start⟩
  · intro source before rest line directive mark hLines hFence hStart hRead hMark
    rw [Section.blocks_split, hLines, scanLines_of_start hFence hStart hRead, startedBlocks,
      List.filterMap_append, List.filterMap_cons_some (by simpa using hMark)]
    rfl

/-- A leaf after a list with an item in an item, while both are still open, and before the opening of a
container. -/
theorem openItems_ordered_nested :
    let before := [text "1. a\n", text "   - b\n", text "c\n"]
    (ListColumns.after (before.map .line)).columns = [3, 5] ∧
      Text.lines (text "1. a\n   - b\nc\n::video\n:::tip\n") =
        before ++ text "::video\n" :: [text ":::tip\n"] ∧
      (LineScanner.after {} before).fence = none ∧ leadingSpaces (text "::video\n") = 0 ∧
      BlockLine.read? (text "::video\n") = some (.leaf ⟨text "video", {}⟩) ∧
      Section.blocks (Section.split (text "1. a\n   - b\nc\n::video\n:::tip\n")) =
        [.leaf ⟨text "video", {}⟩, .opening ⟨text "tip", {}⟩] := by
  intro before
  have hColumns : (ListColumns.after (before.map .line)).columns = [3, 5] := by decide
  have hLines : Text.lines (text "1. a\n   - b\nc\n::video\n:::tip\n") =
      before ++ text "::video\n" :: [text ":::tip\n"] := by decide
  have hFence : (LineScanner.after {} before).fence = none := by decide
  have hRead : BlockLine.read? (text "::video\n") = some (.leaf ⟨text "video", {}⟩) := by cbv
  have hBefore : startedBlocks (scanLines {} before) = [] := by decide +kernel
  have hRest : startedBlocks (scanLines {} [text ":::tip\n"]) = [.opening ⟨text "tip", {}⟩] := by cbv
  have hBlocks := openItems_ordered.2 _ before _ _ _ _ hLines hFence rfl hRead rfl
  rw [hBefore, hRest] at hBlocks
  exact ⟨hColumns, hLines, hFence, rfl, hRead, hBlocks⟩

end DirectiveMarkdown
