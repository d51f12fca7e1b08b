import DirectiveMarkdown.Proofs.Markdown.Readers

/-! What is read off a line stands in the line: its content behind the marks of containers, the text of
a heading, the cells of a table row. -/
namespace DirectiveMarkdown.Markdown

variable {line : Text}

theorem dropWhile_reverse_sublist (p : Char → Bool) (s : Text) :
    (s.reverse.dropWhile p).reverse.Sublist s := by
  have hEnd := List.dropWhile_sublist (l := s.reverse) p
  rwa [← List.reverse_sublist, List.reverse_reverse] at hEnd

theorem dropClosingMarks_sublist (content : Text) : (dropClosingMarks content).Sublist content := by
  have hTrimmed := dropWhile_reverse_sublist isInlineBlank content
  unfold dropClosingMarks
  dsimp only
  split
  · exact List.nil_sublist _
  · split
    · refine List.Sublist.trans ?_ hTrimmed
      exact ((List.dropWhile_sublist _).trans (List.dropWhile_sublist _)).reverse
    · exact hTrimmed

theorem atxHeading?_sublist {level : HeadingLevel} {content : Text}
    (h : atxHeading? line = some (level, content)) : content.Sublist line := by
  unfold atxHeading? at h
  dsimp only at h
  split at h
  · cases h
  · split at h
    · split at h
      · cases h
        exact List.nil_sublist _
      · split at h
        · cases h
          exact (dropClosingMarks_sublist _).trans
            ((List.dropWhile_sublist _).trans (List.dropWhile_sublist _))
        · cases h
    · cases h

/-- The pieces of a row are the row without its pipes. -/
theorem flatten_splitCells_sublist (line : Text) : (splitCells line).flatten.Sublist line := by
  fun_induction splitCells line with
  | case1 => exact List.Sublist.refl _
  | case2 c rest hNil ih =>
      exact ((List.nil_sublist rest).cons_cons c).cons_cons '\\'
  | case3 c rest cell more hCells ih =>
      rw [hCells] at ih
      exact (ih.cons_cons c).cons_cons '\\'
  | case4 rest _ ih => exact ih.cons _
  | case5 c rest _ _ hNil ih => exact (List.nil_sublist rest).cons_cons c
  | case6 c rest _ _ cell more hCells ih =>
      rw [hCells] at ih
      exact ih.cons_cons c

theorem trimCell_sublist (cell : Text) : (trimCell cell).Sublist cell :=
  (dropWhile_reverse_sublist _ _).trans (List.dropWhile_sublist _)

theorem unescapePipes_sublist (cell : Text) : (unescapePipes cell).Sublist cell := by
  fun_induction unescapePipes cell with
  | case1 => exact List.Sublist.refl _
  | case2 rest ih => exact (ih.cons_cons _).cons _
  | case3 c rest _ ih => exact ih.cons_cons _

/-- The pieces of a row stand in it one after the other. -/
theorem flatten_rowPieces_sublist (line : Text) : (rowPieces line).flatten.Sublist line := by
  have hTrimmed := trimCell_sublist line
  unfold rowPieces
  dsimp only
  split
  · next last before hLast =>
      have hPieces : (last :: before).reverse.flatten.Sublist line := by
        rw [← hLast, List.reverse_reverse]
        refine (flatten_splitCells_sublist _).trans ?_
        split
        · next hPipe =>
            rw [hPipe] at hTrimmed
            exact (List.sublist_cons_self ..).trans hTrimmed
        · exact hTrimmed
      split
      · rw [List.reverse_cons, List.flatten_append] at hPieces
        exact (List.sublist_append_left ..).trans hPieces
      · rwa [← hLast, List.reverse_reverse] at hPieces
  · exact List.nil_sublist _

/-- The cells of a row stand in the row, one after the other. -/
theorem flatten_tableCells_sublist (line : Text) : (tableCells line).flatten.Sublist line := by
  refine List.Sublist.trans ?_ (flatten_rowPieces_sublist line)
  unfold tableCells
  induction rowPieces line with
  | nil => exact List.Sublist.refl _
  | cons piece rest ih =>
      exact ((unescapePipes_sublist _).trans (trimCell_sublist piece)).append ih

section Continuing

variable {cursor after : Cursor}

theorem Cursor.advance_sublist (n : Nat) (cursor : Cursor) :
    (cursor.advance n).rest.Sublist cursor.rest :=
  List.drop_sublist n _

/-- Going on with a container takes characters off the line. -/
theorem Frame.continue?_sublist {frame : Frame} (h : frame.continue? cursor = some after) :
    after.rest.Sublist cursor.rest := by
  cases frame with
  | quote start blocks =>
      unfold Frame.continue? at h
      dsimp only at h
      split at h
      · split at h
        · cases h
          exact (Cursor.skip_sublist 1 _).trans
            ((Cursor.advance_sublist 1 _).trans (Cursor.skip_sublist 3 cursor))
        · cases h
      · cases h
  | item list start indent task blocks =>
      unfold Frame.continue? at h
      dsimp only at h
      split at h
      · cases h
        exact Cursor.skip_sublist indent cursor
      · cases h

theorem continued_sublist (frames : List Frame) (cursor : Cursor) :
    (continued frames cursor).2.rest.Sublist cursor.rest := by
  induction frames generalizing cursor with
  | nil => exact List.Sublist.refl _
  | cons frame inner ih =>
      unfold continued
      split
      · next hFrame => exact (ih _).trans (Frame.continue?_sublist hFrame)
      · exact List.Sublist.refl _

theorem readTask_sublist {gfm checked : Bool} (h : readTask gfm cursor = some (checked, after)) :
    after.rest.Sublist cursor.rest := by
  unfold readTask at h
  split at h
  · obtain ⟨⟨marked, rest⟩, -, hEq⟩ := Option.map_eq_some_iff.1 h
    cases hEq
    exact (Cursor.advance_sublist 3 _).trans (Cursor.skip_sublist 3 cursor)
  · cases h

/-- The cells of a table's head stand in the last line of the paragraph. -/
theorem tableStart?_sublist {gfm : Bool} {lines : List Text} {columns : List Alignment}
    {header : List Text} (h : tableStart? gfm lines cursor = some (columns, header)) :
    ∃ first rest, lines = first :: rest ∧ header.flatten.Sublist first := by
  unfold tableStart? at h
  split at h
  · next first rest =>
      refine ⟨first, rest, rfl, ?_⟩
      split at h
      · obtain ⟨alignments, -, hCells⟩ := Option.bind_eq_some_iff.1 h
        dsimp only at hCells
        split at hCells
        · cases hCells
          exact flatten_tableCells_sublist first
        · cases hCells
      · cases h
  · cases h

end Continuing

end DirectiveMarkdown.Markdown
