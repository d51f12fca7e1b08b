import DirectiveMarkdown.Proofs.Section.FencedCode
import DirectiveMarkdown.Proofs.Section.RoundTrip
import DirectiveMarkdown.Proofs.Text.Wrapping

/-! List items and the directives after them. No line of an item holds a directive of the level
outside, but an item can leave code open for the search. It does so whenever fenced code starts
behind the marker: the search looks for fences at the start of lines only, and takes the fence that
closes the code for one that opens it. -/
namespace DirectiveMarkdown

namespace ListColumns

/-- The outermost open item stays open at a line that is indented to its content, or blank. -/
theorem next_of_outermost {list : ListColumns} {column : Nat}
    (hOuter : list.columns.head? = some column) {line : Text}
    (hLine : Text.isBlankText line = true ∨ column ≤ leadingSpaces line) :
    (list.next line).1 = true ∧ (list.next line).2.columns.head? = some column := by
  obtain ⟨columns, afterBlank⟩ := list
  obtain ⟨inner, rfl⟩ := List.head?_eq_some_iff.1 hOuter
  unfold ListColumns.next
  cases hBlank : Text.isBlankText line with
  | true => exact ⟨rfl, rfl⟩
  | false =>
      rw [hBlank] at hLine
      have hColumn : column ≤ leadingSpaces line := hLine.resolve_left Bool.false_ne_true
      have hFilter : (column :: inner).filter (· ≤ leadingSpaces line) =
          column :: inner.filter (· ≤ leadingSpaces line) :=
        List.filter_cons_of_pos (by simpa using hColumn)
      cases listItemColumn? line <;> simp [hFilter]

end ListColumns

namespace CodeFence

variable {fence : CodeFence} {line : Text}

/-- A line that opens a fence for the search opens one of at least three marks, and holds the mark. -/
theorem isFence_of_opening? (h : CodeFence.opening? line = some fence) :
    fence.IsFence ∧ fence.mark ∈ line := by
  unfold CodeFence.opening? at h
  dsimp only at h
  split at h
  · cases h
  · next mark rest hTrim =>
    split at h
    · next hMark =>
        split at h
        · cases h
        · next hLength =>
            cases h
            rw [not_or, Nat.not_lt] at hLength
            refine ⟨⟨hMark, hLength.1⟩, (List.dropWhile_sublist isBlank).subset ?_⟩
            rw [← Text.trimStart, hTrim]
            exact List.mem_cons_self ..
    · cases h

theorem opening?_eq_none (hTick : '\x60' ∉ line) (hTilde : '~' ∉ line) :
    CodeFence.opening? line = none := by
  cases hOpening : CodeFence.opening? line with
  | none => rfl
  | some fence =>
      obtain ⟨hFence, hMem⟩ := isFence_of_opening? hOpening
      rcases hFence.mark with hMark | hMark <;> rw [hMark] at hMem
      · exact absurd hMem hTick
      · exact absurd hMem hTilde

/-- A line closes a fence only if it starts with a mark. -/
theorem IsFence.not_closedBy (h : fence.IsFence)
    (hHead : ∀ c ∈ (Text.trimStart line).head?, c ≠ '\x60' ∧ c ≠ '~') :
    fence.closedBy line = false := by
  have hLength := h.length
  have hNone : (Text.trimStart line).takeWhile (· == fence.mark) = [] := by
    cases hLine : Text.trimStart line with
    | nil => rfl
    | cons c rest =>
        obtain ⟨hTick, hTilde⟩ := hHead c (by rw [hLine]; rfl)
        refine List.takeWhile_cons_of_neg ?_
        rw [beq_iff_eq]
        rintro rfl
        exact h.mark.elim hTick hTilde
  rw [closedBy, hNone, List.length_nil, Bool.and_eq_false_iff, decide_eq_false_iff_not]
  exact .inl (by omega)

end CodeFence

namespace LineScanner

variable {scanner : LineScanner} {line : Text}

theorem isFence_next (h : ∀ fence ∈ scanner.fence, fence.IsFence) (line : Text) :
    ∀ fence ∈ (scanner.next line).2.fence, fence.IsFence := by
  rw [fence_next]
  unfold CodeFence.next
  split
  · next fence hFence =>
      split
      · exact nofun
      · rw [hFence] at h
        exact h
  · exact fun fence hMem => (CodeFence.isFence_of_opening? hMem).1

/-- Whatever was read, an open fence is a proper one. -/
theorem isFence_after (h : ∀ fence ∈ scanner.fence, fence.IsFence) (lines : List Text) :
    ∀ fence ∈ (scanner.after lines).fence, fence.IsFence := by
  induction lines generalizing scanner with
  | nil => exact h
  | cons line lines ih => exact ih (isFence_next h line)

/-- Lines of an item hold no directive, in code or not. -/
theorem next_of_outermost {column : Nat} (hOuter : scanner.list.columns.head? = some column)
    (hLine : Text.isBlankText line = true ∨ column ≤ leadingSpaces line) :
    (scanner.next line).1 = none ∧ (scanner.next line).2.list.columns.head? = some column := by
  obtain ⟨hIn, hNext⟩ := ListColumns.next_of_outermost hOuter hLine
  unfold LineScanner.next
  dsimp only
  split
  · exact ⟨rfl, hOuter⟩
  · exact ⟨rfl, hNext⟩

/-- Lines that are indented as the outermost item is hold no directive. -/
theorem scanLines_of_outermost {column : Nat} (hOuter : scanner.list.columns.head? = some column)
    {lines : List Text}
    (hLines : ∀ line ∈ lines, Text.isBlankText line = true ∨ column ≤ leadingSpaces line) :
    ∀ entry ∈ scanLines scanner lines, entry.1 = none := by
  induction lines generalizing scanner with
  | nil => exact List.forall_mem_nil _
  | cons line lines ih =>
      obtain ⟨hLine, hRest⟩ := List.forall_mem_cons.1 hLines
      obtain ⟨hNone, hNext⟩ := next_of_outermost hOuter hLine
      exact List.forall_mem_cons.2 ⟨hNone, ih hNext hRest⟩

end LineScanner

namespace WrittenMarker

variable {marker : WrittenMarker} {content item : Text}

/-- A line of an item is blank or indented to the column of its content. -/
theorem Indents.blank_or_column_le {line written : Text} (h : marker.Indents line written) :
    Text.isBlankText written = true ∨ marker.column ≤ leadingSpaces written := by
  rcases h with rfl | ⟨rfl, rfl⟩
  · refine .inr ?_
    have hSpaces : ∀ c ∈ List.replicate marker.column ' ', (c == ' ') = true := by
      intro c hMem
      rw [List.eq_of_mem_replicate hMem]
      rfl
    rw [leadingSpaces, List.takeWhile_append_of_pos hSpaces, List.length_append,
      List.length_replicate]
    exact Nat.le_add_right ..
  · exact .inl rfl

/-- A line of an item holds spaces apart from its content. -/
theorem Indents.mem {line written : Text} (h : marker.Indents line written) {c : Char}
    (hMem : c ∈ written) : c = ' ' ∨ c ∈ line := by
  rcases h with rfl | ⟨-, rfl⟩
  · exact (List.mem_append.1 hMem).imp_left List.eq_of_mem_replicate
  · exact .inr hMem

/-- A line that starts with a marker opens no fence, whatever stands behind the marker. -/
theorem opening?_print (marker : WrittenMarker) (first : Text) :
    CodeFence.opening? (marker.print ++ first) = none := by
  obtain ⟨c, more, hMark⟩ := marker.isMark.exists_cons
  have hCode := marker.isMark.toNat_of_mem (hMark ▸ List.mem_cons_self ..)
  have hBlank : isBlank c = false := by
    cases hBlank : isBlank c with
    | false => rfl
    | true =>
        have hCodes := toNat_of_isBlank hBlank
        omega
  have hTrim : ∃ rest, Text.trimStart (marker.print ++ first) = c :: rest := by
    refine ⟨more ++ (List.replicate marker.spaces ' ' ++ first), ?_⟩
    rw [print, List.append_assoc, Text.trimStart_replicate, hMark, List.append_assoc]
    exact Text.trimStart_cons hBlank _
  obtain ⟨rest, hTrim⟩ := hTrim
  have hFence : ¬(c = '\x60' ∨ c = '~') := by
    rintro (rfl | rfl) <;> exact absurd hCode (by decide)
  rw [CodeFence.opening?, hTrim]
  exact if_neg hFence

/-- The line with the marker opens the item. -/
theorem next_print (marker : WrittenMarker) {c : Char} (hContent : isBlank c = false) (rest : Text) :
    LineScanner.next {} (marker.print ++ c :: rest) = (none, ⟨none, ⟨[marker.column], false⟩⟩) := by
  have hFence : CodeFence.next none (marker.print ++ c :: rest) = (false, none) := by
    rw [CodeFence.next, opening?_print]
    rfl
  have hBlank : Text.isBlankText (marker.print ++ c :: rest) = false := by
    simp [Text.isBlankText, hContent]
  have hList : ListColumns.next {} (marker.print ++ c :: rest) =
      (true, ⟨[marker.column], false⟩) := by
    rw [ListColumns.next, hBlank, marker.listItemColumn?_print hContent]
    rfl
  rw [LineScanner.next, hFence, hList]
  rfl

/-- An item is not white space alone, and no line of it holds a directive. -/
theorem Wraps.scanLines_eq_none (h : marker.Wraps content item)
    (hContent : ∃ c ∈ content.head?, isBlank c = false) :
    Text.isBlankText item = false ∧
      ∀ entry ∈ scanLines {} (Text.lines item), entry.1 = none := by
  obtain ⟨first, rest, others, hLines, hOthers, hItem, -⟩ := h.exists_lines
  obtain ⟨c, hHead, hBlank⟩ := hContent
  rw [Text.head?_of_lines_eq_cons hLines] at hHead
  obtain ⟨more, rfl⟩ := List.head?_eq_some_iff.1 hHead
  have hIndented : ∀ line ∈ others,
      Text.isBlankText line = true ∨ marker.column ≤ leadingSpaces line := by
    intro line hMem
    obtain ⟨i, hIndex, rfl⟩ := List.getElem_of_mem hMem
    have hLength := hOthers.length_eq
    exact (hOthers.get (hLength ▸ hIndex) hIndex).blank_or_column_le
  constructor
  · refine Text.not_isBlankText_of_mem_lines (by rw [hItem]; exact List.mem_cons_self ..) ?_
    simp [Text.isBlankText, hBlank]
  · rw [hItem, scanLines, marker.next_print hBlank]
    exact List.forall_mem_cons.2 ⟨rfl, LineScanner.scanLines_of_outermost rfl hIndented⟩

end WrittenMarker

def fencedLines (body : List Text) : List Text :=
  text "\x60\x60\x60\n" :: ((body.map fun line => line ++ ['\n']) ++ [text "\x60\x60\x60\n"])

/-- Fenced lines are the lines of their text. -/
theorem lines_flatten_fencedLines {body : List Text} (hBody : ∀ line ∈ body, '\n' ∉ line) :
    Text.lines (fencedLines body).flatten = fencedLines body := by
  have hFence : '\n' ∉ text "\x60\x60\x60" := by decide
  have hRest : Text.AreLines ((body.map fun line => line ++ ['\n']) ++ [text "\x60\x60\x60\n"]) := by
    induction body with
    | nil => exact .cons hFence .nil
    | cons line body ih =>
        obtain ⟨hLine, hRest⟩ := List.forall_mem_cons.1 hBody
        exact .cons hLine (ih hRest)
  exact (Text.AreLines.cons hFence hRest).lines_flatten

namespace WrittenMarker

variable {marker : WrittenMarker} {item : Text}

/-- The last line of fenced code opens a fence for the search where none is open before it. -/
theorem fence_after_of_none {scanner : LineScanner} (hScanner : scanner.fence = none)
    {body others : List Text} (hBody : ∀ line ∈ body, '\x60' ∉ line ∧ '~' ∉ line)
    (hOthers : List.Forall₂ marker.Indents
      ((body.map fun line => line ++ ['\n']) ++ [text "\x60\x60\x60\n"]) others) :
    (scanner.after others).fence = some ⟨'\x60', 3⟩ := by
  induction body generalizing scanner others with
  | nil =>
      obtain ⟨written, _, hWritten, hNil, rfl⟩ := List.forall₂_cons_left_iff.1 hOthers
      cases hNil
      rcases hWritten with rfl | ⟨hEmpty, -⟩
      · have hTrim : Text.trimStart (List.replicate marker.column ' ' ++ text "\x60\x60\x60\n") =
            text "\x60\x60\x60\n" := Text.trimStart_replicate ..
        rw [LineScanner.after, List.foldl_cons, List.foldl_nil, LineScanner.fence_next, hScanner,
          CodeFence.next, CodeFence.opening?, hTrim]
        rfl
      · cases hEmpty
  | cons line body ih =>
      obtain ⟨written, rest, hWritten, hRest, rfl⟩ := List.forall₂_cons_left_iff.1 hOthers
      obtain ⟨hLine, hBody⟩ := List.forall_mem_cons.1 hBody
      refine @ih (scanner.next written).2 ?_ rest hBody hRest
      have hNotMem : ∀ c, c ≠ ' ' → c ≠ '\n' → c ∉ line → c ∉ written := by
        intro c hSpace hNewline hLine hMem
        have hCases := hWritten.mem hMem
        simp [hSpace, hNewline, hLine] at hCases
      have hNone : CodeFence.opening? written = none :=
        CodeFence.opening?_eq_none (hNotMem _ (by decide) (by decide) hLine.1)
          (hNotMem _ (by decide) (by decide) hLine.2)
      rw [LineScanner.fence_next, hScanner, CodeFence.next, hNone]

/-- Fenced code that starts behind the marker of an item is open for the search at the end of the
item, if no line of the code could open a fence. -/
theorem Wraps.fence_of_fencedLines {body : List Text}
    (h : marker.Wraps (fencedLines body).flatten item)
    (hBody : ∀ line ∈ body, '\n' ∉ line ∧ '\x60' ∉ line ∧ '~' ∉ line) :
    (LineScanner.after {} (Text.lines item)).fence = some ⟨'\x60', 3⟩ := by
  obtain ⟨first, rest, others, hLines, hOthers, hItem, -⟩ := h.exists_lines
  rw [lines_flatten_fencedLines fun line hMem => (hBody line hMem).1, fencedLines] at hLines
  obtain ⟨rfl, rfl⟩ := List.cons.inj hLines
  rw [hItem, LineScanner.after, List.foldl_cons]
  refine fence_after_of_none ?_ (fun line hMem => (hBody line hMem).2) hOthers
  have hTick : isBlank '\x60' = false := rfl
  exact congrArg (·.2.fence) (marker.next_print hTick (text "\x60\x60\n"))

end WrittenMarker

theorem LineScanner.next_emptyLine (scanner : LineScanner) : (scanner.next ['\n']).1 = none := by
  unfold LineScanner.next
  dsimp only
  split
  · rfl
  · split <;> rfl

theorem BlockLine.print_leaf_name (name : Text) :
    (BlockLine.leaf ⟨name, {}⟩).print = text "::" ++ name :=
  congrArg (text "::" ++ ·) (List.append_nil name)

theorem DirectiveBody.printable_name {name : Text} (h : isDirectiveName name = true) :
    DirectiveBody.Printable ⟨name, {}⟩ := by
  have hArguments : Arguments.Printable {} := by
    refine ⟨by decide, by decide, ?_, by decide⟩
    intro entry hMem
    cases hMem
  exact ⟨h, hArguments⟩

namespace Section

/-- Plain Markdown and a directive after it. -/
theorem split_plain_leaf {source : Text} (hPlain : IsPlain source)
    (hBlank : Text.isBlankText source = false) {directive : DirectiveBody}
    (hDirective : directive.Printable) :
    split (source ++ ((BlockLine.leaf directive).print ++ ['\n'])) =
      [.markdown source, .leaf directive] := by
  have hNeutral : (LineScanner.after {} (Text.lines source)).IsNeutral :=
    ⟨hPlain.fence, LineScanner.allPositive_after LineScanner.isNeutral_new.list _⟩
  have hLine : (BlockLine.leaf directive).Printable := hDirective
  have hSplit : split (source ++ ((BlockLine.leaf directive).print ++ ['\n'])) =
      (resume {} ⟨.document, []⟩ (source ++ ((BlockLine.leaf directive).print ++ ['\n']))).finish :=
    rfl
  have hAdds := (OpenSection.adds_markdown (show OpenSection.document.pending = [] from rfl)
    hBlank).cons (OpenSection.adds_push _ (.leaf directive))
  have hContent := hAdds.content
  rw [hSplit, resume_markdown hPlain, resume_directive hNeutral hLine]
  exact congrArg List.reverse hContent

/-- Markdown that leaves code open hides what comes after it until the code is closed. -/
theorem split_of_fence {source rest : Text} (hEnded : source.getLast? = some '\n')
    (hBlank : Text.isBlankText source = false)
    (hNone : ∀ entry ∈ scanLines {} (Text.lines source), entry.1 = none) {fence : CodeFence}
    (hFence : (LineScanner.after {} (Text.lines source)).fence = some fence)
    (hRest : ∀ line ∈ Text.lines rest, fence.closedBy line = false) :
    split (source ++ rest) = [.markdown (source ++ rest)] := by
  have hAfter : LineScanner.after {} (Text.lines source) =
      ⟨some fence, (LineScanner.after {} (Text.lines source)).list⟩ := by
    rw [← hFence]
  have hCode := scanLines_in_fence hRest (LineScanner.after {} (Text.lines source)).list []
  rw [List.append_nil, scanLines, List.append_nil] at hCode
  rw [split_eq_run_iff, Text.lines_append hEnded, scanLines_append, hAfter, hCode]
  exact ⟨Text.not_isBlankText_append hBlank rest, holdsNoDirective_append.2
    ⟨holdsNoDirective_of_none hNone, holdsNoDirective_map_none _⟩⟩

section EmptyLine

variable {source : Text} {directive : DirectiveBody}

/-- After lines without directives that leave no code open, an empty line and a directive are read
as what they are. -/
theorem split_emptyLine_leaf (hEnded : source.getLast? = some '\n')
    (hBlank : Text.isBlankText source = false)
    (hNone : ∀ entry ∈ scanLines {} (Text.lines source), entry.1 = none)
    (hFence : (LineScanner.after {} (Text.lines source)).fence = none)
    (hDirective : directive.Printable) :
    split (source ++ '\n' :: ((BlockLine.leaf directive).print ++ ['\n'])) =
      [.markdown (source ++ ['\n']), .leaf directive] := by
  have hLines : Text.lines (source ++ ['\n']) = Text.lines source ++ [['\n']] :=
    Text.lines_append hEnded ['\n']
  have hPlain : IsPlain (source ++ ['\n']) := by
    refine ⟨by simp, ?_, ?_⟩
    · rw [hLines, scanLines_append, List.forall_mem_append]
      exact ⟨hNone, List.forall_mem_singleton.2 (LineScanner.next_emptyLine _)⟩
    · rw [hLines, LineScanner.after, List.foldl_append, List.foldl_cons, List.foldl_nil,
        LineScanner.fence_next]
      exact congrArg (fun fence => (CodeFence.next fence ['\n']).2) hFence
  rw [List.append_cons]
  exact split_plain_leaf hPlain (Text.not_isBlankText_append hBlank ['\n']) hDirective

/-- If they leave code open, neither the empty line nor the directive closes it. -/
theorem split_emptyLine_hidden (hEnded : source.getLast? = some '\n')
    (hBlank : Text.isBlankText source = false)
    (hNone : ∀ entry ∈ scanLines {} (Text.lines source), entry.1 = none) {fence : CodeFence}
    (hFence : (LineScanner.after {} (Text.lines source)).fence = some fence)
    (hDirective : directive.Printable) :
    split (source ++ '\n' :: ((BlockLine.leaf directive).print ++ ['\n'])) =
      [.markdown (source ++ '\n' :: ((BlockLine.leaf directive).print ++ ['\n']))] := by
  have hIsFence : fence.IsFence := LineScanner.isFence_after (by rintro _ ⟨⟩) _ fence hFence
  have hLeaf : (BlockLine.leaf directive).Printable := hDirective
  obtain ⟨rest, hPrint, hNewline⟩ := hLeaf.exists_cons
  have hLines : Text.lines ('\n' :: ((BlockLine.leaf directive).print ++ ['\n'])) =
      [['\n'], (BlockLine.leaf directive).print ++ ['\n']] :=
    congrArg (['\n'] :: ·) (Text.lines_append_newline hNewline [])
  refine split_of_fence hEnded hBlank hNone hFence ?_
  rw [hLines, List.forall_mem_cons, List.forall_mem_singleton]
  constructor
  · refine hIsFence.not_closedBy ?_
    rintro _ ⟨⟩
  · refine hIsFence.not_closedBy ?_
    rw [hPrint]
    rintro _ ⟨⟩
    decide

end EmptyLine

/-- An item, an empty line and a directive: the directive is found exactly if the item leaves no
code open for the search. An item of fenced code that starts behind its marker always does. -/
theorem split_item_leaf {marker : WrittenMarker} {content item name : Text}
    (hWraps : marker.Wraps content item) (hEnded : item.getLast? = some '\n')
    (hContent : ∃ c ∈ content.head?, isBlank c = false) (hName : isDirectiveName name = true) :
    (split (item ++ text "\n::" ++ name ++ ['\n']) =
        [.markdown (item ++ ['\n']), .leaf ⟨name, {}⟩] ↔
      (LineScanner.after {} (Text.lines item)).fence = none) ∧
    (∀ body : List Text, content = (fencedLines body).flatten →
      (∀ line ∈ body, '\n' ∉ line ∧ '\x60' ∉ line ∧ '~' ∉ line) →
      split (item ++ text "\n::" ++ name ++ ['\n']) =
        [.markdown (item ++ text "\n::" ++ name ++ ['\n'])]) := by
  obtain ⟨hBlank, hNone⟩ := hWraps.scanLines_eq_none hContent
  have hDirective := DirectiveBody.printable_name hName
  have hText : item ++ text "\n::" ++ name ++ ['\n'] =
      item ++ '\n' :: ((BlockLine.leaf ⟨name, {}⟩).print ++ ['\n']) := by
    rw [BlockLine.print_leaf_name]
    simp only [List.append_assoc]
    rfl
  rw [hText]
  refine ⟨⟨?_, fun hFence => ?_⟩, ?_⟩
  · intro hSplit
    cases hFence : (LineScanner.after {} (Text.lines item)).fence with
    | none => rfl
    | some fence =>
        rw [split_emptyLine_hidden hEnded hBlank hNone hFence hDirective] at hSplit
        cases congrArg List.length hSplit
  · exact split_emptyLine_leaf hEnded hBlank hNone hFence hDirective
  · rintro body rfl hBody
    have hFence := hWraps.fence_of_fencedLines hBody
    exact split_emptyLine_hidden hEnded hBlank hNone hFence hDirective

/-- A directive after an item that holds code on lines of its own. -/
theorem split_item_leaf_video :
    let marker : WrittenMarker :=
      { indent := 1, mark := ['2', '.'], spaces := 1, indent_le := by decide
        isMark := @IsListMark.number ['2'] '.' (List.forall_mem_singleton.2 rfl) (by decide) (by decide)
          (.inl rfl)
        spaces_pos := by decide, spaces_le := by decide }
    let content := text "x\n\n\x60\x60\x60\n::a\n\x60\x60\x60\n"
    let item := text " 2. x\n\n    \x60\x60\x60\n    ::a\n    \x60\x60\x60\n"
    marker.Wraps content item ∧ item.getLast? = some '\n' ∧
      (∃ c ∈ content.head?, isBlank c = false) ∧ isDirectiveName (text "video") = true ∧
      split (item ++ text "\n::" ++ text "video" ++ ['\n']) =
        [.markdown (item ++ ['\n']), .leaf ⟨text "video", {}⟩] := by
  intro marker content item
  have hWraps : marker.Wraps content item := by
    refine ⟨text "x\n", _, [text "\n", text "    \x60\x60\x60\n", text "    ::a\n",
      text "    \x60\x60\x60\n"], rfl, ?_, rfl⟩
    exact .cons (.inr ⟨rfl, rfl⟩) (.cons (.inl rfl) (.cons (.inl rfl) (.cons (.inl rfl) .nil)))
  have hContent : ∃ c ∈ content.head?, isBlank c = false := ⟨'x', rfl, rfl⟩
  have hName : isDirectiveName (text "video") = true := by decide
  exact ⟨hWraps, rfl, hContent, hName, (split_item_leaf hWraps rfl hContent hName).1.2 (by decide)⟩

/-- The code of the item is closed, but the directive after it is not found. -/
theorem split_item_leaf_hidden :
    ¬∀ (body : List Text) (name : Text),
      (∀ line ∈ body, '\n' ∉ line ∧ '\x60' ∉ line ∧ '~' ∉ line) → isDirectiveName name = true →
      let item := text "- \x60\x60\x60\n" ++
        (body.flatMap fun line => text "  " ++ line ++ ['\n']) ++ text "  \x60\x60\x60\n"
      split (item ++ text "\n::" ++ name ++ ['\n']) =
        [.markdown (item ++ ['\n']), .leaf ⟨name, {}⟩] := by
  intro hClaim
  have hSplit := hClaim [text "x"] (text "video") (by decide) (by decide)
  have hRun : split (text "- \x60\x60\x60\n  x\n  \x60\x60\x60\n\n::video\n") =
      [.markdown (text "- \x60\x60\x60\n  x\n  \x60\x60\x60\n\n::video\n")] := by cbv
  cases congrArg List.length (hRun.symm.trans hSplit)

end Section

end DirectiveMarkdown
