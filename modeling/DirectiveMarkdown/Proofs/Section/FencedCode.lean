import Mathlib
import DirectiveMarkdown.Markdown.Marker
import DirectiveMarkdown.Proofs.Section.OneRun
import DirectiveMarkdown.Proofs.Text.Lines

/-! Fenced code on the lines of a source. Markdown and the search for directives each decide for
themselves where code ends. A line that opens or closes a fence for Markdown does so for the search
as well, but the search also takes lines for closing ones whose indentation or white space makes
them code for Markdown. What follows such a line is read for directives although it is code. -/
namespace DirectiveMarkdown

open Markdown

namespace Text

def isLineEnd (c : Char) : Bool := c == '\n' || c == '\r'

def withoutEnding (line : Text) : Text := (line.reverse.dropWhile isLineEnd).reverse

theorem exists_ending (line : Text) :
    ∃ ending, line = withoutEnding line ++ ending ∧ ∀ c ∈ ending, isLineEnd c = true := by
  refine ⟨(line.reverse.takeWhile isLineEnd).reverse, ?_, ?_⟩
  · rw [withoutEnding, ← List.reverse_append, List.takeWhile_append_dropWhile, List.reverse_reverse]
  · intro c hMem
    exact List.all_eq_true.1 List.all_takeWhile c (List.mem_reverse.1 hMem)

theorem isBlank_of_isLineEnd {c : Char} (h : isLineEnd c = true) : isBlank c = true := by
  simp only [isLineEnd, Bool.or_eq_true, beq_iff_eq] at h
  rcases h with rfl | rfl <;> rfl

theorem isBlank_of_isInlineBlank {c : Char} (h : isInlineBlank c = true) : isBlank c = true := by
  simp only [isInlineBlank, Bool.or_eq_true, beq_iff_eq] at h
  rcases h with rfl | rfl <;> rfl

end Text

namespace CodeFence

/-- What Markdown reads of a line that may open or close fenced code: the line without its ending
and without its indentation, which is at most three spaces. -/
def atMargin? (line : Text) : Option Text :=
  if leadingSpaces line ≤ 3 then some (Text.withoutEnding (line.drop (leadingSpaces line)))
  else none

/-- Markdown has the line open the fence. -/
def IsOpenedBy (fence : CodeFence) (line : Text) : Prop :=
  ∃ body marker, atMargin? line = some body ∧ fenceMarker? body = some marker ∧
    fence = ⟨marker.mark, marker.length⟩

/-- Markdown has the line close the fence. -/
def isClosedBy (fence : CodeFence) (line : Text) : Bool :=
  (atMargin? line).any (closesFence fence.mark fence.length)

/-- A fence as lines can open it. -/
structure IsFence (fence : CodeFence) : Prop where
  mark : fence.mark = '\x60' ∨ fence.mark = '~'
  length : 3 ≤ fence.length

variable {fence : CodeFence} {line body : Text}

theorem IsFence.not_isBlank (h : fence.IsFence) : isBlank fence.mark = false := by
  rcases h.mark with hMark | hMark <;> rw [hMark] <;> rfl

/-- The marks that a line starts with are those before its ending. -/
theorem IsFence.marks_append (h : fence.IsFence) (body : Text) {ending : Text}
    (hEnding : ∀ c ∈ ending, Text.isLineEnd c = true) :
    (body ++ ending).takeWhile (· == fence.mark) = body.takeWhile (· == fence.mark) ∧
      (body ++ ending).dropWhile (· == fence.mark) =
        body.dropWhile (· == fence.mark) ++ ending := by
  have hStop : ∀ c ∈ ending, ¬(c == fence.mark) = true := by
    intro c hMem hMark
    have hBlank := Text.isBlank_of_isLineEnd (hEnding c hMem)
    rw [eq_of_beq hMark, h.not_isBlank] at hBlank
    cases hBlank
  induction body with
  | nil =>
      cases ending with
      | nil => exact ⟨rfl, rfl⟩
      | cons c rest =>
          have hHead := hStop c (List.mem_cons_self ..)
          exact ⟨List.takeWhile_cons_of_neg hHead, List.dropWhile_cons_of_neg hHead⟩
  | cons c body ih =>
      rw [List.cons_append, List.takeWhile_cons, List.takeWhile_cons, List.dropWhile_cons,
        List.dropWhile_cons, ih.1, ih.2]
      cases c == fence.mark <;> exact ⟨rfl, rfl⟩

/-- A line that starts with a mark at the margin starts with it for the search as well. -/
theorem trimStart_of_atMargin? (h : atMargin? line = some body) {c : Char} {more : Text}
    (hBody : body = c :: more) (hBlank : isBlank c = false) :
    ∃ ending, Text.trimStart line = body ++ ending ∧ ∀ d ∈ ending, Text.isLineEnd d = true := by
  unfold atMargin? at h
  split at h
  · obtain ⟨ending, hRest, hEnding⟩ := Text.exists_ending (line.drop (leadingSpaces line))
    have hSpaces : ∀ d ∈ line.takeWhile (· == ' '), isBlank d = true := by
      intro d hMem
      have hSpace : d = ' ' := by simpa using List.all_eq_true.1 List.all_takeWhile d hMem
      rw [hSpace]
      rfl
    rw [Option.some.inj h] at hRest
    refine ⟨ending, ?_, hEnding⟩
    rw [leadingSpaces, drop_length_takeWhile] at hRest
    have hLine := List.takeWhile_append_dropWhile (p := (· == ' ')) (l := line)
    rw [Text.trimStart, ← hLine, List.dropWhile_append_of_pos hSpaces, hRest, hBody]
    exact Text.trimStart_cons hBlank (more ++ ending)
  · cases h

/-- What a fence is that a line of Markdown opens. -/
theorem marks_of_fenceMarker? {marker : FenceMarker} (h : fenceMarker? body = some marker) :
    (∃ more, body = marker.mark :: more) ∧ IsFence ⟨marker.mark, marker.length⟩ ∧
      marker.length = (body.takeWhile (· == marker.mark)).length ∧
      ¬(marker.mark = '\x60' ∧ (body.dropWhile (· == marker.mark)).contains marker.mark) := by
  unfold fenceMarker? at h
  split at h
  · next mark more =>
    split at h
    · next hMark =>
        dsimp only at h
        split at h
        · next hInfo =>
            cases h
            exact ⟨⟨more, rfl⟩, ⟨hMark, hInfo.1⟩, rfl, hInfo.2⟩
        · cases h
    · cases h
  · cases h

/-- Only proper fences are opened. -/
theorem IsOpenedBy.isFence (h : fence.IsOpenedBy line) : fence.IsFence := by
  obtain ⟨body, marker, -, hMarker, rfl⟩ := h
  exact (marks_of_fenceMarker? hMarker).2.1

/-- The search sees every fence that Markdown has opened. -/
theorem IsOpenedBy.opening? (h : fence.IsOpenedBy line) : opening? line = some fence := by
  obtain ⟨body, ⟨mark, length, info⟩, hMargin, hMarker, rfl⟩ := h
  obtain ⟨⟨more, rfl⟩, hFence, hLength, hInfo⟩ := marks_of_fenceMarker? hMarker
  dsimp only at hFence hLength hInfo hMargin
  obtain ⟨ending, hTrim, hEnding⟩ := trimStart_of_atMargin? hMargin rfl hFence.not_isBlank
  obtain ⟨hTake, hDrop⟩ := hFence.marks_append (mark :: more) hEnding
  dsimp only at hTake hDrop
  have hEnd : mark ∉ ending := by
    intro hMem
    have hBlank := Text.isBlank_of_isLineEnd (hEnding mark hMem)
    rw [hFence.not_isBlank] at hBlank
    cases hBlank
  have hContains : ((mark :: more).dropWhile (· == mark) ++ ending).contains mark =
      ((mark :: more).dropWhile (· == mark)).contains mark := by
    simp [hEnd]
  have hNext : ¬(length < 3 ∨
      mark = '\x60' ∧ ((mark :: more).dropWhile (· == mark)).contains mark = true) := by
    rintro (hShort | hTick)
    · have hLeast : 3 ≤ length := hFence.length
      omega
    · exact hInfo hTick
  rw [List.cons_append] at hTrim hTake hDrop
  rw [CodeFence.opening?, hTrim]
  dsimp only
  rw [if_pos hFence.mark, drop_length_takeWhile, hTake, hDrop, hContains, ← hLength, if_neg hNext]

/-- The search sees every fence that Markdown has closed. -/
theorem IsFence.closedBy_of_isClosedBy (hFence : fence.IsFence) (h : fence.isClosedBy line = true) :
    fence.closedBy line = true := by
  unfold isClosedBy at h
  cases hMargin : atMargin? line with
  | none => rw [hMargin] at h; cases h
  | some body =>
      rw [hMargin, Option.any_some, closesFence, Bool.and_eq_true, decide_eq_true_eq] at h
      obtain ⟨hMarks, hRest⟩ := h
      have hLength := hFence.length
      cases body with
      | nil =>
          rw [List.takeWhile_nil, List.length_nil] at hMarks
          omega
      | cons c more =>
          have hMark : (c == fence.mark) = true := by
            cases hOther : c == fence.mark with
            | true => rfl
            | false =>
                rw [List.takeWhile_cons_of_neg (by simp [hOther]), List.length_nil] at hMarks
                omega
          have hHead : isBlank c = false := by
            rw [eq_of_beq hMark]
            exact hFence.not_isBlank
          obtain ⟨ending, hTrim, hEnding⟩ := trimStart_of_atMargin? hMargin rfl hHead
          obtain ⟨hTake, hDrop⟩ := hFence.marks_append (c :: more) hEnding
          have hBlank : Text.isBlankText ((c :: more).dropWhile (· == fence.mark) ++ ending) =
              true := by
            rw [Text.isBlankText, List.all_eq_true]
            intro d hMem
            rcases List.mem_append.1 hMem with hMem | hMem
            · exact Text.isBlank_of_isInlineBlank (List.all_eq_true.1 hRest d hMem)
            · exact Text.isBlank_of_isLineEnd (hEnding d hMem)
          rw [closedBy, hTrim, drop_length_takeWhile, hTake, hDrop, hBlank, Bool.and_true, decide_eq_true_eq]
          exact hMarks

end CodeFence

namespace LineScanner

variable {fence : CodeFence} {list : ListColumns} {line : Text}

/-- A line inside fenced code holds no directive, and leaves the list items as they are. -/
theorem next_of_fence (fence : CodeFence) (list : ListColumns) (line : Text) :
    LineScanner.next ⟨some fence, list⟩ line =
      (none, ⟨if fence.closedBy line then none else some fence, list⟩) := by
  cases hClosed : fence.closedBy line <;> simp [LineScanner.next, CodeFence.next, hClosed]

/-- A line that opens a fence holds no directive. -/
theorem next_of_opening? (h : CodeFence.opening? line = some fence) (list : ListColumns) :
    LineScanner.next ⟨none, list⟩ line = (none, ⟨some fence, list⟩) := by
  simp [LineScanner.next, CodeFence.next, h]

end LineScanner

/-- A line that opens a fence is not white space alone. -/
theorem CodeFence.not_isBlankText_of_opening? {fence : CodeFence} {line : Text}
    (h : CodeFence.opening? line = some fence) : Text.isBlankText line = false := by
  cases hBlank : Text.isBlankText line with
  | false => rfl
  | true =>
      have hTrim : (line ++ []).dropWhile isBlank = [] :=
        List.dropWhile_append_of_pos (List.all_eq_true.1 hBlank)
      rw [List.append_nil] at hTrim
      rw [CodeFence.opening?, Text.trimStart, hTrim] at h
      cases h

/-- Lines that do not close a fence are read as code. -/
theorem scanLines_in_fence {fence : CodeFence} {lines : List Text}
    (h : ∀ line ∈ lines, fence.closedBy line = false) (list : ListColumns) (rest : List Text) :
    scanLines ⟨some fence, list⟩ (lines ++ rest) =
      lines.map (none, ·) ++ scanLines ⟨some fence, list⟩ rest := by
  induction lines with
  | nil => rfl
  | cons line lines ih =>
      obtain ⟨hLine, hLines⟩ := List.forall_mem_cons.1 h
      rw [List.cons_append, scanLines, LineScanner.next_of_fence, hLine]
      exact congrArg ((none, line) :: ·) (ih hLines)

theorem holdsNoDirective_map_none (lines : List Text) : HoldsNoDirective (lines.map (none, ·)) := by
  refine holdsNoDirective_of_none ?_
  intro entry hMem
  obtain ⟨line, -, rfl⟩ := List.mem_map.1 hMem
  rfl

/-- Code with one line that closes its fence, and what comes after it. -/
theorem holdsNoDirective_scanLines_fence {fence : CodeFence} {before : List Text} {line : Text}
    (hBefore : ∀ other ∈ before, fence.closedBy other = false) (hLine : fence.closedBy line = true)
    (list : ListColumns) (rest : List Text) :
    HoldsNoDirective (scanLines ⟨some fence, list⟩ (before ++ line :: rest)) ↔
      HoldsNoDirective (scanLines ⟨none, list⟩ rest) := by
  rw [scanLines_in_fence hBefore, holdsNoDirective_append, scanLines, LineScanner.next_of_fence,
    hLine, holdsNoDirective_cons]
  exact (and_iff_right (holdsNoDirective_map_none before)).trans (and_iff_right rfl)

namespace Section

/-- A fence that Markdown has opened and closed, with code between, is one run of Markdown exactly if
no directive is read after the first line of the code that the search takes for a closing one. It is
so wherever the search agrees with Markdown on the lines of the code. -/
theorem split_fencedCode_iff {source first last : Text} {body : List Text} {fence : CodeFence}
    (hLines : Text.lines source = first :: (body ++ [last])) (hFirst : fence.IsOpenedBy first)
    (hBody : ∀ line ∈ body, fence.isClosedBy line = false)
    (hLast : fence.isClosedBy last = true) :
    (split source = [.markdown source] ↔
      ∀ before line after, body = before ++ line :: after →
        (∀ other ∈ before, fence.closedBy other = false) → fence.closedBy line = true →
        HoldsNoDirective (scanLines {} (after ++ [last]))) ∧
    ((∀ line ∈ body, fence.closedBy line = fence.isClosedBy line) →
      split source = [.markdown source]) := by
  have hFence := hFirst.isFence
  have hClosed : fence.closedBy last = true := hFence.closedBy_of_isClosedBy hLast
  have hNotBlank : Text.isBlankText source = false :=
    Text.not_isBlankText_of_mem_lines (by rw [hLines]; exact List.mem_cons_self ..)
      (CodeFence.not_isBlankText_of_opening? hFirst.opening?)
  have hSplit : split source = [.markdown source] ↔
      HoldsNoDirective (scanLines ⟨some fence, {}⟩ (body ++ [last])) := by
    rw [split_eq_run_iff, hLines, scanLines, LineScanner.next_of_opening? hFirst.opening?,
      holdsNoDirective_cons, and_iff_right hNotBlank]
    exact and_iff_right rfl
  have hCode : (∀ line ∈ body, fence.closedBy line = false) →
      HoldsNoDirective (scanLines ⟨some fence, {}⟩ (body ++ [last])) := fun hOpen =>
    (holdsNoDirective_scanLines_fence hOpen hClosed {} []).2 (List.forall_mem_nil _)
  rw [hSplit]
  refine ⟨⟨?_, ?_⟩, ?_⟩
  · rintro hNone before line after rfl hBefore hLine
    rw [List.append_assoc, List.cons_append] at hNone
    exact (holdsNoDirective_scanLines_fence hBefore hLine {} _).1 hNone
  · intro hEarly
    cases hFind : body.find? fence.closedBy with
    | none => exact hCode (by simpa using List.find?_eq_none.1 hFind)
    | some line =>
        obtain ⟨hLine, before, after, rfl, hOthers⟩ := List.find?_eq_some_iff_append.1 hFind
        have hBefore : ∀ other ∈ before, fence.closedBy other = false := by simpa using hOthers
        rw [List.append_assoc, List.cons_append]
        exact (holdsNoDirective_scanLines_fence hBefore hLine {} _).2
          (hEarly before line after rfl hBefore hLine)
  · intro hAgree
    refine hCode fun line hMem => ?_
    rw [hAgree line hMem]
    exact hBody line hMem

/-- Code with a directive, a shorter run of marks and an opening fence in it. -/
theorem split_fencedCode_tilde :
    let body := [text ":::note\n", text "~~~\n", text "~~~~ b\n"]
    let source := text " ~~~~ a\n:::note\n~~~\n~~~~ b\n~~~~~\n"
    Text.lines source = text " ~~~~ a\n" :: (body ++ [text "~~~~~\n"]) ∧
      CodeFence.IsOpenedBy ⟨'~', 4⟩ (text " ~~~~ a\n") ∧
      (∀ line ∈ body, CodeFence.isClosedBy ⟨'~', 4⟩ line = false) ∧
      CodeFence.isClosedBy ⟨'~', 4⟩ (text "~~~~~\n") = true ∧
      split source = [.markdown source] := by
  intro body source
  have hLines : Text.lines source = text " ~~~~ a\n" :: (body ++ [text "~~~~~\n"]) := by decide
  have hFirst : CodeFence.IsOpenedBy ⟨'~', 4⟩ (text " ~~~~ a\n") :=
    ⟨text "~~~~ a", ⟨'~', 4, text "a"⟩, by decide, rfl, rfl⟩
  have hBody : ∀ line ∈ body, CodeFence.isClosedBy ⟨'~', 4⟩ line = false := by decide
  have hLast : CodeFence.isClosedBy ⟨'~', 4⟩ (text "~~~~~\n") = true := by decide
  have hAgree : ∀ line ∈ body, CodeFence.closedBy ⟨'~', 4⟩ line =
      CodeFence.isClosedBy ⟨'~', 4⟩ line := by decide
  exact ⟨hLines, hFirst, hBody, hLast,
    (split_fencedCode_iff hLines hFirst hBody hLast).2 hAgree⟩

/-- A line that is indented too far to close the code ends it all the same for the search, and the
line of code after it opens a container. -/
theorem split_fencedCode_cut :
    ¬∀ (source first last : Text) (body : List Text) (fence : CodeFence),
      Text.lines source = first :: (body ++ [last]) → fence.IsOpenedBy first →
      (∀ line ∈ body, fence.isClosedBy line = false) → fence.isClosedBy last = true →
      split source = [.markdown source] := by
  have hFirst : CodeFence.IsOpenedBy ⟨'\x60', 3⟩ (text "\x60\x60\x60\n") :=
    ⟨text "\x60\x60\x60", ⟨'\x60', 3, []⟩, by decide, rfl, rfl⟩
  have hSplit : split (text "\x60\x60\x60\n    \x60\x60\x60\n:::note\n\x60\x60\x60\n") =
      [.markdown (text "\x60\x60\x60\n    \x60\x60\x60\n"),
        .container ⟨text "note", {}⟩ [.markdown (text "\x60\x60\x60\n")]] := by cbv
  intro hClaim
  have hRun := hClaim (text "\x60\x60\x60\n    \x60\x60\x60\n:::note\n\x60\x60\x60\n") _
    (text "\x60\x60\x60\n") [text "    \x60\x60\x60\n", text ":::note\n"] _ (by decide) hFirst
    (by decide) (by decide)
  rw [hSplit] at hRun
  cases hRun

end Section

end DirectiveMarkdown
