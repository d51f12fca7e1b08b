import Mathlib.Data.List.Forall2
import DirectiveMarkdown.ListColumns
import DirectiveMarkdown.Proofs.Text.Lines

/-! Text written into a block quote or a list item. Every line gets something in front of it that
holds no line feed, so the lines of what is written are those of the text. -/
namespace DirectiveMarkdown

namespace Text

/-- Lines as a text is divided into them: each ends in its only line feed, which the last may lack. -/
inductive AreLines : List Text → Prop
  | nil : AreLines []
  | last {line : Text} : line ≠ [] → '\n' ∉ line → AreLines [line]
  | cons {line : Text} {rest : List Text} :
    '\n' ∉ line → AreLines rest → AreLines ((line ++ ['\n']) :: rest)

/-- A text is divided into lines. -/
theorem areLines_lines (s : Text) : AreLines (lines s) := by
  induction s with
  | nil => exact .nil
  | cons c s ih =>
      unfold lines
      split
      · next hBreak =>
          rw [hBreak]
          exact .cons List.not_mem_nil ih
      · next hBreak =>
          have hHead : '\n' ≠ c := Ne.symm hBreak
          generalize lines s = others at ih
          cases ih with
          | nil => exact .last (List.cons_ne_nil _ _) (by simpa using hHead)
          | last _ hLine => exact .last (List.cons_ne_nil _ _) (by simp [hHead, hLine])
          | @cons line _ hLine hRest =>
              exact @AreLines.cons (c :: line) _ (by simp [hHead, hLine]) hRest

/-- A text without a line feed is one line. -/
theorem lines_of_newline_not_mem {s : Text} (hNe : s ≠ []) (h : '\n' ∉ s) : lines s = [s] := by
  induction s with
  | nil => exact absurd rfl hNe
  | cons c s ih =>
      rw [List.mem_cons, not_or] at h
      rw [lines, if_neg (Ne.symm h.1)]
      cases s with
      | nil => rfl
      | cons d s => rw [ih (List.cons_ne_nil _ _) h.2]

/-- Such lines are found again in the text that they make. -/
theorem AreLines.lines_flatten {division : List Text} (h : AreLines division) :
    lines division.flatten = division := by
  induction h with
  | nil => rfl
  | last hNe hLine => rw [List.flatten_singleton, lines_of_newline_not_mem hNe hLine]
  | cons hLine _ ih =>
      rw [List.flatten_cons, List.append_assoc, List.singleton_append, lines_append_newline hLine, ih]

/-- The first line starts the text. -/
theorem head?_of_lines_eq_cons {s first : Text} {rest : List Text} (h : lines s = first :: rest) :
    s.head? = first.head? := by
  have hFirst : first ≠ [] := by
    have hLines := areLines_lines s
    rw [h] at hLines
    cases hLines with
    | last hNe => exact hNe
    | cons => simp
  rw [← flatten_lines s, h, List.flatten_cons, List.head?_append_of_ne_nil _ hFirst]

/-- A line with something in front of it that holds no line feed. -/
def IsPrefixed (line written : Text) : Prop := ∃ before, '\n' ∉ before ∧ written = before ++ line

/-- What stands in front of lines does not join or divide them. -/
theorem AreLines.of_prefixed {division others : List Text} (h : AreLines division)
    (hPrefixed : List.Forall₂ IsPrefixed division others) : AreLines others := by
  induction h generalizing others with
  | nil =>
      cases hPrefixed
      exact .nil
  | last hNe hLine =>
      cases hPrefixed with
      | cons hHead hRest =>
          cases hRest
          obtain ⟨before, hBefore, rfl⟩ := hHead
          exact .last (by simp [hNe]) (by simp [hBefore, hLine])
  | cons hLine _ ih =>
      cases hPrefixed with
      | cons hHead hRest =>
          obtain ⟨before, hBefore, rfl⟩ := hHead
          rw [← List.append_assoc]
          exact .cons (by simp [hBefore, hLine]) (ih hRest)

end Text

/-- A text with the marker of a block quote in front of every line. -/
def quoted (content : Text) : Text := (Text.lines content).flatMap fun line => '>' :: ' ' :: line

theorem isPrefixed_quote (lines : List Text) :
    List.Forall₂ Text.IsPrefixed lines (lines.map fun line => '>' :: ' ' :: line) := by
  rw [List.forall₂_map_right_iff, List.forall₂_same]
  exact fun line _ => ⟨['>', ' '], by decide, rfl⟩

/-- A quoted text has the lines of the content, each with a marker. -/
theorem lines_quoted (content : Text) :
    Text.lines (quoted content) = (Text.lines content).map fun line => '>' :: ' ' :: line :=
  ((Text.areLines_lines content).of_prefixed (isPrefixed_quote _)).lines_flatten

theorem quoted_ne_nil {content : Text} (hNe : content ≠ []) : quoted content ≠ [] := by
  rw [Ne, ← Text.lines_eq_nil_iff, lines_quoted, List.map_eq_nil_iff, Text.lines_eq_nil_iff]
  exact hNe

theorem return_not_mem_quoted {content : Text} (h : '\r' ∉ content) : '\r' ∉ quoted content := by
  intro hQuoted
  obtain ⟨line, hLine, hMem⟩ := List.mem_flatMap.1 hQuoted
  refine h (Text.mem_of_mem_lines hLine ?_)
  simpa using hMem

/-- A bullet, or at most nine digits and a point or a parenthesis. -/
inductive IsListMark : Text → Prop
  | bullet {c : Char} : c = '-' ∨ c = '*' ∨ c = '+' → IsListMark [c]
  | number {digits : Text} {c : Char} : (∀ d ∈ digits, d.isDigit = true) → 1 ≤ digits.length →
    digits.length ≤ 9 → c = '.' ∨ c = ')' → IsListMark (digits ++ [c])

namespace IsListMark

variable {mark : Text}

/-- Digits and the other characters of marks stand next to each other in ASCII. -/
theorem toNat_of_mem (h : IsListMark mark) {c : Char} (hMem : c ∈ mark) :
    41 ≤ c.toNat ∧ c.toNat ≤ 57 := by
  cases h with
  | bullet hBullet =>
      rw [List.mem_singleton.1 hMem]
      rcases hBullet with rfl | rfl | rfl <;> decide
  | number hDigits _ _ hEnd =>
      rcases List.mem_append.1 hMem with hMem | hMem
      · have hRange := toNat_of_isDigit (hDigits c hMem)
        exact ⟨by omega, hRange.2⟩
      · rw [List.mem_singleton.1 hMem]
        rcases hEnd with rfl | rfl <;> decide

theorem exists_cons (h : IsListMark mark) : ∃ c more, mark = c :: more := by
  cases h with
  | bullet => exact ⟨_, _, rfl⟩
  | number _ hLeast =>
      refine List.exists_cons_of_ne_nil ?_
      simp

/-- The search reads the whole of a mark. -/
theorem listMarkerLength?_append (h : IsListMark mark) (rest : Text) :
    listMarkerLength? (mark ++ rest) = some mark.length := by
  cases h with
  | bullet hBullet =>
      rw [List.singleton_append, listMarkerLength?]
      exact if_pos hBullet
  | @number digits c hDigits hLeast hMost hEnd =>
      obtain ⟨d, more, rfl⟩ := List.exists_cons_of_length_pos hLeast
      have hBullet : ¬(d = '-' ∨ d = '*' ∨ d = '+') := by
        have hDigit := hDigits d (List.mem_cons_self ..)
        rintro (rfl | rfl | rfl) <;> cases hDigit
      have hTake : (d :: (more ++ c :: rest)).takeWhile Char.isDigit = d :: more := by
        rw [← List.cons_append]
        refine Text.takeWhile_append_stop hDigits ?_
        rintro _ ⟨⟩
        rcases hEnd with rfl | rfl <;> rfl
      have hDrop : (d :: (more ++ c :: rest)).drop (d :: more).length = c :: rest := by
        rw [← List.cons_append]
        exact List.drop_left
      have hLine : d :: more ++ [c] ++ rest = d :: (more ++ c :: rest) := by simp
      rw [hLine, listMarkerLength?]
      simp only [if_neg hBullet, hTake, hDrop]
      rw [if_pos ⟨Nat.ne_of_gt hLeast, hMost, hEnd⟩, List.length_append, List.length_singleton]

/-- What the search reads is a mark. -/
theorem of_listMarkerLength? {s : Text} {length : Nat} (h : listMarkerLength? s = some length) :
    ∃ mark rest, IsListMark mark ∧ s = mark ++ rest ∧ mark.length = length := by
  cases s with
  | nil => cases h
  | cons c rest =>
      rw [listMarkerLength?] at h
      split at h
      · next hBullet =>
          cases h
          exact ⟨[c], rest, .bullet hBullet, rfl, rfl⟩
      · dsimp only at h
        split at h
        · next mark after hAfter =>
            split at h
            · next hMark =>
                cases h
                rw [drop_length_takeWhile] at hAfter
                have hText := List.takeWhile_append_dropWhile (p := Char.isDigit) (l := c :: rest)
                rw [hAfter] at hText
                refine ⟨(c :: rest).takeWhile Char.isDigit ++ [mark], after,
                  .number (List.all_eq_true.1 List.all_takeWhile) (Nat.pos_of_ne_zero hMark.1)
                    hMark.2.1 hMark.2.2, ?_, ?_⟩
                · rw [List.append_assoc, List.singleton_append, hText]
                · rw [List.length_append, List.length_singleton]
            · cases h
        · cases h

end IsListMark

theorem leadingSpaces_replicate_append (n : Nat) {s : Text} (h : s.head? ≠ some ' ') :
    leadingSpaces (List.replicate n ' ' ++ s) = n := by
  rw [leadingSpaces, Text.takeWhile_append_stop, List.length_replicate]
  · intro c hMem
    rw [List.eq_of_mem_replicate hMem]
    rfl
  · intro c hMem
    rw [beq_eq_false_iff_ne]
    rintro rfl
    exact h hMem

/-- The marker of a list item as it is written, with the spaces around it. -/
structure WrittenMarker where
  indent : Nat
  mark : Text
  spaces : Nat
  indent_le : indent ≤ 3
  isMark : IsListMark mark
  spaces_pos : 1 ≤ spaces
  spaces_le : spaces ≤ 4

namespace WrittenMarker

variable (marker : WrittenMarker)

def print : Text := List.replicate marker.indent ' ' ++ (marker.mark ++ List.replicate marker.spaces ' ')

/-- The column at which the content of the item starts. -/
def column : Nat := marker.indent + marker.mark.length + marker.spaces

/-- The column of the content is the length of the marker, with the spaces around it. -/
theorem length_print : marker.print.length = marker.column := by
  simp [print, column, Nat.add_assoc]

/-- Markers are written in spaces and the characters of marks. -/
theorem toNat_of_mem_print {c : Char} (hMem : c ∈ marker.print) :
    c = ' ' ∨ 41 ≤ c.toNat ∧ c.toNat ≤ 57 := by
  rcases List.mem_append.1 hMem with hMem | hMem
  · exact .inl (List.eq_of_mem_replicate hMem)
  · rcases List.mem_append.1 hMem with hMem | hMem
    · exact .inr (marker.isMark.toNat_of_mem hMem)
    · exact .inl (List.eq_of_mem_replicate hMem)

theorem newline_not_mem_print : '\n' ∉ marker.print := by
  intro hMem
  rcases marker.toNat_of_mem_print hMem with hSpace | hCode
  · cases hSpace
  · exact absurd hCode (by decide)

/-- The search finds the content where it starts. -/
theorem listItemColumn?_print {c : Char} (hContent : isBlank c = false) (rest : Text) :
    listItemColumn? (marker.print ++ c :: rest) = some marker.column := by
  obtain ⟨d, more, hMark⟩ := marker.isMark.exists_cons
  have hMarkHead : (marker.mark ++ (List.replicate marker.spaces ' ' ++ c :: rest)).head? ≠
      some ' ' := by
    have hCode := marker.isMark.toNat_of_mem (hMark ▸ List.mem_cons_self ..)
    rw [hMark]
    rintro ⟨⟩
    exact absurd hCode (by decide)
  have hContentHead : (c :: rest).head? ≠ some ' ' := by
    rintro ⟨⟩
    cases hContent
  have hLine : marker.print ++ c :: rest = List.replicate marker.indent ' ' ++
      (marker.mark ++ (List.replicate marker.spaces ' ' ++ c :: rest)) := by
    simp [print]
  have hIndent : leadingSpaces (marker.print ++ c :: rest) = marker.indent := by
    rw [hLine, leadingSpaces_replicate_append _ hMarkHead]
  have hDrop : (marker.print ++ c :: rest).drop marker.indent =
      marker.mark ++ (List.replicate marker.spaces ' ' ++ c :: rest) := by
    rw [hLine, List.drop_left' List.length_replicate]
  have hAfter : (marker.print ++ c :: rest).drop (marker.indent + marker.mark.length) =
      List.replicate marker.spaces ' ' ++ c :: rest := by
    rw [← List.drop_drop, hDrop, List.drop_left]
  have hBlank : Text.isBlankText (List.replicate marker.spaces ' ' ++ c :: rest) = false := by
    simp [Text.isBlankText, hContent]
  have hSmall : ¬marker.indent > 3 := Nat.not_lt.2 marker.indent_le
  have hSpaces : ¬marker.spaces = 0 := Nat.ne_of_gt marker.spaces_pos
  have hFew : ¬marker.spaces > 4 := Nat.not_lt.2 marker.spaces_le
  rw [listItemColumn?]
  simp only [hIndent, if_neg hSmall, hDrop, marker.isMark.listMarkerLength?_append,
    Option.bind_some, hAfter, hBlank, Bool.false_eq_true, if_false,
    leadingSpaces_replicate_append _ hContentHead, if_neg hSpaces, if_neg hFew]
  rfl

/-- A line of the content of an item, but for the first one, as it is written. It is indented to the
column of the content, but an empty line need not be. -/
def Indents (line written : Text) : Prop :=
  written = List.replicate marker.column ' ' ++ line ∨ line = ['\n'] ∧ written = line

/-- The content is written as a list item. -/
def Wraps (content written : Text) : Prop :=
  ∃ first rest others, Text.lines content = first :: rest ∧
    List.Forall₂ marker.Indents rest others ∧ written = marker.print ++ first ++ others.flatten

variable {marker}

/-- A line of an item is the line of its content with spaces in front. -/
theorem Indents.isPrefixed {line written : Text} (h : marker.Indents line written) :
    Text.IsPrefixed line written := by
  rcases h with rfl | ⟨-, rfl⟩
  · refine ⟨_, ?_, rfl⟩
    intro hMem
    cases List.eq_of_mem_replicate hMem
  · exact ⟨[], List.not_mem_nil, rfl⟩

/-- An item has as many lines as its content. -/
theorem Wraps.exists_lines {content written : Text} (h : marker.Wraps content written) :
    ∃ first rest others, Text.lines content = first :: rest ∧
      List.Forall₂ marker.Indents rest others ∧
      Text.lines written = (marker.print ++ first) :: others ∧
      List.Forall₂ Text.IsPrefixed (Text.lines content) (Text.lines written) := by
  obtain ⟨first, rest, others, hLines, hOthers, rfl⟩ := h
  have hPrefixed : List.Forall₂ Text.IsPrefixed (Text.lines content)
      ((marker.print ++ first) :: others) := by
    rw [hLines]
    exact .cons ⟨_, marker.newline_not_mem_print, rfl⟩ (hOthers.imp fun _ _ => Indents.isPrefixed)
  have hWritten : Text.lines (marker.print ++ first ++ others.flatten) =
      (marker.print ++ first) :: others :=
    ((Text.areLines_lines content).of_prefixed hPrefixed).lines_flatten
  exact ⟨first, rest, others, hLines, hOthers, hWritten, hWritten ▸ hPrefixed⟩

end WrittenMarker

end DirectiveMarkdown
