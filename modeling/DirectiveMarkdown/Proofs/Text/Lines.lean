import DirectiveMarkdown.Text.Basic
import DirectiveMarkdown.Text.Numeral

/-! Lines of texts that are put together, and the white space around them. -/
namespace DirectiveMarkdown

/-- Of two tables without a common code point only one holds a character. -/
theorem CodeRanges.holds_eq_false_of_apart {a b : CodeRanges}
    (hApart : (a.all fun r => b.all fun s => r.2 < s.1 || s.2 < r.1) = true) {c : Char}
    (h : b.holds c = true) : a.holds c = false := by
  obtain ⟨s, hMem, hLow, hHigh⟩ := (b.holds_iff c).1 h
  rw [← Bool.not_eq_true, a.holds_iff]
  rintro ⟨r, hMem', hLow', hHigh'⟩
  have hRanges := List.all_eq_true.1 (List.all_eq_true.1 hApart r hMem') s hMem
  simp only [Bool.or_eq_true, decide_eq_true_eq] at hRanges
  omega

theorem isLetter_of_isBlank {c : Char} (h : isBlank c = true) : isLetter c = false := by
  have hCode := toNat_of_isBlank h
  unfold isLetter
  split
  · cases hAlpha : c.isAlpha with
    | false => rfl
    | true =>
        have := toNat_of_isAlpha hAlpha
        omega
  · simp only [Bool.or_eq_false_iff]
    refine ⟨⟨⟨⟨⟨?_, ?_⟩, ?_⟩, ?_⟩, ?_⟩, ?_⟩ <;>
      exact CodeRanges.holds_eq_false_of_apart (by decide +kernel) h

theorem toNat_of_isDigit {c : Char} (h : c.isDigit = true) : 48 ≤ c.toNat ∧ c.toNat ≤ 57 := by
  simpa [Char.isDigit, UInt32.le_iff_toNat_le] using h

theorem isNumeral_of_isBlank {c : Char} (h : isBlank c = true) : isNumeral c = false := by
  have hCode := toNat_of_isBlank h
  unfold isNumeral
  split
  · cases hDigit : c.isDigit with
    | false => rfl
    | true =>
        have hRange := toNat_of_isDigit hDigit
        omega
  · simp only [Bool.or_eq_false_iff]
    refine ⟨⟨⟨⟨⟨?_, ?_⟩, ?_⟩, ?_⟩, ?_⟩, ?_⟩ <;>
      exact CodeRanges.holds_eq_false_of_apart (by decide +kernel) h

/-- Letters and numerals are no white space. -/
theorem isBlank_of_isWordChar {c : Char} (h : isWordChar c = true) : isBlank c = false := by
  cases hBlank : isBlank c with
  | false => rfl
  | true =>
      rw [isWordChar, isLetter_of_isBlank hBlank, isNumeral_of_isBlank hBlank] at h
      cases h

namespace Text

/-- A line that is ended is the first line of what it starts. -/
theorem lines_append_newline {line : Text} (h : '\n' ∉ line) (rest : Text) :
    lines (line ++ '\n' :: rest) = (line ++ ['\n']) :: lines rest := by
  induction line with
  | nil => rw [List.nil_append, lines, if_pos rfl, List.nil_append]
  | cons c line ih =>
      rw [List.mem_cons, not_or] at h
      rw [List.cons_append, lines, if_neg (Ne.symm h.1), ih h.2]
      rfl

theorem lines_eq_nil_iff {s : Text} : lines s = [] ↔ s = [] := by
  constructor
  · intro h
    rw [← flatten_lines s, h]
    rfl
  · rintro rfl
    rfl

/-- A character of a line is one of the text. -/
theorem mem_of_mem_lines {s line : Text} (hLine : line ∈ lines s) {c : Char} (hMem : c ∈ line) :
    c ∈ s := by
  rw [← flatten_lines s]
  exact List.mem_flatten_of_mem hLine hMem

/-- Lines that are all ended stay the same whatever follows. -/
theorem lines_append {a : Text} (h : a.getLast? = some '\n') (b : Text) :
    lines (a ++ b) = lines a ++ lines b := by
  induction a with
  | nil => cases h
  | cons c a ih =>
      cases a with
      | nil =>
          obtain rfl : c = '\n' := by simpa using h
          rw [List.singleton_append, lines, if_pos rfl, lines, if_pos rfl]
          rfl
      | cons d a =>
          have hTail := ih ((List.getLast?_cons_cons ..).symm.trans h)
          rw [List.cons_append, lines, hTail]
          conv =>
            rhs
            rw [lines]
          cases hFirst : lines (d :: a) with
          | nil => exact absurd (lines_eq_nil_iff.1 hFirst) (List.cons_ne_nil d a)
          | cons line more => split <;> rfl

/-- Whole lines stay the same whatever follows them. -/
theorem lines_append_of_whole {s t : Text} (h : s = [] ∨ s.getLast? = some '\n' ∨ t = []) :
    lines (s ++ t) = lines s ++ lines t := by
  rcases h with rfl | h | rfl
  · rfl
  · exact lines_append h t
  · simp [lines]

/-- A source with a line that is not white space alone is not so either. -/
theorem not_isBlankText_of_mem_lines {source line : Text} (hMem : line ∈ lines source)
    (hLine : isBlankText line = false) : isBlankText source = false := by
  cases hBlank : isBlankText source with
  | false => rfl
  | true =>
      have hChars : ∀ c ∈ line, isBlank c = true := fun c hChar =>
        List.all_eq_true.1 hBlank c (mem_of_mem_lines hMem hChar)
      rw [isBlankText, List.all_eq_true.2 hChars] at hLine
      cases hLine

theorem not_isBlankText_append {a : Text} (h : isBlankText a = false) (b : Text) :
    isBlankText (a ++ b) = false := by
  rw [isBlankText, List.all_append]
  exact Bool.and_eq_false_iff.2 (.inl h)

/-- The text does not end in white space. -/
def EndsSolid (s : Text) : Prop := ∀ c ∈ s.getLast?, isBlank c = false

theorem endsSolid_of_all {s : Text} (h : ∀ c ∈ s, isBlank c = false) : EndsSolid s :=
  fun c hMem => h c (List.mem_of_getLast? hMem)

/-- What comes before the end of a text does not count. -/
theorem EndsSolid.append {b : Text} (h : EndsSolid b) (hNe : b ≠ []) (a : Text) :
    EndsSolid (a ++ b) := by
  intro c hMem
  rw [List.getLast?_append, List.getLast?_eq_some_getLast hNe, Option.some_or] at hMem
  exact h c ((List.getLast?_eq_some_getLast hNe).trans hMem)

theorem endsSolid_append {a b : Text} (ha : EndsSolid a) (hb : EndsSolid b) :
    EndsSolid (a ++ b) := by
  cases b with
  | nil => simpa using ha
  | cons c b => exact hb.append (List.cons_ne_nil _ _) a

/-- White space at the end is trimmed down to a character that is none. -/
theorem trimEnd_append {s : Text} (h : EndsSolid s) {blank : Text}
    (hBlank : isBlankText blank = true) : trimEnd (s ++ blank) = s := by
  have hAll : ∀ c ∈ blank.reverse, isBlank c = true := by
    intro c hMem
    exact List.all_eq_true.1 hBlank c (List.mem_reverse.1 hMem)
  rw [trimEnd, List.reverse_append, List.dropWhile_append_of_pos hAll]
  have hSelf : s.reverse.dropWhile isBlank = s.reverse := by
    cases hReverse : s.reverse with
    | nil => rfl
    | cons c rest =>
        have hLast : c ∈ s.getLast? := by
          rw [← List.head?_reverse, hReverse]
          rfl
        rw [List.dropWhile_cons_of_neg (by simp [h c hLast])]
  rw [hSelf, List.reverse_reverse]

theorem trimStart_cons {c : Char} (h : isBlank c = false) (rest : Text) :
    trimStart (c :: rest) = c :: rest := by
  rw [trimStart, List.dropWhile_cons_of_neg (by simp [h])]

/-- Nothing but the white space around a text is trimmed. -/
theorem trim_append {s : Text} (hStart : ∀ c ∈ s.head?, isBlank c = false) (hEnd : EndsSolid s)
    {before after : Text} (hBefore : isBlankText before = true) (hAfter : isBlankText after = true) :
    trim (before ++ (s ++ after)) = s := by
  have hDrop : trimStart (before ++ (s ++ after)) = trimStart (s ++ after) :=
    List.dropWhile_append_of_pos (List.all_eq_true.1 hBefore)
  rw [trim, hDrop]
  cases s with
  | nil =>
      have hNil : trimStart (after ++ []) = trimStart [] :=
        List.dropWhile_append_of_pos (List.all_eq_true.1 hAfter)
      rw [List.append_nil] at hNil
      rw [List.nil_append, hNil]
      rfl
  | cons c s =>
      rw [List.cons_append, trimStart_cons (hStart c rfl), ← List.cons_append,
        trimEnd_append hEnd hAfter]

theorem trimStart_replicate (n : Nat) (s : Text) :
    trimStart (List.replicate n ' ' ++ s) = trimStart s := by
  refine List.dropWhile_append_of_pos fun c hMem => ?_
  rw [List.eq_of_mem_replicate hMem]
  rfl

/-- What is taken of a text that goes on with a character of another kind. -/
theorem takeWhile_append_stop {p : Char → Bool} {s rest : Text} (hAll : ∀ c ∈ s, p c = true)
    (hStop : ∀ c ∈ rest.head?, p c = false) : (s ++ rest).takeWhile p = s := by
  rw [List.takeWhile_append_of_pos hAll]
  cases rest with
  | nil => rw [List.takeWhile_nil, List.append_nil]
  | cons c rest => rw [List.takeWhile_cons_of_neg (by simp [hStop c rfl]), List.append_nil]

/-- Dropping takes the whole run and stops behind it. -/
theorem dropWhile_append_stop {p : Char → Bool} {s rest : Text} (hAll : ∀ c ∈ s, p c = true)
    (hStop : ∀ c ∈ rest.head?, p c = false) : (s ++ rest).dropWhile p = rest := by
  rw [List.dropWhile_append_of_pos hAll]
  cases rest with
  | nil => rfl
  | cons c rest => rw [List.dropWhile_cons_of_neg (by simp [hStop c rfl])]

/-- A run of characters of one kind goes no further than to a character of another kind. -/
theorem takeWhile_append_mark {p : Char → Bool} {mark : Char} (h : p mark = false) (s rest : Text) :
    (s ++ mark :: rest).takeWhile p = s.takeWhile p ∧
      (s ++ mark :: rest).dropWhile p = s.dropWhile p ++ mark :: rest := by
  induction s with
  | nil =>
      have hMark : ¬p mark = true := by simp [h]
      exact ⟨List.takeWhile_cons_of_neg hMark, List.dropWhile_cons_of_neg hMark⟩
  | cons c s ih =>
      rw [List.cons_append]
      cases hChar : p c with
      | true =>
          rw [List.takeWhile_cons_of_pos hChar, List.takeWhile_cons_of_pos hChar,
            List.dropWhile_cons_of_pos hChar, List.dropWhile_cons_of_pos hChar, ih.1, ih.2]
          exact ⟨rfl, rfl⟩
      | false =>
          have hStop : ¬p c = true := by simp [hChar]
          rw [List.takeWhile_cons_of_neg hStop, List.takeWhile_cons_of_neg hStop,
            List.dropWhile_cons_of_neg hStop, List.dropWhile_cons_of_neg hStop]
          exact ⟨rfl, rfl⟩

end Text

/-- Nothing is dropped of a text whose first character is of another kind. -/
theorem dropWhile_eq_self {p : Char → Bool} {s : Text} (h : ∀ c ∈ s.head?, p c = false) :
    s.dropWhile p = s := by
  cases s with
  | nil => rfl
  | cons c s => exact List.dropWhile_cons_of_neg (by simp [h c rfl])

/-- The start of a text that a count of its characters measures, and what is left of it. -/
theorem drop_length_takeWhile (p : Char → Bool) (s : Text) :
    s.drop (s.takeWhile p).length = s.dropWhile p := by
  conv =>
    lhs
    arg 2
    rw [← List.takeWhile_append_dropWhile (p := p) (l := s)]
  exact List.drop_left

end DirectiveMarkdown
