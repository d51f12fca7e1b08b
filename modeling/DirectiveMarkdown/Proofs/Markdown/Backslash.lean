import DirectiveMarkdown.Proofs.Markdown.Pairing
import DirectiveMarkdown.Proofs.Markdown.Readers
import DirectiveMarkdown.Proofs.Markdown.TextLine
import DirectiveMarkdown.Proofs.Section.FencedCode
import DirectiveMarkdown.Markdown.Event

/-! A line of text written for Markdown, with a backslash before all punctuation. Markdown reads it as
one paragraph with exactly that text: no character of it opens a block, and each backslash is taken
away again with the character after it. -/
namespace DirectiveMarkdown

def isControl (c : Char) : Bool := c.toNat < 0x20 || (0x7f ≤ c.toNat && c.toNat ≤ 0x9f)

/-- A text with a backslash before every ASCII punctuation character. -/
def escapePunctuation (s : Text) : Text :=
  s.flatMap fun c => if isAsciiPunctuation c then ['\\', c] else [c]

/-- A line that can be printed, with something other than white space at both ends. -/
structure IsPrintedLine (s : Text) : Prop where
  nonempty : s ≠ []
  printed : ∀ c ∈ s, isControl c = false
  startsSolid : ∀ c ∈ s.head?, isBlank c = false
  endsSolid : s.EndsSolid

theorem isPrintedLine_iff (s : Text) :
    IsPrintedLine s ↔ s ≠ [] ∧ s.all (fun c => !isControl c) = true ∧
      s.head?.all (fun c => !isBlank c) = true ∧ s.getLast?.all (fun c => !isBlank c) = true := by
  simp only [List.all_eq_true, Option.all_eq_true, Bool.not_eq_true']
  exact ⟨fun ⟨hNe, hPrinted, hStart, hEnd⟩ => ⟨hNe, hPrinted, hStart, hEnd⟩,
    fun ⟨hNe, hPrinted, hStart, hEnd⟩ => ⟨hNe, hPrinted, hStart, hEnd⟩⟩

instance (s : Text) : Decidable (IsPrintedLine s) := decidable_of_iff _ (isPrintedLine_iff s).symm

theorem escapePunctuation_of_punctuation {c : Char} (h : isAsciiPunctuation c = true) (s : Text) :
    escapePunctuation (c :: s) = '\\' :: c :: escapePunctuation s := by
  simp [escapePunctuation, h]

theorem escapePunctuation_of_plain {c : Char} (h : isAsciiPunctuation c = false) (s : Text) :
    escapePunctuation (c :: s) = c :: escapePunctuation s := by
  simp [escapePunctuation, h]

/-- Escaping adds no characters but backslashes. -/
theorem mem_escapePunctuation {c : Char} {s : Text} (h : c ∈ escapePunctuation s) :
    c = '\\' ∨ c ∈ s := by
  obtain ⟨d, hMem, h⟩ := List.mem_flatMap.1 h
  split at h
  · simp only [List.mem_cons, List.not_mem_nil, or_false] at h
    rcases h with rfl | rfl
    · exact .inl rfl
    · exact .inr hMem
  · exact .inr (List.mem_singleton.1 h ▸ hMem)

theorem length_le_escapePunctuation (s : Text) : s.length ≤ (escapePunctuation s).length := by
  induction s with
  | nil => exact Nat.le_refl 0
  | cons c s ih =>
      cases h : isAsciiPunctuation c with
      | true => rw [escapePunctuation_of_punctuation h]; simp only [List.length_cons]; omega
      | false => rw [escapePunctuation_of_plain h]; simp only [List.length_cons]; omega

/-- What stops at all punctuation does not get to a character that is escaped. -/
theorem takeWhile_escapePunctuation {p : Char → Bool}
    (hStop : ∀ c, isAsciiPunctuation c = true → p c = false) (s : Text) :
    (escapePunctuation s).takeWhile p = s.takeWhile p := by
  induction s with
  | nil => rfl
  | cons c s ih =>
      cases h : isAsciiPunctuation c with
      | true =>
          rw [escapePunctuation_of_punctuation h, List.takeWhile_cons_of_neg (by simp [hStop '\\' rfl]),
            List.takeWhile_cons_of_neg (by simp [hStop c h])]
      | false => rw [escapePunctuation_of_plain h, List.takeWhile_cons, List.takeWhile_cons, ih]

/-- Dropping characters that are no punctuation commutes with escaping. -/
theorem dropWhile_escapePunctuation {p : Char → Bool}
    (hStop : ∀ c, isAsciiPunctuation c = true → p c = false) (s : Text) :
    (escapePunctuation s).dropWhile p = escapePunctuation (s.dropWhile p) := by
  induction s with
  | nil => rfl
  | cons c s ih =>
      cases h : isAsciiPunctuation c with
      | true =>
          rw [escapePunctuation_of_punctuation h, List.dropWhile_cons_of_neg (by simp [hStop '\\' rfl]),
            List.dropWhile_cons_of_neg (by simp [hStop c h]), escapePunctuation_of_punctuation h]
      | false =>
          rw [escapePunctuation_of_plain h, List.dropWhile_cons, List.dropWhile_cons]
          split
          · exact ih
          · exact (escapePunctuation_of_plain h s).symm

/-- A text is written as it is up to its first punctuation. -/
theorem escapePunctuation_eq (s : Text) :
    escapePunctuation s = (s.takeWhile fun c => !isAsciiPunctuation c) ++
      escapePunctuation (s.dropWhile fun c => !isAsciiPunctuation c) := by
  have hStop : ∀ c, isAsciiPunctuation c = true → (!isAsciiPunctuation c) = false := by simp
  rw [← takeWhile_escapePunctuation hStop, ← dropWhile_escapePunctuation hStop,
    List.takeWhile_append_dropWhile]

/-- Only a backslash stands at the start of what is escaped, where it is punctuation. -/
theorem head?_escapePunctuation {s : Text} {c : Char} (h : c ∈ (escapePunctuation s).head?) :
    c = '\\' ∨ isAsciiPunctuation c = false ∧ c ∈ s.head? := by
  cases s with
  | nil => cases h
  | cons d s =>
      cases hPunctuation : isAsciiPunctuation d with
      | true =>
          rw [escapePunctuation_of_punctuation hPunctuation] at h
          exact .inl (Option.some.inj h).symm
      | false =>
          rw [escapePunctuation_of_plain hPunctuation] at h
          cases h
          exact .inr ⟨hPunctuation, rfl⟩

theorem getLast?_escapePunctuation (s : Text) : (escapePunctuation s).getLast? = s.getLast? := by
  induction s with
  | nil => rfl
  | cons c s ih =>
      have hTail : (c :: escapePunctuation s).getLast? = (c :: s).getLast? := by
        rw [List.getLast?_cons, List.getLast?_cons, ih]
      cases h : isAsciiPunctuation c with
      | true => rw [escapePunctuation_of_punctuation h, List.getLast?_cons_cons, hTail]
      | false => rw [escapePunctuation_of_plain h, hTail]

/-- A line does not start with any of the characters that open a block. -/
def StartsPlain (line : Text) : Prop :=
  ∃ c rest, line = c :: rest ∧ isBlank c = false ∧ (c = '\\' ∨ isAsciiPunctuation c = false)

/-- An escaped line starts with a backslash or with a character that opens no block. -/
theorem IsPrintedLine.startsPlain {s : Text} (h : IsPrintedLine s) (ending : Text) :
    StartsPlain (escapePunctuation s ++ ending) := by
  obtain ⟨c, rest, rfl⟩ := List.exists_cons_of_ne_nil h.nonempty
  cases hPunctuation : isAsciiPunctuation c with
  | true =>
      rw [escapePunctuation_of_punctuation hPunctuation]
      exact ⟨'\\', _, rfl, by decide, .inl rfl⟩
  | false =>
      rw [escapePunctuation_of_plain hPunctuation]
      exact ⟨c, _, rfl, h.startsSolid c rfl, .inr hPunctuation⟩

theorem ne_of_plain {c d : Char} (h : c = '\\' ∨ isAsciiPunctuation c = false)
    (hMark : isAsciiPunctuation d = true ∧ d ≠ '\\') : c ≠ d := by
  rintro rfl
  rcases h with rfl | h
  · exact hMark.2 rfl
  · rw [hMark.1] at h
    cases h

theorem isDigit_of_punctuation {c : Char} (h : isAsciiPunctuation c = true) : c.isDigit = false := by
  cases hDigit : c.isDigit with
  | false => rfl
  | true =>
      have hRange := toNat_of_isDigit hDigit
      simp only [isAsciiPunctuation, Bool.or_eq_true, Bool.and_eq_true, decide_eq_true_eq] at h
      omega

/-- Behind digits an escaped line has a backslash, and no mark of a list. -/
theorem endsNoNumber_escapePunctuation (s : Text) :
    Markdown.EndsNoNumber (escapePunctuation s) := by
  intro c hMem
  rw [dropWhile_escapePunctuation fun c h => isDigit_of_punctuation h] at hMem
  have hPlain : c = '\\' ∨ isAsciiPunctuation c = false :=
    (head?_escapePunctuation hMem).imp id And.left
  exact ⟨ne_of_plain hPlain (by decide), ne_of_plain hPlain (by decide)⟩

namespace StartsPlain

variable {line : Text}

theorem ne_space (h : StartsPlain line) : ∃ c rest, line = c :: rest ∧ c ≠ ' ' ∧ c ≠ '\t' ∧
    (c = '\\' ∨ isAsciiPunctuation c = false) := by
  obtain ⟨c, rest, hLine, hBlank, hPlain⟩ := h
  refine ⟨c, rest, hLine, ?_, ?_, hPlain⟩ <;> rintro rfl <;> cases hBlank

theorem not_isBlankText (h : StartsPlain line) : Text.isBlankText line = false := by
  obtain ⟨c, rest, rfl, hBlank, -⟩ := h
  simp [Text.isBlankText, hBlank]

theorem blockLine_read? (h : StartsPlain line) : BlockLine.read? line = none := by
  obtain ⟨c, rest, rfl, hSpace, -, hPlain⟩ := h.ne_space
  exact BlockLine.read?_of_head hSpace (ne_of_plain hPlain (by decide)) rest

end StartsPlain

namespace Markdown

section Blocks

variable {line : Text}

/-- An escaped line starts the text of a paragraph. -/
theorem startsText_of_startsPlain (h : StartsPlain line) : StartsText line := by
  obtain ⟨c, rest, hLine, hBlank, hPlain⟩ := h
  refine ⟨c, rest, hLine, hBlank, ?_⟩
  cases hOpens : opensBlock c with
  | false => rfl
  | true =>
      simp only [opensBlock, Bool.or_eq_true, beq_iff_eq] at hOpens
      rcases hOpens with (((((((rfl | rfl) | rfl) | rfl) | rfl) | rfl) | rfl) | rfl) | rfl <;>
        exact absurd rfl (ne_of_plain hPlain (by decide))

theorem head?_ne_of_startsPlain (h : StartsPlain line) : line.head? ≠ some '[' := by
  obtain ⟨c, rest, rfl, -, hPlain⟩ := h
  intro hHead
  exact ne_of_plain hPlain (by decide) (Option.some.inj hHead)

/-- The escaped line is the text of a paragraph. -/
theorem isTextLine_escapePunctuation {s : Text} (h : IsPrintedLine s) :
    IsTextLine (escapePunctuation s) ∧
      (escapePunctuation s).map readCharacter = escapePunctuation s := by
  have hPrinted : ∀ c ∈ escapePunctuation s, isControl c = false := by
    intro c hMem
    rcases mem_escapePunctuation hMem with rfl | hMem
    · rfl
    · exact h.printed c hMem
  have hStart := h.startsPlain []
  rw [List.append_nil] at hStart
  have hRead : (escapePunctuation s).map readCharacter = escapePunctuation s :=
    map_readCharacter_eq fun hMem => absurd (hPrinted _ hMem) (by decide)
  refine ⟨⟨⟨fun hMem => ?_, fun hMem => ?_⟩, ?_, ?_⟩, hRead⟩
  · exact absurd (hPrinted _ hMem) (by decide)
  · exact absurd (hPrinted _ hMem) (by decide)
  · rw [hRead]
    exact startsText_of_startsPlain hStart
  · rw [hRead]
    exact endsNoNumber_escapePunctuation s

end Blocks

section Inlines

variable {gfm : Bool} {definitions : Definitions} {s : Text}

theorem isSpecial_of_plain {c : Char} (h : isAsciiPunctuation c = false) (hFeed : c ≠ '\n') :
    isSpecial c = false := by
  refine isSpecial_eq_false (p := fun c => !isAsciiPunctuation c && c != '\n') rfl ?_
  simp [h, hFeed]

/-- Plain text is read up to the next backslash. -/
theorem takeWhile_isSpecial_escapePunctuation (hFeed : '\n' ∉ s) :
    (escapePunctuation s).takeWhile (fun c => !isSpecial c) =
      s.takeWhile fun c => !isAsciiPunctuation c := by
  rw [escapePunctuation_eq, Text.takeWhile_append_stop]
  · intro c hMem
    have hPlain := List.all_eq_true.1 List.all_takeWhile c hMem
    have hChar : c ≠ '\n' := ne_of_mem_of_not_mem ((List.takeWhile_sublist _).subset hMem) hFeed
    simpa using isSpecial_of_plain (by simpa using hPlain) hChar
  · intro c hMem
    rcases head?_escapePunctuation hMem with rfl | ⟨hPlain, hMem⟩
    · rfl
    · have hHead := List.head?_dropWhile_not (fun c => !isAsciiPunctuation c) s
      rw [Option.mem_def.1 hMem] at hHead
      simp [hPlain] at hHead

/-- Of an escaped text the plain text goes up to the first escape. -/
theorem plainText_escapePunctuation (hFeed : '\n' ∉ s) (state : InlineState) :
    plainText state (escapePunctuation s) =
      ({ state with
          pieces := .node (.text (s.takeWhile fun c => !isAsciiPunctuation c)) :: state.pieces
          last := (s.takeWhile fun c => !isAsciiPunctuation c).getLast? },
        escapePunctuation (s.dropWhile fun c => !isAsciiPunctuation c)) := by
  have hEscaped : '\n' ∉ escapePunctuation s := by
    intro hMem
    rcases mem_escapePunctuation hMem with hEq | hMem
    · exact absurd hEq (by decide)
    · exact hFeed hMem
  have hRest : (escapePunctuation s).dropWhile (fun c => !isSpecial c) =
      escapePunctuation (s.dropWhile fun c => !isAsciiPunctuation c) := by
    rw [← drop_length_takeWhile, takeWhile_isSpecial_escapePunctuation hFeed,
      escapePunctuation_eq s, List.drop_left]
  rw [plainText_of_oneLine hEscaped, takeWhile_isSpecial_escapePunctuation hFeed, hRest]

/-- One step reads an escaped character, or plain text up to the next one. -/
theorem inlineStep_escapePunctuation (gfm : Bool) (definitions : Definitions) (hNe : s ≠ [])
    (hFeed : '\n' ∉ s) (state : InlineState) :
    ∃ c rest value left last, escapePunctuation s = c :: rest ∧ value ++ left = s ∧
      (escapePunctuation left).length ≤ rest.length ∧
      inlineStep gfm definitions state c rest =
        ({ state with pieces := .node (.text value) :: state.pieces, last },
          escapePunctuation left) := by
  obtain ⟨c, s, rfl⟩ := List.exists_cons_of_ne_nil hNe
  have hChar : c ≠ '\n' := ne_of_mem_of_not_mem (List.mem_cons_self ..) hFeed
  cases h : isAsciiPunctuation c with
  | true =>
      refine ⟨'\\', c :: escapePunctuation s, [c], s, some c, escapePunctuation_of_punctuation h s,
        rfl, Nat.le_succ _, ?_⟩
      rw [inlineStep, if_pos rfl]
      · exact if_pos h
      · exact hChar
  | false =>
      have hPlain := plainText_escapePunctuation hFeed state
      rw [escapePunctuation_of_plain h] at hPlain
      refine ⟨c, escapePunctuation s, _, _, _, escapePunctuation_of_plain h s,
        List.takeWhile_append_dropWhile (p := fun c => !isAsciiPunctuation c), ?_,
        (inlineStep_of_not_isSpecial (isSpecial_of_plain h hChar) _ _).trans hPlain⟩
      rw [List.dropWhile_cons_of_pos (by simp [h]), ← dropWhile_escapePunctuation (by simp)]
      exact (List.dropWhile_sublist _).length_le

/-- Reading the line gives its pieces one after the other. -/
theorem readInlines_escapePunctuation (gfm : Bool) (definitions : Definitions) {fuel : Nat}
    (hFuel : (escapePunctuation s).length ≤ fuel) (hFeed : '\n' ∉ s) (state : InlineState)
    (hState : state.brackets = []) :
    ∃ values : List Text, values.flatten = s ∧
      (readInlines gfm definitions fuel state (escapePunctuation s)).allPieces =
        ((values.map Inline.text).map Piece.node).reverse ++ state.pieces := by
  induction fuel generalizing s state with
  | zero =>
      have hLength := (length_le_escapePunctuation s).trans hFuel
      obtain rfl := List.eq_nil_of_length_eq_zero (Nat.le_zero.1 hLength)
      exact ⟨[], rfl, allPieces_readInlines_nil 0 hState⟩
  | succ fuel ih =>
      by_cases hNe : s = []
      · rw [hNe]
        exact ⟨[], rfl, allPieces_readInlines_nil _ hState⟩
      · obtain ⟨c, rest, value, left, last, hCons, rfl, hLength, hStep⟩ :=
          inlineStep_escapePunctuation gfm definitions hNe hFeed state
        rw [hCons, List.length_cons] at hFuel
        obtain ⟨values, rfl, hRead⟩ := ih (hLength.trans (Nat.le_of_succ_le_succ hFuel))
          (fun hMem => hFeed (List.mem_append_right _ hMem))
          { state with pieces := .node (.text value) :: state.pieces, last } hState
        refine ⟨value :: values, rfl, ?_⟩
        rw [hCons, readInlines, hStep, hRead]
        simp

/-- The inline content of the line is text. -/
theorem inlines_escapePunctuation (gfm : Bool) (definitions : Definitions) (h : IsPrintedLine s) :
    ∃ values : List Text, values.flatten = s ∧
      inlines gfm definitions (escapePunctuation s) = values.map .text := by
  have hFeed : '\n' ∉ s := fun hMem => absurd (h.printed _ hMem) (by decide)
  have hStart : ∀ c ∈ (escapePunctuation s).head?, isAsciiBlank c = false := by
    intro c hMem
    rcases head?_escapePunctuation hMem with rfl | ⟨-, hMem⟩
    · rfl
    · exact isAsciiBlank_of_solid (h.startsSolid c hMem)
  have hEnd : ∀ c ∈ (escapePunctuation s).getLast?, isAsciiBlank c = false := by
    intro c hMem
    rw [getLast?_escapePunctuation] at hMem
    exact isAsciiBlank_of_solid (h.endsSolid c hMem)
  obtain ⟨values, hValues, hRead⟩ := readInlines_escapePunctuation gfm definitions
    (Nat.le_refl (escapePunctuation s).length) hFeed {} rfl
  refine ⟨values, hValues, ?_⟩
  have hNew : ({} : InlineState).pieces = [] := rfl
  rw [inlines_of_solid gfm definitions hStart hEnd, hRead, hNew, List.append_nil,
    List.reverse_reverse, emphasize_nodes]

/-- As a source the line is one paragraph, and no definition is known to it. -/
theorem structureOf_escapePunctuation (gfm : Bool) (h : IsPrintedLine s) {ending : Text}
    (hEnding : ending = [] ∨ ending = ['\n']) :
    structureOf gfm (escapePunctuation s ++ ending) = ([.paragraph (escapePunctuation s)], []) := by
  obtain ⟨hLine, hRead⟩ := isTextLine_escapePunctuation h
  have hStart := h.startsPlain []
  rw [List.append_nil] at hStart
  rw [structureOf_line hLine (by rw [hRead]; exact head?_ne_of_startsPlain hStart) hEnding, hRead]

end Inlines

end Markdown

end DirectiveMarkdown
