import DirectiveMarkdown.Html.Writer

/-! Escaped text: the characters that it does not hold, and how it is read back. -/
namespace DirectiveMarkdown

/-- The character at the start of an escaped text, written as an escape or as itself, and the text
after it. -/
def escapedChar? : Text → Option (Char × Text)
  | '&' :: 'a' :: 'm' :: 'p' :: ';' :: rest => some ('&', rest)
  | '&' :: 'l' :: 't' :: ';' :: rest => some ('<', rest)
  | '&' :: 'g' :: 't' :: ';' :: rest => some ('>', rest)
  | '&' :: 'q' :: 'u' :: 'o' :: 't' :: ';' :: rest => some ('"', rest)
  | '&' :: '#' :: 'x' :: '2' :: '7' :: ';' :: rest => some ('\'', rest)
  | c :: rest => some (c, rest)
  | [] => none

def unescapeHtmlUpTo : Nat → Text → Text
  | 0, _ => []
  | fuel + 1, s =>
    match escapedChar? s with
    | some (c, rest) => c :: unescapeHtmlUpTo fuel rest
    | none => []

def unescapeHtml (s : Text) : Text := unescapeHtmlUpTo s.length s

theorem escapeHtml_cons (c : Char) (s : Text) :
    escapeHtml (c :: s) = escapeChar c ++ escapeHtml s := rfl

/-- What an escape is depends on the character alone: one of five texts, or the character. -/
theorem escapeChar_cases (c : Char) :
    (c = '&' ∧ escapeChar c = text "&amp;") ∨ (c = '<' ∧ escapeChar c = text "&lt;") ∨
      (c = '>' ∧ escapeChar c = text "&gt;") ∨ (c = '"' ∧ escapeChar c = text "&quot;") ∨
      (c = '\'' ∧ escapeChar c = text "&#x27;") ∨
      (c ≠ '&' ∧ c ≠ '<' ∧ c ≠ '>' ∧ c ≠ '"' ∧ c ≠ '\'' ∧ escapeChar c = [c]) := by
  unfold escapeChar
  split
  · simp_all
  · split
    · simp_all
    · split
      · simp_all
      · split
        · simp_all
        · split <;> simp_all

theorem escapedChar?_cons {c : Char} (h : c ≠ '&') (rest : Text) :
    escapedChar? (c :: rest) = some (c, rest) := by
  unfold escapedChar?
  split <;> simp_all

/-- A written character is read back, whatever follows it. -/
theorem escapedChar?_append (c : Char) (rest : Text) :
    escapedChar? (escapeChar c ++ rest) = some (c, rest) := by
  rcases escapeChar_cases c with
    ⟨rfl, h⟩ | ⟨rfl, h⟩ | ⟨rfl, h⟩ | ⟨rfl, h⟩ | ⟨rfl, h⟩ | ⟨hAmp, -, -, -, -, h⟩
  · rw [h]; rfl
  · rw [h]; rfl
  · rw [h]; rfl
  · rw [h]; rfl
  · rw [h]; rfl
  · rw [h, List.singleton_append, escapedChar?_cons hAmp]

/-- Escapes are undone, given fuel for every character. -/
theorem unescapeHtmlUpTo_escapeHtml {fuel : Nat} {s : Text} (h : s.length ≤ fuel) :
    unescapeHtmlUpTo fuel (escapeHtml s) = s := by
  induction s generalizing fuel with
  | nil => cases fuel <;> rfl
  | cons c s ih =>
      obtain ⟨fuel, rfl⟩ : ∃ fewer, fuel = fewer + 1 := ⟨fuel - 1, by simp at h; omega⟩
      rw [escapeHtml_cons, unescapeHtmlUpTo, escapedChar?_append]
      dsimp only
      rw [ih (by simpa using h)]

theorem escapeChar_ne_nil (c : Char) : escapeChar c ≠ [] := by
  rcases escapeChar_cases c with ⟨-, h⟩ | ⟨-, h⟩ | ⟨-, h⟩ | ⟨-, h⟩ | ⟨-, h⟩ | ⟨-, -, -, -, -, h⟩ <;>
    simp [h, text]

/-- Escaping never makes a text shorter. -/
theorem length_le_length_escapeHtml (s : Text) : s.length ≤ (escapeHtml s).length := by
  induction s with
  | nil => exact Nat.zero_le _
  | cons c s ih =>
      have hChar := List.length_pos_iff.2 (escapeChar_ne_nil c)
      rw [escapeHtml_cons, List.length_append, List.length_cons]
      omega

/-- Escaping loses nothing. -/
theorem unescapeHtml_escapeHtml (s : Text) : unescapeHtml (escapeHtml s) = s :=
  unescapeHtmlUpTo_escapeHtml (length_le_length_escapeHtml s)

/-- The characters that end texts and quoted values are all escaped. -/
theorem not_delimiter_of_mem_escapeChar {c d : Char} (h : d ∈ escapeChar c) :
    d ≠ '<' ∧ d ≠ '>' ∧ d ≠ '"' ∧ d ≠ '\'' := by
  have hNone : ∀ s : Text,
      (s.all fun d => d != '<' && d != '>' && d != '"' && d != '\'') = true →
      ∀ d ∈ s, d ≠ '<' ∧ d ≠ '>' ∧ d ≠ '"' ∧ d ≠ '\'' := by
    intro s hAll d hMem
    simpa [and_assoc] using List.all_eq_true.1 hAll d hMem
  rcases escapeChar_cases c with
    ⟨-, hEscape⟩ | ⟨-, hEscape⟩ | ⟨-, hEscape⟩ | ⟨-, hEscape⟩ | ⟨-, hEscape⟩ |
      ⟨-, hLess, hGreater, hQuote, hApostrophe, hEscape⟩
  case inr.inr.inr.inr.inr =>
    rw [hEscape, List.mem_singleton] at h
    subst h
    exact ⟨hLess, hGreater, hQuote, hApostrophe⟩
  all_goals
    rw [hEscape] at h
    exact hNone _ (by decide) d h

/-- Escaped text holds neither angle brackets nor quotation marks. -/
theorem not_delimiter_of_mem_escapeHtml {s : Text} {d : Char} (h : d ∈ escapeHtml s) :
    d ≠ '<' ∧ d ≠ '>' ∧ d ≠ '"' ∧ d ≠ '\'' := by
  obtain ⟨c, -, hChar⟩ := List.mem_flatMap.1 h
  exact not_delimiter_of_mem_escapeChar hChar

end DirectiveMarkdown
