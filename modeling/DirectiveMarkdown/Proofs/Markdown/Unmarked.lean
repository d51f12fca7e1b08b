import DirectiveMarkdown.Proofs.Markdown.Pairing
import DirectiveMarkdown.Proofs.Markdown.Readers

/-! Inline content without marks, in which a closing bracket comes at the very end. Its brackets make no
link, since nothing defines one and no destination follows the closing one. So all of it is text. -/
namespace DirectiveMarkdown.Markdown

/-- Of the characters at which plain text stops, the text holds no others than exclamation marks and
opening brackets. -/
def IsUnmarked (s : Text) : Prop := ∀ c ∈ s, isSpecial c = true → c = '!' ∨ c = '['

namespace InlineState

/-- The last piece that was read is the first of all pieces. -/
theorem allPieces_cons (brackets : List Bracket) (piece : Piece) (pieces : List Piece)
    (last other : Option Char) :
    allPieces ⟨brackets, piece :: pieces, last⟩ = piece :: allPieces ⟨brackets, pieces, other⟩ := by
  induction brackets generalizing pieces with
  | nil => rfl
  | cons bracket outer ih => exact ih (pieces ++ bracket.piece :: bracket.before)

/-- An opening bracket is text as long as it is open. -/
theorem allPieces_openBracket (state : InlineState) (image : Bool) (source : Text) :
    (state.openBracket image source).allPieces =
      .node (.text (if image then ['!', '['] else ['['])) :: state.allPieces := by
  obtain ⟨brackets, pieces, last⟩ := state
  rcases brackets with _ | ⟨bracket, outer⟩
  · rfl
  · exact allPieces_cons outer _ (pieces ++ bracket.piece :: bracket.before) none none

/-- Where no link is defined, a closing bracket at the end is text. -/
theorem closeBracket_nil (state : InlineState) :
    (closeBracket [] state []).2 = [] ∧
      (closeBracket [] state []).1.allPieces = .node (.text [']']) :: state.allPieces := by
  obtain ⟨brackets, pieces, last⟩ := state
  rcases brackets with _ | ⟨bracket, outer⟩
  · exact ⟨rfl, rfl⟩
  · have hNone : linkTarget? [] bracket [] = none := by
      have hInline : inlineTarget? [] = none := rfl
      have hLabel : linkLabel? [] = none := rfl
      simp [linkTarget?, hInline, hLabel, Definitions.find?]
    rw [closeBracket]
    simp only [hNone, ite_self]
    exact ⟨trivial, allPieces_cons outer _ _ none none⟩

end InlineState

section

variable {s : Text}

/-- An exclamation mark is text, and so is the bracket after it that starts an image. -/
theorem inlineStep_exclamation (gfm : Bool) (state : InlineState) (rest : Text) :
    (∃ after, rest = '[' :: after ∧
      inlineStep gfm [] state '!' rest = (state.openBracket true after, after)) ∨
      inlineStep gfm [] state '!' rest = (state.push (.text ['!']) '!', rest) := by
  cases rest with
  | nil => exact .inr rfl
  | cons c after =>
      by_cases hBracket : c = '['
      · rw [hBracket]
        exact .inl ⟨after, rfl, rfl⟩
      · exact .inr (by simp [inlineStep, hBracket])

/-- One step before the closing bracket reads some text. -/
theorem inlineStep_unmarked (gfm : Bool) {c : Char} {rest : Text} (h : IsUnmarked (c :: rest))
    (state : InlineState) :
    ∃ value left, value ++ left = c :: rest ∧ left.length ≤ rest.length ∧
      (inlineStep gfm [] state c (rest ++ [']'])).2 = left ++ [']'] ∧
      (inlineStep gfm [] state c (rest ++ [']'])).1.allPieces =
        .node (.text value) :: state.allPieces := by
  have hFeed : '\n' ∉ c :: (rest ++ [']']) := by
    intro hMem
    rw [← List.cons_append, List.mem_append] at hMem
    rcases hMem with hMem | hMem
    · exact absurd (h '\n' hMem rfl) (by decide)
    · exact absurd hMem (by decide)
  cases hSpecial : isSpecial c with
  | true =>
      rcases h c (List.mem_cons_self ..) hSpecial with rfl | rfl
      · obtain ⟨after, hImage, hStep⟩ | hStep :=
          inlineStep_exclamation gfm state (rest ++ [']'])
        · cases rest with
          | nil => cases hImage
          | cons d rest =>
              obtain ⟨rfl, rfl⟩ := List.cons.inj hImage
              rw [hStep]
              exact ⟨['!', '['], rest, rfl, Nat.le_succ _, rfl, state.allPieces_openBracket true _⟩
        · rw [hStep]
          exact ⟨['!'], rest, rfl, Nat.le_refl _, rfl,
            InlineState.allPieces_cons _ _ _ _ state.last⟩
      · exact ⟨['['], rest, rfl, Nat.le_refl _, rfl, state.allPieces_openBracket false _⟩
  | false =>
      have hMark : (!isSpecial ']') = false := rfl
      obtain ⟨hTake, hDrop⟩ :=
        Text.takeWhile_append_mark (p := fun c => !isSpecial c) hMark (c :: rest) []
      refine ⟨(c :: rest).takeWhile fun c => !isSpecial c, (c :: rest).dropWhile fun c => !isSpecial c,
        List.takeWhile_append_dropWhile, ?_, ?_, ?_⟩
      · rw [List.dropWhile_cons_of_pos (by simp [hSpecial])]
        exact (List.dropWhile_sublist _).length_le
      · rw [inlineStep_of_not_isSpecial hSpecial, plainText_of_oneLine hFeed]
        exact hDrop
      · rw [inlineStep_of_not_isSpecial hSpecial, plainText_of_oneLine hFeed,
          InlineState.allPieces_cons _ _ _ _ state.last]
        exact congrArg (fun value => Piece.node (.text value) :: state.allPieces) hTake

/-- Reading the text gives its pieces one after the other. -/
theorem readInlines_unmarked (gfm : Bool) (h : IsUnmarked s) {fuel : Nat} (hFuel : s.length < fuel)
    (state : InlineState) :
    ∃ values : List Text, values.flatten = s ++ [']'] ∧
      (readInlines gfm [] fuel state (s ++ [']'])).allPieces =
        ((values.map Inline.text).map Piece.node).reverse ++ state.allPieces := by
  induction fuel generalizing s state with
  | zero => exact absurd hFuel (Nat.not_lt_zero _)
  | succ fuel ih =>
      cases s with
      | nil =>
          obtain ⟨hRest, hPieces⟩ := state.closeBracket_nil
          have hStep : readInlines gfm [] (fuel + 1) state [']'] =
              readInlines gfm [] fuel (closeBracket [] state []).1 (closeBracket [] state []).2 := rfl
          refine ⟨[[']']], rfl, ?_⟩
          rw [List.nil_append, hStep, hRest]
          cases fuel <;> exact hPieces
      | cons c rest =>
          obtain ⟨value, left, hBoth, hLength, hRest, hPieces⟩ :=
            inlineStep_unmarked gfm h state
          have hLeft : IsUnmarked left := fun d hMem =>
            h d (hBoth ▸ List.mem_append_right value hMem)
          have hLess : left.length < fuel :=
            Nat.lt_of_le_of_lt hLength (Nat.lt_of_succ_lt_succ hFuel)
          obtain ⟨values, hValues, hRead⟩ := ih hLeft hLess
            (inlineStep gfm [] state c (rest ++ [']'])).1
          refine ⟨value :: values, ?_, ?_⟩
          · rw [List.flatten_cons, hValues, ← List.append_assoc, hBoth]
          · rw [hPieces, ← hRest] at hRead
            rw [List.cons_append, readInlines]
            refine hRead.trans ?_
            simp

/-- The inline content of the text is text, if the text starts with no white space. -/
theorem inlines_unmarked (gfm : Bool) (h : IsUnmarked s)
    (hStart : ∀ c ∈ s.head?, isAsciiBlank c = false) :
    ∃ values : List Text, values.flatten = s ++ [']'] ∧
      inlines gfm [] (s ++ [']']) = values.map .text := by
  have hLength : s.length < (s ++ [']']).length := by simp
  obtain ⟨values, hValues, hRead⟩ := readInlines_unmarked gfm h hLength {}
  have hHead : ∀ c ∈ (s ++ [']']).head?, isAsciiBlank c = false := by
    intro c hMem
    cases s with
    | nil =>
        obtain rfl : ']' = c := Option.some.inj hMem
        rfl
    | cons d s => exact hStart c hMem
  have hLast : ∀ c ∈ (s ++ [']']).getLast?, isAsciiBlank c = false := by
    intro c hMem
    rw [List.getLast?_concat] at hMem
    cases hMem
    rfl
  refine ⟨values, hValues, ?_⟩
  have hNew : ({} : InlineState).allPieces = [] := rfl
  rw [inlines_of_solid gfm [] hHead hLast, hRead, hNew, List.append_nil, List.reverse_reverse,
    emphasize_nodes]

end

end DirectiveMarkdown.Markdown
