import DirectiveMarkdown.Proofs.Markdown.InlineSteps

/-! The text of a link label read as inline content. The closing bracket of the label is the next bracket
that is read, since the label holds no other that is not escaped, and since no code, HTML or character
reference that starts inside the label reaches beyond its end. -/
namespace DirectiveMarkdown.Markdown

variable {s label tail : Text}

/-- A label is what stands in front of its closing bracket. -/
theorem eq_of_labelBody? (h : labelBody? s = some (label, tail)) : s = label ++ ']' :: tail := by
  fun_induction labelBody? s generalizing label with
  | case1 => cases h
  | case2 c rest ih =>
      obtain ⟨⟨inner, after⟩, hRest, hEq⟩ := Option.map_eq_some_iff.1 h
      cases hEq
      rw [ih hRest]
      rfl
  | case3 rest =>
      cases h
      rfl
  | case4 => cases h
  | case5 c rest _ _ _ ih =>
      obtain ⟨⟨inner, after⟩, hRest, hEq⟩ := Option.map_eq_some_iff.1 h
      cases hEq
      rw [ih hRest]
      rfl

/-- A label ends at the same place if it is read from behind one of its characters, unless this is a
backslash, which may escape the character after it. -/
theorem labelBody?_of_suffix {c : Char} {after : Text} (h : labelBody? s = some (label, tail))
    (hSuffix : (c :: after) <:+ s) (hEscape : c ≠ '\\') (hTail : tail.length < after.length) :
    ∃ left, labelBody? after = some (left, tail) := by
  fun_induction labelBody? s generalizing label with
  | case1 => cases h
  | case2 d rest ih =>
      obtain ⟨inner, hRest⟩ := exists_of_map h fun _ => rfl
      rcases List.suffix_cons_iff.1 hSuffix with hEq | hSuffix
      · exact absurd (List.cons.inj hEq).1 hEscape
      · rcases List.suffix_cons_iff.1 hSuffix with hEq | hSuffix
        · rw [(List.cons.inj hEq).2]
          exact ⟨inner, hRest⟩
        · exact ih hRest hSuffix
  | case3 rest =>
      cases h
      have hLength := hSuffix.length_le
      simp only [List.length_cons] at hLength
      omega
  | case4 => cases h
  | case5 d rest _ _ _ ih =>
      obtain ⟨inner, hRest⟩ := exists_of_map h fun _ => rfl
      rcases List.suffix_cons_iff.1 hSuffix with hEq | hSuffix
      · rw [(List.cons.inj hEq).2]
        exact ⟨inner, hRest⟩
      · exact ih hRest hSuffix

/-- What stands before the end of a label and is not found from there on ends inside the label. -/
theorem length_lt_of_suffix {c : Char} {after : Text} (h : labelBody? s = some (label, tail))
    (hSuffix : (c :: after) <:+ s) (hMem : c ∉ ']' :: tail) : tail.length < after.length := by
  have hEnd : (']' :: tail) <:+ s := ⟨label, (eq_of_labelBody? h).symm⟩
  rcases List.suffix_or_suffix_of_suffix hSuffix hEnd with hInside | hInside
  · exact absurd (hInside.subset (List.mem_cons_self ..)) hMem
  · rcases List.suffix_cons_iff.1 hInside with hEq | hInside
    · rw [hEq] at hMem
      exact absurd (List.mem_cons_self ..) hMem
    · have hLength := hInside.length_le
      exact hLength

/-- A run of characters inside a label, none of which is a backslash or ends it. -/
theorem labelBody?_dropWhile {p : Char → Bool} (h : labelBody? s = some (label, tail))
    (hEscape : p '\\' = false) (hEnd : p ']' = false) :
    ∃ left, labelBody? (s.dropWhile p) = some (left, tail) := by
  by_cases hRun : s.takeWhile p = []
  · have hSelf : s.dropWhile p = s := by
      have hBoth := List.takeWhile_append_dropWhile (p := p) (l := s)
      rwa [hRun, List.nil_append] at hBoth
    rw [hSelf]
    exact ⟨label, h⟩
  · obtain ⟨c, hKind, hSuffix⟩ := exists_cons_dropWhile_suffix hRun
    refine labelBody?_of_suffix h hSuffix ?_ ?_
    · rintro rfl
      rw [hEscape] at hKind
      cases hKind
    · rw [eq_of_labelBody? h, List.dropWhile_append]
      split
      · rw [List.dropWhile_cons_of_neg (by simp [hEnd])]
        exact Nat.lt_succ_self _
      · rw [List.length_append, List.length_cons]
        omega

/-- The text holds no character that code, HTML or a character reference can end with. -/
def EndsNothing (tail : Text) : Prop := ∀ c ∈ tail, c ≠ '\x60' ∧ c ≠ '>' ∧ c ≠ ';'

theorem EndsNothing.not_mem (h : EndsNothing tail) {c : Char} (hBracket : c ≠ ']')
    (hEnd : c = '\x60' ∨ c = '>' ∨ c = ';') : c ∉ ']' :: tail := by
  intro hMem
  obtain ⟨hTick, hAngle, hSemicolon⟩ := h c ((List.mem_cons.1 hMem).resolve_left hBracket)
  rcases hEnd with hEnd | hEnd | hEnd
  · exact hTick hEnd
  · exact hAngle hEnd
  · exact hSemicolon hEnd

/-- One step goes on before or in `rest` inside a label that `tail` follows: it adds pieces and leaves
the open brackets as they are. -/
structure InlineState.ReadsLabel (state : InlineState) (rest tail : Text)
    (result : InlineState × Text) : Prop where
  brackets : result.1.brackets = state.brackets
  pieces : ∃ more, result.1.pieces = more ++ state.pieces
  label : ∃ left, labelBody? result.2 = some (left, tail)
  suffix : result.2 <:+ rest

section Step

variable {gfm : Bool} {definitions : Definitions} {state : InlineState} {c : Char} {rest : Text}

/-- One node more, which ends right before a text that the label goes on with. -/
theorem InlineState.ReadsLabel.push {after : Text} (node : Inline) (last : Char)
    (hLabel : ∃ left, labelBody? after = some (left, tail)) (hSuffix : after <:+ rest) :
    state.ReadsLabel rest tail (state.push node last, after) where
  brackets := rfl
  pieces := ⟨[.node node], rfl⟩
  label := hLabel
  suffix := hSuffix

/-- After a character that the label goes on with. -/
theorem labelBody?_tail (h : labelBody? (c :: rest) = some (label, tail)) (hMore : c ≠ ']')
    (hEscape : c ≠ '\\') : c ≠ '[' ∧ ∃ left, labelBody? rest = some (left, tail) := by
  rw [labelBody?] at h
  · rw [if_neg hMore] at h
    split at h
    · cases h
    · next hOpen => exact ⟨hOpen, exists_of_map h fun _ => rfl⟩
  · rintro d other rfl
    exact absurd rfl hEscape

/-- A backslash and the character after it. The label goes on after both, and after the backslash if
this escapes nothing. -/
theorem labelBody?_escape (h : labelBody? ('\\' :: rest) = some (label, tail)) :
    ∃ next after, rest = next :: after ∧ (∃ left, labelBody? after = some (left, tail)) ∧
      (isAsciiPunctuation next = false → ∃ left, labelBody? rest = some (left, tail)) := by
  cases rest with
  | nil => cases h
  | cons next after =>
      obtain ⟨left, hLeft⟩ := exists_of_map h fun _ => rfl
      refine ⟨next, after, rfl, ⟨left, hLeft⟩, fun hPlain => ⟨next :: left, ?_⟩⟩
      have hNe {mark : Char} (hMark : isAsciiPunctuation mark = true) : next ≠ mark := by
        rintro rfl
        rw [hMark] at hPlain
        cases hPlain
      rw [labelBody?, if_neg (hNe (by decide)), if_neg (hNe (by decide)), hLeft]
      · rfl
      · rintro d other hEq
        exact absurd hEq (hNe (by decide))

/-- One node more, for what is read up to a character that ends code, HTML or a character reference: as
the tail holds none, this character stands in the label. -/
theorem InlineState.ReadsLabel.push_found {d : Char} {after : Text} (node : Inline) (last : Char)
    (h : labelBody? (c :: rest) = some (label, tail)) (hTail : EndsNothing tail)
    (hSuffix : (d :: after) <:+ rest) (hEnd : d = '\x60' ∨ d = '>' ∨ d = ';') :
    state.ReadsLabel rest tail (state.push node last, after) := by
  have hOther : d ≠ ']' ∧ d ≠ '\\' := by
    rcases hEnd with rfl | rfl | rfl <;> decide
  have hWhole := hSuffix.trans (List.suffix_cons c rest)
  have hInside := length_lt_of_suffix h hWhole (hTail.not_mem hOther.1 hEnd)
  exact .push node last (labelBody?_of_suffix h hWhole hOther.2 hInside)
    ((List.suffix_cons d after).trans hSuffix)

/-- A run of characters from the first one on, none of which is a backslash or ends the label. -/
theorem labelBody?_run {p : Char → Bool} (h : labelBody? (c :: rest) = some (label, tail))
    (hFirst : p c = true) (hEscape : p '\\' = false) (hEnd : p ']' = false) :
    (∃ left, labelBody? ((c :: rest).dropWhile p) = some (left, tail)) ∧
      (c :: rest).dropWhile p <:+ rest := by
  refine ⟨labelBody?_dropWhile h hEscape hEnd, ?_⟩
  rw [List.dropWhile_cons_of_pos hFirst]
  exact List.dropWhile_suffix p

/-- Inside a label one step of reading stays inside it. -/
theorem readsLabel_inlineStep (h : labelBody? (c :: rest) = some (label, tail))
    (hMore : c ≠ ']') (hFeed : '\n' ∉ c :: rest) (hTail : EndsNothing tail) :
    state.ReadsLabel rest tail (inlineStep gfm definitions state c rest) := by
  have hRead := inlineRead_inlineStep gfm definitions state c rest
  generalize inlineStep gfm definitions state c rest = result at hRead
  cases hRead with
  | hardBreak =>
      exact absurd (List.mem_cons_of_mem _ (List.mem_cons_self ..)) hFeed
  | escape after =>
      obtain ⟨_, _, hEq, hAfter, -⟩ := labelBody?_escape h
      obtain ⟨rfl, rfl⟩ := List.cons.inj hEq
      exact .push _ _ hAfter (List.suffix_cons _ _)
  | softBreak => exact absurd (List.mem_cons_self ..) hFeed
  | code hCode =>
      have hSuffix := codeEnd?_suffix (by simp) hCode
      rw [List.dropWhile_cons_of_pos rfl] at hSuffix
      exact .push_found _ _ h hTail (hSuffix.trans (List.dropWhile_suffix _)) (.inl rfl)
  | backticks =>
      obtain ⟨hLabel, hInside⟩ := labelBody?_run (p := (· == '\x60')) h rfl rfl rfl
      exact .push _ _ hLabel hInside
  | autolink hLink =>
      exact .push_found _ _ h hTail ⟨_, (eq_of_autolink? hLink).symm⟩ (.inr (.inl rfl))
  | html hHtml => exact .push_found _ _ h hTail (inlineHtml?_suffix hHtml) (.inr (.inl rfl))
  | reference hReference =>
      exact .push_found _ _ h hTail (characterReference?_suffix hReference).2 (.inr (.inr rfl))
  | delimiters _ hDelimiter =>
      have hOther : c ≠ '\\' ∧ c ≠ ']' := by
        constructor <;> rintro rfl <;> exact absurd hDelimiter (by decide)
      obtain ⟨hLabel, hInside⟩ := labelBody?_run (p := (· == c)) h (by simp)
        (by simp [hOther.1.symm]) (by simp [hOther.2.symm])
      exact ⟨rfl, ⟨[_], rfl⟩, hLabel, hInside⟩
  | image =>
      obtain ⟨left, hLeft⟩ := (labelBody?_tail h (by decide) (by decide)).2
      cases hLeft
  | openBracket => exact absurd rfl (labelBody?_tail h (by decide) (by decide)).1
  | closeBracket => exact absurd rfl hMore
  | mark _ _ hPunctuation =>
      refine .push _ _ ?_ (List.suffix_refl _)
      by_cases hEscape : c = '\\'
      · subst hEscape
        obtain ⟨next, after, rfl, -, hRest⟩ := labelBody?_escape h
        exact hRest (hPunctuation rfl next rfl)
      · exact (labelBody?_tail h hMore hEscape).2
  | plain _ hSpecial =>
      obtain ⟨hLabel, hInside⟩ := labelBody?_run (p := fun c => !isSpecial c) h
        (by simp [hSpecial]) rfl rfl
      rw [plainText_of_oneLine hFeed]
      exact ⟨rfl, ⟨[_], rfl⟩, hLabel, hInside⟩

end Step

/-- Reading comes to the end of the label with the open brackets as they were. -/
theorem readInlines_label (gfm : Bool) (definitions : Definitions) {fuel : Nat}
    (h : labelBody? s = some (label, tail)) (hFeed : '\n' ∉ s) (hTail : EndsNothing tail)
    (hFuel : s.length ≤ fuel) (state : InlineState) :
    ∃ left more last, tail.length < left ∧
      readInlines gfm definitions fuel state s =
        readInlines gfm definitions left ⟨state.brackets, more ++ state.pieces, last⟩
          (']' :: tail) := by
  induction fuel generalizing s label state with
  | zero =>
      obtain rfl := List.eq_nil_of_length_eq_zero (Nat.le_zero.1 hFuel)
      cases h
  | succ fuel ih =>
      cases s with
      | nil => cases h
      | cons c rest =>
          by_cases hEnd : c = ']'
          · subst hEnd
            obtain ⟨rfl, rfl⟩ : [] = label ∧ rest = tail := by simpa [labelBody?] using h
            exact ⟨fuel + 1, [], state.last, hFuel, rfl⟩
          · have hStep : state.ReadsLabel rest tail (inlineStep gfm definitions state c rest) :=
              readsLabel_inlineStep h hEnd hFeed hTail
            obtain ⟨more, hPieces⟩ := hStep.pieces
            obtain ⟨left, hLabel⟩ := hStep.label
            have hRest : '\n' ∉ (inlineStep gfm definitions state c rest).2 := fun hMem =>
              hFeed (List.mem_cons_of_mem _ (hStep.suffix.subset hMem))
            obtain ⟨left, later, last, hLeft, hRead⟩ := ih hLabel hRest
              (Nat.le_trans hStep.suffix.length_le (Nat.le_of_succ_le_succ hFuel))
              (inlineStep gfm definitions state c rest).1
            refine ⟨left, later ++ more, last, hLeft, ?_⟩
            rw [hStep.brackets, hPieces, ← List.append_assoc] at hRead
            exact hRead

end DirectiveMarkdown.Markdown
