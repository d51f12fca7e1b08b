import DirectiveMarkdown.Markdown.Structure
import DirectiveMarkdown.Markdown.Inline
import DirectiveMarkdown.Proofs.Text.Lines

/-! What the readers of Markdown leave of a text stands in that text. -/
namespace DirectiveMarkdown.Markdown

variable {s read after : Text}

/-- A reader that only changes what another one read leaves what the other one left. -/
theorem exists_of_map {α β : Type} {f : α × Text → β × Text} {found : Option (α × Text)} {made : β}
    (h : found.map f = some (made, after)) (hf : ∀ pair, (f pair).2 = pair.2) :
    ∃ read, found = some (read, after) := by
  obtain ⟨⟨read, left⟩, hFound, hEq⟩ := Option.map_eq_some_iff.1 h
  have hLeft := hf (read, left)
  rw [hEq] at hLeft
  have hLeft : after = left := hLeft
  exact ⟨read, by rw [hFound, hLeft]⟩

theorem pointyDestination?_sublist (h : pointyDestination? s = some (read, after)) :
    after.Sublist s := by
  fun_induction pointyDestination? s generalizing read with
  | case1 => cases h
  | case2 rest =>
      cases h
      exact List.sublist_cons_self ..
  | case3 => cases h
  | case4 c rest _ ih =>
      obtain ⟨read, hRest⟩ := exists_of_map h fun _ => rfl
      exact ((ih hRest).cons _).cons _
  | case5 => cases h
  | case6 c rest _ _ _ ih =>
      obtain ⟨read, hRest⟩ := exists_of_map h fun _ => rfl
      exact (ih hRest).cons _

theorem plainDestination?_sublist {depth : Nat}
    (h : plainDestination? depth s = some (read, after)) : after.Sublist s := by
  fun_induction plainDestination? depth s generalizing read with
  | case1 =>
      cases h
      exact List.Sublist.refl _
  | case2 => cases h
  | case3 depth c rest _ ih =>
      obtain ⟨read, hRest⟩ := exists_of_map h fun _ => rfl
      exact ((ih hRest).cons _).cons _
  | case4 c rest =>
      cases h
      exact List.sublist_cons_self ..
  | case5 => cases h
  | case6 depth c rest _ _ ih =>
      obtain ⟨read, hRest⟩ := exists_of_map h fun _ => rfl
      exact (ih hRest).cons _
  | case7 c rest =>
      cases h
      exact List.Sublist.refl _
  | case8 => cases h
  | case9 => cases h
  | case10 depth rest _ _ _ ih =>
      obtain ⟨read, hRest⟩ := exists_of_map h fun _ => rfl
      exact (ih hRest).cons _
  | case11 rest =>
      cases h
      exact List.Sublist.refl _
  | case12 rest depth _ _ _ ih =>
      obtain ⟨read, hRest⟩ := exists_of_map h fun _ => rfl
      exact (ih hRest).cons _
  | case13 depth c rest _ _ _ _ ih =>
      obtain ⟨read, hRest⟩ := exists_of_map h fun _ => rfl
      exact (ih hRest).cons _

theorem linkDestination?_sublist (h : linkDestination? s = some (read, after)) :
    after.Sublist s := by
  obtain ⟨written, hRead⟩ := exists_of_map h fun _ => rfl
  split at hRead
  · exact (pointyDestination?_sublist hRead).cons _
  · exact plainDestination?_sublist hRead

theorem titleBody?_sublist {opening closing : Char}
    (h : titleBody? opening closing s = some (read, after)) : after.Sublist s := by
  fun_induction titleBody? opening closing s generalizing read with
  | case1 => cases h
  | case2 c rest ih =>
      obtain ⟨read, hRest⟩ := exists_of_map h fun _ => rfl
      exact ((ih hRest).cons _).cons _
  | case3 rest =>
      cases h
      exact List.sublist_cons_self ..
  | case4 => cases h
  | case5 c rest _ _ _ ih =>
      obtain ⟨read, hRest⟩ := exists_of_map h fun _ => rfl
      exact (ih hRest).cons _

theorem linkTitle?_sublist (h : linkTitle? s = some (read, after)) : after.Sublist s := by
  obtain ⟨written, hRead⟩ := exists_of_map h fun _ => rfl
  split at hRead
  · exact (titleBody?_sublist hRead).cons _
  · exact (titleBody?_sublist hRead).cons _
  · exact (titleBody?_sublist hRead).cons _
  · cases hRead

theorem skipBlanks_sublist (s : Text) : (skipBlanks s).Sublist s := List.dropWhile_sublist _

theorem inlineTarget?_sublist {url title : Text} (h : inlineTarget? s = some (url, title, after)) :
    after.Sublist s := by
  unfold inlineTarget? at h
  split at h
  · next rest =>
      obtain ⟨⟨read, afterUrl⟩, hUrl, hTitle⟩ := Option.bind_eq_some_iff.1 h
      have hAfterUrl := ((linkDestination?_sublist hUrl).trans (skipBlanks_sublist rest)).cons '('
      have hStart := (skipBlanks_sublist afterUrl).trans hAfterUrl
      dsimp only at hTitle
      split at hTitle
      · next closed hClosed =>
          cases hTitle
          have hAfter : List.Sublist (')' :: after) (skipBlanks afterUrl) := by
            rw [← hClosed]
            split
            · split
              · next hRead => exact (skipBlanks_sublist _).trans (linkTitle?_sublist hRead)
              · exact List.Sublist.refl _
            · exact List.Sublist.refl _
          exact (List.sublist_cons_self ..).trans (hAfter.trans hStart)
      · cases hTitle
  · cases h

theorem labelBody?_sublist (h : labelBody? s = some (read, after)) : after.Sublist s := by
  fun_induction labelBody? s generalizing read with
  | case1 => cases h
  | case2 c rest ih =>
      obtain ⟨read, hRest⟩ := exists_of_map h fun _ => rfl
      exact ((ih hRest).cons _).cons _
  | case3 rest =>
      cases h
      exact List.sublist_cons_self ..
  | case4 => cases h
  | case5 c rest _ _ _ ih =>
      obtain ⟨read, hRest⟩ := exists_of_map h fun _ => rfl
      exact (ih hRest).cons _

theorem linkLabel?_sublist (h : linkLabel? s = some (read, after)) : after.Sublist s := by
  unfold linkLabel? at h
  split at h
  · obtain ⟨⟨label, left⟩, hLabel, hKept⟩ := Option.bind_eq_some_iff.1 h
    dsimp only at hKept
    split at hKept
    · cases hKept
    · cases hKept
      exact (labelBody?_sublist hLabel).cons _
  · cases h

theorem endOfLine?_sublist (h : endOfLine? s = some after) : after.Sublist s := by
  have hRest := List.dropWhile_sublist (l := s) isInlineBlank
  unfold endOfLine? at h
  split at h
  · cases h
    exact List.nil_sublist _
  · next hLine =>
      cases h
      rw [hLine] at hRest
      exact (List.sublist_cons_self ..).trans hRest
  · cases h

theorem definitionTitle?_sublist (h : definitionTitle? s = some (read, after)) :
    after.Sublist s := by
  unfold definitionTitle? at h
  dsimp only at h
  split at h
  · obtain ⟨⟨title, left⟩, hTitle, hEnd⟩ := Option.bind_eq_some_iff.1 h
    obtain ⟨rest, hRest, hEq⟩ := Option.map_eq_some_iff.1 hEnd
    cases hEq
    exact (endOfLine?_sublist hRest).trans
      ((linkTitle?_sublist hTitle).trans (skipBlanks_sublist s))
  · cases h

theorem definition?_sublist {label : Text} {definition : Definition}
    (h : definition? s = some (label, definition, after)) : after.Sublist s := by
  unfold definition? at h
  obtain ⟨⟨written, afterLabel⟩, hLabel, h⟩ := Option.bind_eq_some_iff.1 h
  have hAfterLabel := (linkLabel?_sublist hLabel).trans (List.dropWhile_sublist _)
  dsimp only at h
  split at h
  · next rest =>
      have hStart := (skipBlanks_sublist rest).trans ((List.sublist_cons_self ..).trans hAfterLabel)
      split at h
      · cases h
      · obtain ⟨⟨url, afterUrl⟩, hUrl, h⟩ := Option.bind_eq_some_iff.1 h
        have hAfterUrl := (linkDestination?_sublist hUrl).trans hStart
        dsimp only at h
        split at h
        · cases h
        · split at h
          · next hTitle =>
              cases h
              exact (definitionTitle?_sublist hTitle).trans hAfterUrl
          · obtain ⟨left, hLeft, hEq⟩ := Option.map_eq_some_iff.1 h
            cases hEq
            exact (endOfLine?_sublist hLeft).trans hAfterUrl
  · cases h

/-- What follows the definitions of a paragraph stands in the paragraph. -/
theorem leadingDefinitions_sublist (fuel : Nat) (s : Text) :
    (leadingDefinitions fuel s).2.Sublist s := by
  fun_induction leadingDefinitions fuel s with
  | case1 => exact List.Sublist.refl _
  | case2 fuel s label definition after hDefinition more rest hMore ih =>
      rw [hMore] at ih
      exact ih.trans (definition?_sublist hDefinition)
  | case3 => exact List.Sublist.refl _

/-- The last character of a run at the front of a text stands right before what follows the run. -/
theorem exists_cons_dropWhile_suffix {p : Char → Bool} (h : s.takeWhile p ≠ []) :
    ∃ c, p c = true ∧ (c :: s.dropWhile p) <:+ s := by
  obtain ⟨before, last, hTaken⟩ := (List.eq_nil_or_concat _).resolve_left h
  refine ⟨last, List.all_eq_true.1 List.all_takeWhile last (by rw [hTaken]; simp), before, ?_⟩
  rw [List.append_cons, ← List.concat_eq_append, ← hTaken, List.takeWhile_append_dropWhile]

/-- Code ends with the backticks that close it. -/
theorem codeEnd?_suffix {length fuel : Nat} (hLength : 0 < length)
    (h : codeEnd? length fuel s = some (read, after)) : ('\x60' :: after) <:+ s := by
  fun_induction codeEnd? length fuel s generalizing read with
  | case1 => cases h
  | case2 => cases h
  | case3 fuel s _ =>
      rename_i hRun
      obtain ⟨-, rfl⟩ := Prod.mk.inj (Option.some.inj h)
      have hNe := List.length_pos_iff.1 (Nat.lt_of_lt_of_eq hLength hRun.symm)
      obtain ⟨c, hMark, hSuffix⟩ := exists_cons_dropWhile_suffix hNe
      rw [beq_iff_eq.1 hMark] at hSuffix
      exact hSuffix.trans (List.dropWhile_suffix (· != '\x60'))
  | case4 fuel s =>
      rename_i ih
      obtain ⟨read, hRest⟩ := exists_of_map h fun _ => rfl
      exact (ih hRest).trans ((List.dropWhile_suffix _).trans (List.dropWhile_suffix _))

theorem codeEnd?_sublist {length fuel : Nat} (h : codeEnd? length fuel s = some (read, after)) :
    after.Sublist s := by
  fun_induction codeEnd? length fuel s generalizing read with
  | case1 => cases h
  | case2 => cases h
  | case3 fuel s =>
      obtain ⟨-, rfl⟩ := Prod.mk.inj (Option.some.inj h)
      exact (List.dropWhile_sublist _).trans (List.dropWhile_sublist _)
  | case4 fuel s =>
      rename_i ih
      obtain ⟨read, hRest⟩ := exists_of_map h fun _ => rfl
      exact (ih hRest).trans ((List.dropWhile_sublist _).trans (List.dropWhile_sublist _))

theorem linkTarget?_sublist {definitions : Definitions} {bracket : Bracket} {target : Definition}
    (h : linkTarget? definitions bracket s = some (target, after)) : after.Sublist s := by
  unfold linkTarget? at h
  split at h
  · next hTarget =>
      cases h
      exact inlineTarget?_sublist hTarget
  · split at h
    · next hLabel =>
        obtain ⟨definition, -, hEq⟩ := Option.map_eq_some_iff.1 h
        cases hEq
        exact linkLabel?_sublist hLabel
    · split at h
      · cases h
      · obtain ⟨definition, -, hEq⟩ := Option.map_eq_some_iff.1 h
        cases hEq
        split
        · exact ((List.Sublist.refl _).cons _).cons _
        · exact List.Sublist.refl _

/-- The text after a mark, with the mark in front of it, is an end of the text. -/
theorem after?_suffix {mark : Text} (h : after? mark s = some after) : mark ++ after <:+ s := by
  fun_induction after? mark s with
  | case1 => cases h
  | case2 c rest hPrefix =>
      cases h
      obtain ⟨left, hLeft⟩ := List.isPrefixOf_iff_prefix.1 hPrefix
      have hWhole : mark ++ (c :: rest).drop mark.length = c :: rest := by
        rw [← hLeft, List.drop_left]
      exact ⟨[], hWhole⟩
  | case3 c rest _ ih => exact (ih h).trans (List.suffix_cons c rest)

theorem afterChar?_suffix {mark : Char} (h : afterChar? mark s = some after) :
    (mark :: after) <:+ s := by
  fun_induction afterChar? mark s with
  | case1 => cases h
  | case2 rest =>
      cases h
      exact List.suffix_refl _
  | case3 c rest _ ih => exact (ih h).trans (List.suffix_cons c rest)

theorem attributeRest?_suffix (h : attributeRest? s = some after) : after <:+ s := by
  have hStart := List.dropWhile_suffix (l := s) isAsciiBlank
  unfold attributeRest? at h
  split at h
  · next rest hRest =>
      rw [hRest] at hStart
      refine List.IsSuffix.trans ?_ ((List.dropWhile_suffix isAsciiBlank).trans
        ((List.suffix_cons '=' rest).trans hStart))
      unfold attributeValue? at h
      split at h
      · next hValue =>
          rw [hValue]
          exact (List.suffix_cons _ _).trans ((afterChar?_suffix h).trans (List.suffix_cons _ _))
      · next hValue =>
          rw [hValue]
          exact (List.suffix_cons _ _).trans ((afterChar?_suffix h).trans (List.suffix_cons _ _))
      · split at h
        · cases h
          exact List.dropWhile_suffix _
        · cases h
      · cases h
  · cases h
    exact List.suffix_refl _

/-- The rest of an opening tag ends with its bracket. -/
theorem attributes?_suffix {fuel : Nat} (h : attributes? fuel s = some after) :
    ('>' :: after) <:+ s := by
  induction fuel generalizing s with
  | zero => cases h
  | succ fuel ih =>
      have hStart := List.dropWhile_suffix (l := s) isAsciiBlank
      unfold attributes? at h
      dsimp only at h
      split at h
      · next hRest =>
          cases h
          rw [hRest] at hStart
          exact hStart
      · next hRest =>
          cases h
          rw [hRest] at hStart
          exact (List.suffix_cons _ _).trans hStart
      · next c rest _ _ hRest =>
          split at h
          · obtain ⟨left, hLeft, hMore⟩ := Option.bind_eq_some_iff.1 h
            rw [hRest] at hStart
            exact (ih hMore).trans ((attributeRest?_suffix hLeft).trans
              ((List.dropWhile_suffix _).trans ((List.suffix_cons c rest).trans hStart)))
          · cases h
      · cases h

/-- A tag ends with its bracket. -/
theorem tag?_suffix (h : tag? s = some after) : ('>' :: after) <:+ s := by
  unfold tag? at h
  split at h
  · next c rest =>
      split at h
      · split at h
        · next hEnd =>
            cases h
            have hRest := (List.dropWhile_suffix (l := rest.dropWhile isTagNameChar)
              isAsciiBlank).trans (List.dropWhile_suffix _)
            rw [hEnd] at hRest
            exact hRest.trans ((List.suffix_cons c rest).trans (List.suffix_cons '/' _))
        · cases h
      · cases h
  · next c rest _ =>
      split at h
      · exact (attributes?_suffix h).trans
          ((List.dropWhile_suffix _).trans (List.suffix_cons c rest))
      · cases h
  · cases h

/-- A piece of HTML ends with a closing angle bracket. -/
theorem inlineHtml?_suffix (h : inlineHtml? s = some after) : ('>' :: after) <:+ s := by
  have hMark : ∀ (before : Text) {rest : Text}, after? (before ++ ['>']) rest = some after →
      ('>' :: after) <:+ rest := by
    intro before rest hRest
    have hSuffix := after?_suffix hRest
    rw [List.append_assoc] at hSuffix
    exact (List.suffix_append _ _).trans hSuffix
  unfold inlineHtml? at h
  split at h
  · next rest =>
      refine List.IsSuffix.trans ?_ ((List.suffix_cons '-' rest).trans
        ((List.suffix_cons '-' _).trans (List.suffix_cons '!' _)))
      unfold commentEnd? at h
      split at h
      · cases h
        exact List.suffix_refl _
      · cases h
        exact List.suffix_cons _ _
      · exact hMark (text "--") h
  · exact (hMark (text "?") h).trans (List.suffix_cons _ _)
  · next c rest _ =>
      refine List.IsSuffix.trans ?_ ((List.suffix_cons c rest).trans (List.suffix_cons '!' _))
      split at h
      · exact afterChar?_suffix h
      · split at h
        · exact hMark (text "]]") h
        · cases h
  · exact tag?_suffix h

theorem inlineHtml?_sublist (h : inlineHtml? s = some after) : after.Sublist s :=
  (List.sublist_cons_self ..).trans (inlineHtml?_suffix h).sublist

/-- An address stands between angle brackets. -/
theorem eq_of_autolink? (h : autolink? s = some (read, after)) : s = read ++ '>' :: after := by
  have hBracketed : ∀ {s address : Text}, bracketed? s = some (address, after) →
      s = address ++ '>' :: after := by
    intro s address hRead
    fun_induction bracketed? s generalizing address with
    | case1 => cases hRead
    | case2 rest =>
        cases hRead
        rfl
    | case3 => cases hRead
    | case4 c rest _ _ ih =>
        obtain ⟨⟨inner, left⟩, hInner, hEq⟩ := Option.map_eq_some_iff.1 hRead
        cases hEq
        rw [ih hInner, List.cons_append]
  unfold autolink? at h
  obtain ⟨⟨address, left⟩, hRead, hEq⟩ := Option.bind_eq_some_iff.1 h
  dsimp only at hEq
  split at hEq
  · cases hEq
    exact hBracketed hRead
  · cases hEq

/-- A character reference stands for at most two characters and ends with a semicolon. -/
theorem characterReference?_suffix (h : characterReference? s = some (read, after)) :
    read.length ≤ 2 ∧ (';' :: after) <:+ s := by
  have hDigits : ∀ {isDigit : Char → Bool} {limit : Nat} {s digits : Text},
      referenceDigits? isDigit limit s = some (digits, after) → (';' :: after) <:+ s := by
    intro isDigit limit s digits hRead
    have hRest := List.dropWhile_suffix (l := s) isDigit
    unfold referenceDigits? at hRead
    dsimp only at hRead
    split at hRead
    · next hEnd =>
        split at hRead
        · cases hRead
        · cases hRead
          rwa [hEnd] at hRest
    · cases hRead
  unfold characterReference? at h
  split at h
  · split at h
    · obtain ⟨⟨digits, left⟩, hRead, hEq⟩ := Option.map_eq_some_iff.1 h
      cases hEq
      exact ⟨Nat.le_succ 1,
        (hDigits hRead).trans ((List.suffix_cons _ _).trans (List.suffix_cons _ _))⟩
    · obtain ⟨⟨digits, left⟩, hRead, hEq⟩ := Option.map_eq_some_iff.1 h
      cases hEq
      exact ⟨Nat.le_succ 1, (hDigits hRead).trans (List.suffix_cons _ _)⟩
  · have hRest := List.dropWhile_suffix (l := s) Char.isAlphanum
    dsimp only at h
    split at h
    · next hEnd =>
        obtain ⟨value, hValue, hEq⟩ := Option.map_eq_some_iff.1 h
        cases hEq
        rw [hEnd] at hRest
        exact ⟨length_le_of_namedCharacter? hValue, hRest⟩
    · cases h

/-- A character reference stands for at most two characters and ends with a semicolon. -/
theorem characterReference?_sublist (h : characterReference? s = some (read, after)) :
    read.length ≤ 2 ∧ (';' :: after).Sublist s :=
  (characterReference?_suffix h).imp_right List.IsSuffix.sublist

/-- These are the characters at which plain text stops. -/
theorem isSpecial_iff (c : Char) : isSpecial c = true ↔
    c ∈ ['\\', '\n', '\x60', '<', '&', '*', '_', '~', '!', '[', ']'] := by
  simp [isSpecial, or_assoc]

/-- A kind of characters that none of the special ones is of. -/
theorem isSpecial_eq_false {p : Char → Bool} (hSpecial :
    ['\\', '\n', '\x60', '<', '&', '*', '_', '~', '!', '[', ']'].any p = false) {c : Char}
    (h : p c = true) : isSpecial c = false := by
  cases hChar : isSpecial c with
  | false => rfl
  | true =>
      rw [List.any_eq_true.2 ⟨c, (isSpecial_iff c).1 hChar, h⟩] at hSpecial
      cases hSpecial

/-- Any other character starts plain text. -/
theorem inlineStep_of_not_isSpecial {gfm : Bool} {definitions : Definitions} {c : Char}
    (h : isSpecial c = false) (state : InlineState) (rest : Text) :
    inlineStep gfm definitions state c rest = plainText state (c :: rest) := by
  simp only [isSpecial, Bool.or_eq_false_iff, beq_eq_false_iff_ne] at h
  simp [inlineStep, h]

theorem allPieces_readInlines_nil {gfm : Bool} {definitions : Definitions} (fuel : Nat)
    {state : InlineState} (h : state.brackets = []) :
    (readInlines gfm definitions fuel state []).allPieces = state.pieces := by
  cases fuel <;> rw [readInlines, InlineState.allPieces, h] <;> rfl

/-- Of text without blanks at its ends all is read. -/
theorem inlines_of_solid (gfm : Bool) (definitions : Definitions)
    (hStart : ∀ c ∈ s.head?, isAsciiBlank c = false) (hEnd : ∀ c ∈ s.getLast?, isAsciiBlank c = false) :
    inlines gfm definitions s =
      emphasize (readInlines gfm definitions s.length {} s).allPieces.reverse := by
  have hReverse : s.reverse.dropWhile isAsciiBlank = s.reverse :=
    dropWhile_eq_self fun c hMem => hEnd c (List.head?_reverse ▸ hMem)
  rw [inlines, dropWhile_eq_self hStart, hReverse, List.reverse_reverse]

/-- Plain text without line break is read up to the next special character. -/
theorem plainText_of_oneLine (h : '\n' ∉ s) (state : InlineState) :
    plainText state s =
      ({ state with
          pieces := .node (.text (s.takeWhile fun c => !isSpecial c)) :: state.pieces
          last := (s.takeWhile fun c => !isSpecial c).getLast? },
        s.dropWhile fun c => !isSpecial c) := by
  rw [plainText]
  simp only [drop_length_takeWhile]
  split
  · next hRest =>
      have hFeed : '\n' ∈ s.dropWhile fun c => !isSpecial c := by
        rw [hRest]
        exact List.mem_cons_self ..
      exact absurd ((List.dropWhile_sublist _).subset hFeed) h
  · rfl

theorem Cursor.skip_sublist (n : Nat) (cursor : Cursor) :
    (cursor.skip n).2.rest.Sublist cursor.rest := by
  fun_induction Cursor.skip n cursor with
  | case1 => exact List.Sublist.refl _
  | case2 n pending column rest passed cursor hSkip ih =>
      rw [hSkip] at ih
      exact ih
  | case3 n column rest passed cursor hSkip ih =>
      rw [hSkip] at ih
      exact ih.cons _
  | case4 n column rest passed cursor hSkip ih =>
      rw [hSkip] at ih
      exact ih.cons _
  | case5 => exact List.Sublist.refl _

end DirectiveMarkdown.Markdown
