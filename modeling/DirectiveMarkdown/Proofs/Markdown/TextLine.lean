import DirectiveMarkdown.Proofs.Markdown.SourceLines
import DirectiveMarkdown.Markdown.Event

/-! Lines that Markdown can only take as the text of a paragraph, and documents of a few such lines
outside of all containers: a paragraph, and a paragraph before the definition of a link. -/
namespace DirectiveMarkdown.Markdown

/-- A block other than a paragraph may start with the character. Digits are not among them. -/
def opensBlock (c : Char) : Bool :=
  c == '-' || c == '+' || c == '*' || c == '_' || c == '#' || c == '\x60' || c == '~' || c == '>' ||
    c == '<'

/-- A line starts with none of these characters, and with no white space. -/
def StartsText (line : Text) : Prop :=
  ∃ c rest, line = c :: rest ∧ isBlank c = false ∧ opensBlock c = false

/-- What the digits at the start of a line are followed by makes no list marker of them. -/
def EndsNoNumber (line : Text) : Prop :=
  ∀ c ∈ (line.dropWhile Char.isDigit).head?, c ≠ '.' ∧ c ≠ ')'

/-- There is no number at the start of the line. -/
theorem endsNoNumber_of_head {c : Char} (h : c.isDigit = false) (hPoint : c ≠ '.') (hParen : c ≠ ')')
    (rest : Text) : EndsNoNumber (c :: rest) := by
  intro d hMem
  rw [List.dropWhile_cons_of_neg (by simp [h])] at hMem
  cases hMem
  exact ⟨hPoint, hParen⟩

theorem isBlank_of_isAsciiBlank {c : Char} (h : isAsciiBlank c = true) : isBlank c = true := by
  simp only [isAsciiBlank, Bool.or_eq_true, beq_iff_eq] at h
  rcases h with ((((rfl | rfl) | rfl) | rfl) | rfl) | rfl <;> rfl

theorem isAsciiBlank_of_solid {c : Char} (h : isBlank c = false) : isAsciiBlank c = false := by
  cases hAscii : isAsciiBlank c with
  | false => rfl
  | true =>
      rw [isBlank_of_isAsciiBlank hAscii] at h
      cases h

/-- Without white space at the place nothing is passed over. -/
theorem Cursor.skip_of_head {c : Char} (hSpace : c ≠ ' ') (hTab : c ≠ '\t') (columns column : Nat)
    (rest : Text) : Cursor.skip columns ⟨0, column, c :: rest⟩ = (0, ⟨0, column, c :: rest⟩) := by
  cases columns with
  | zero => rfl
  | succ columns =>
      unfold Cursor.skip
      split
      case h_1 hEq => cases hEq
      case h_2 hEq => cases hEq
      case h_3 hEq => cases hEq; exact absurd rfl hSpace
      case h_4 hEq => cases hEq; exact absurd rfl hTab
      case h_5 => rfl

section Readers

variable {line : Text}

theorem StartsText.exists_cons (h : StartsText line) : ∃ c rest, line = c :: rest ∧
    isInlineBlank c = false ∧ c ≠ ' ' ∧ c ≠ '\t' ∧ opensBlock c = false := by
  obtain ⟨c, rest, hLine, hBlank, hOpens⟩ := h
  have hSpace : c ≠ ' ' := by
    rintro rfl
    cases hBlank
  have hTab : c ≠ '\t' := by
    rintro rfl
    cases hBlank
  exact ⟨c, rest, hLine, by simp [isInlineBlank, hSpace, hTab], hSpace, hTab, hOpens⟩

theorem ne_of_not_opensBlock {c d : Char} (h : opensBlock c = false) (hMark : opensBlock d = true) :
    c ≠ d := by
  rintro rfl
  rw [hMark] at h
  cases h

theorem StartsText.not_isAsciiBlank (h : StartsText line) : line.all isAsciiBlank = false := by
  obtain ⟨c, rest, rfl, hBlank, -⟩ := h
  rw [List.all_cons, isAsciiBlank_of_solid hBlank]
  rfl

theorem isThematicBreak_of_startsText (h : StartsText line) : isThematicBreak line = false := by
  obtain ⟨c, rest, rfl, hBlank, -, -, hOpens⟩ := h.exists_cons
  have hMark : (c == '*') = false ∧ (c == '-') = false ∧ (c == '_') = false := by
    refine ⟨?_, ?_, ?_⟩ <;> exact beq_eq_false_iff_ne.2 (ne_of_not_opensBlock hOpens (by decide))
  rw [isThematicBreak, List.filter_cons_of_pos (by simp [hBlank])]
  simp [hMark]

theorem itemMarker?_of_startsText (h : StartsText line) (hNumber : EndsNoNumber line) :
    itemMarker? line = none := by
  obtain ⟨c, rest, rfl, -, hOpens⟩ := h
  have hBullet : ¬(c = '-' ∨ c = '+' ∨ c = '*') :=
    not_or.2 ⟨ne_of_not_opensBlock hOpens (by decide),
      not_or.2 ⟨ne_of_not_opensBlock hOpens (by decide), ne_of_not_opensBlock hOpens (by decide)⟩⟩
  have hMarker : listMarker? (c :: rest) = none := by
    rw [listMarker?]
    simp only [if_neg hBullet, drop_length_takeWhile]
    split
    · split
      · next mark _ hMark =>
          obtain ⟨hPoint, hParen⟩ := hNumber mark (by rw [hMark]; rfl)
          rw [if_neg (by simp [hPoint, hParen])]
      · rfl
    · rfl
  rw [itemMarker?, hMarker]
  rfl

theorem atxHeading?_of_startsText (h : StartsText line) : atxHeading? line = none := by
  obtain ⟨c, rest, rfl, -, hOpens⟩ := h
  have hMark : (c == '#') = false := beq_eq_false_iff_ne.2 (ne_of_not_opensBlock hOpens (by decide))
  rw [atxHeading?, List.takeWhile_cons_of_neg (by simp [hMark])]
  rfl

theorem fenceMarker?_of_startsText (h : StartsText line) : fenceMarker? line = none := by
  obtain ⟨c, rest, rfl, -, hOpens⟩ := h
  have hMark : ¬(c = '\x60' ∨ c = '~') :=
    not_or.2 ⟨ne_of_not_opensBlock hOpens (by decide), ne_of_not_opensBlock hOpens (by decide)⟩
  rw [fenceMarker?]
  simp only [if_neg hMark]

/-- Only a line that starts with a bracket defines a link. -/
theorem definition?_of_startsText (h : StartsText line) (hBracket : line.head? ≠ some '[') :
    definition? line = none := by
  obtain ⟨c, rest, rfl, hBlank, -, -, -⟩ := h.exists_cons
  have hLabel : linkLabel? (c :: rest) = none := by
    rw [linkLabel?]
    rintro other hEq
    exact hBracket (by rw [(List.cons.inj hEq).1]; rfl)
  rw [definition?, List.dropWhile_cons_of_neg (by simp [hBlank]), hLabel]
  rfl

end Readers

namespace Structure

variable {gfm ended blank emptyItem : Bool} {start : Nat} {line : Text}
  {blocks : List (Block Text)} {definitions : Definitions}

/-- Outside of all containers a line that can open nothing else starts a paragraph. -/
theorem step_of_startsText (h : StartsText line) (hNumber : EndsNoNumber line) :
    step gfm ⟨blocks, [], none, .none, blank, emptyItem, definitions⟩ ⟨start, line, ended⟩ =
      ⟨blocks, [], none, .paragraph [line], false, false, definitions⟩ := by
  obtain ⟨c, rest, hLine, hSolid, hSpace, hTab, hOpens⟩ := h.exists_cons
  have hSkip := Cursor.skip_of_head hSpace hTab 4 0 rest
  rw [← hLine] at hSkip
  have hQuote : ∀ other, line = '>' :: other → False := by
    rintro other rfl
    exact absurd (List.cons.inj hLine).1.symm (ne_of_not_opensBlock hOpens (by decide))
  have hHtml : ∀ other, line = '<' :: other → False := by
    rintro other rfl
    exact absurd (List.cons.inj hLine).1.symm (ne_of_not_opensBlock hOpens (by decide))
  have hBlank : (⟨0, 0, line⟩ : Cursor).isBlank = false := by
    rw [Cursor.isBlank, hLine, List.all_cons, hSolid]
    rfl
  have hContainers (state : Structure) :
      openContainers gfm ⟨start, line, ended⟩ (line.length + 1) state ⟨0, 0, line⟩ =
        (state, ⟨0, 0, line⟩, false) := by
    rw [openContainers, hSkip]
    simp only [itemMarker?_of_startsText h hNumber]
    split
    · next hOther => exact absurd hOther (by decide)
    · rfl
  have hBegin : beginBlock ⟨blocks, [], none, .none, blank, false, definitions⟩ =
      ⟨blocks, [], none, .none, false, false, definitions⟩ := by
    cases blank <;> rfl
  have hLeaf : openLeaf ⟨start, line, ended⟩ ⟨blocks, [], none, .none, blank, false, definitions⟩
      ⟨0, 0, line⟩ = ⟨blocks, [], none, .paragraph [line], false, false, definitions⟩ := by
    rw [openLeaf, hSkip, hBegin]
    simp only [isThematicBreak_of_startsText h, atxHeading?_of_startsText h,
      fenceMarker?_of_startsText h]
    split
    · next hOther => exact absurd hOther (by decide)
    · rw [if_neg (by decide)]
  have hNew (count : Nat) : newLine gfm ⟨start, line, ended⟩ count ⟨0, 0, line⟩
      ⟨blocks, [], none, .none, blank, emptyItem, definitions⟩ =
        ⟨blocks, [], none, .paragraph [line], false, false, definitions⟩ := by
    have hClosed : { closeUnmatched ⟨blocks, [], none, .none, blank, emptyItem, definitions⟩ count
        start with emptyItem := false } =
          (⟨blocks, [], none, .none, blank, false, definitions⟩ : Structure) := rfl
    rw [newLine, hClosed, hContainers]
    simp only [hBlank]
    exact hLeaf
  rw [step]
  exact hNew _

/-- The end of a paragraph of one line outside of all containers takes out the definition that it may
be. -/
theorem closeLeaf_paragraph {more : Definitions} {content : Text}
    (h : leadingDefinitions 1 line = (more, content)) :
    closeLeaf ⟨blocks, [], none, .paragraph [line], blank, emptyItem, definitions⟩ =
      ⟨if content.all isAsciiBlank then blocks else .paragraph content :: blocks, [], none, .none,
        blank, emptyItem, definitions ++ more⟩ := by
  rw [closeLeaf]
  simp only [joinLines, List.reverse_singleton, Text.join, List.length_singleton, h]
  split <;> rfl

/-- A blank line outside of all containers. -/
theorem step_blank :
    step gfm ⟨blocks, [], none, .none, blank, emptyItem, definitions⟩ ⟨start, [], ended⟩ =
      ⟨blocks, [], none, .none, true, false, definitions⟩ := by
  cases emptyItem <;> rfl

/-- A blank line ends a paragraph. -/
theorem step_blank_paragraph {more : Definitions} {content : Text}
    (h : leadingDefinitions 1 line = (more, content)) :
    step gfm ⟨blocks, [], none, .paragraph [line], false, false, definitions⟩ ⟨start, [], ended⟩ =
      ⟨if content.all isAsciiBlank then blocks else .paragraph content :: blocks, [], none, .none,
        true, false, definitions ++ more⟩ := by
  have hNew : step gfm ⟨blocks, [], none, .paragraph [line], false, false, definitions⟩
      ⟨start, [], ended⟩ = blankLine { closeLeaf
        ⟨blocks, [], none, .paragraph [line], false, false, definitions⟩ with emptyItem := false } := by
    rfl
  rw [hNew, closeLeaf_paragraph h]
  rfl

/-- At the end of the source the paragraph gives up its definitions and becomes a block if anything
is left. -/
theorem finish_paragraph {more : Definitions} {content : Text}
    (h : leadingDefinitions 1 line = (more, content)) (stop : Nat) :
    finish ⟨blocks, [], none, .paragraph [line], false, false, definitions⟩ stop =
      ⟨if content.all isAsciiBlank then blocks else .paragraph content :: blocks, [], none, .none,
        false, false, definitions ++ more⟩ := by
  have hClose (state : Structure) (hFrames : state.frames = []) :
      closeUnmatched state 0 stop = closeLeaf state := by
    rw [closeUnmatched, hFrames]
    rfl
  rw [finish, hClose _ rfl, closeLeaf_paragraph h]
  rfl

end Structure

/-- A line of a source that is the text of a paragraph wherever no paragraph is open. -/
structure IsTextLine (line : Text) : Prop where
  oneLine : '\n' ∉ line ∧ '\r' ∉ line
  starts : StartsText (line.map readCharacter)
  number : EndsNoNumber (line.map readCharacter)

section Documents

variable {gfm : Bool} {line first : Text} {definitions : Definitions}

theorem IsTextLine.ne_nil (h : IsTextLine line) : line ≠ [] := by
  obtain ⟨c, rest, hCons, -⟩ := h.starts
  rintro rfl
  cases hCons

/-- A line is what stands up to the line feed that ends it. -/
theorem sourceLinesFrom_feed (offset : Nat) (hLine : '\n' ∉ line ∧ '\r' ∉ line) (rest : Text) :
    sourceLinesFrom offset offset [] (line ++ '\n' :: rest) =
      ⟨offset, line.map readCharacter, true⟩ ::
        sourceLinesFrom (offset + line.length + 1) (offset + line.length + 1) [] rest := by
  rw [sourceLinesFrom_append offset offset [] hLine, sourceLinesFrom, if_pos (.inl rfl)]
  · simp
  · rintro _ ⟨⟩

theorem sourceLinesFrom_blank (offset : Nat) (rest : Text) :
    sourceLinesFrom offset offset [] ('\n' :: rest) =
      ⟨offset, [], true⟩ :: sourceLinesFrom (offset + 1) (offset + 1) [] rest := by
  have hEmpty : '\n' ∉ ([] : Text) ∧ '\r' ∉ ([] : Text) := ⟨List.not_mem_nil, List.not_mem_nil⟩
  exact sourceLinesFrom_feed offset hEmpty rest

/-- A text without line breaks is one line, with or without a line feed behind it. -/
theorem sourceLines_line (hLine : '\n' ∉ line ∧ '\r' ∉ line) (hNe : line ≠ []) {ending : Text}
    (hEnding : ending = [] ∨ ending = ['\n']) :
    ∃ ended, sourceLines (line ++ ending) = [⟨0, line.map readCharacter, ended⟩] := by
  rcases hEnding with rfl | rfl
  · refine ⟨false, ?_⟩
    rw [sourceLines, sourceLinesFrom_append 0 0 [] hLine, sourceLinesFrom]
    simp [hNe]
  · refine ⟨true, ?_⟩
    rw [sourceLines, sourceLinesFrom_feed 0 hLine, sourceLinesFrom]
    rfl

/-- A line that starts with no bracket is no definition. -/
theorem IsTextLine.leadingDefinitions_eq (h : IsTextLine line)
    (hBracket : (line.map readCharacter).head? ≠ some '[') :
    leadingDefinitions 1 (line.map readCharacter) = ([], line.map readCharacter) := by
  rw [leadingDefinitions, definition?_of_startsText h.starts hBracket]

/-- A document of one line of text is one paragraph. -/
theorem structureOf_line (h : IsTextLine line)
    (hBracket : (line.map readCharacter).head? ≠ some '[') {ending : Text}
    (hEnding : ending = [] ∨ ending = ['\n']) :
    structureOf gfm (line ++ ending) = ([.paragraph (line.map readCharacter)], []) := by
  obtain ⟨ended, hLines⟩ := sourceLines_line h.oneLine h.ne_nil hEnding
  rw [structureOf, hLines, List.foldl_cons, List.foldl_nil,
    Structure.step_of_startsText h.starts h.number,
    Structure.finish_paragraph (h.leadingDefinitions_eq hBracket)]
  simp [h.starts.not_isAsciiBlank]

/-- A line that defines a link makes no block, also after a blank line. -/
theorem structureOf_definition (h : IsTextLine line)
    (hDefinitions : leadingDefinitions 1 (line.map readCharacter) = (definitions, [])) :
    structureOf gfm ('\n' :: (line ++ ['\n'])) = ([], definitions) := by
  rw [structureOf, sourceLines, sourceLinesFrom_blank, sourceLinesFrom_feed _ h.oneLine,
    sourceLinesFrom]
  simp only [List.isEmpty_nil, if_true, List.foldl_cons, List.foldl_nil]
  rw [Structure.step_blank, Structure.step_of_startsText h.starts h.number,
    Structure.finish_paragraph hDefinitions]
  rfl

/-- The definitions of a link after a paragraph and a blank line are known to the paragraph. -/
theorem structureOf_reference (hFirst : IsTextLine first)
    (hBracket : (first.map readCharacter).head? ≠ some '[') (h : IsTextLine line)
    (hDefinitions : leadingDefinitions 1 (line.map readCharacter) = (definitions, [])) :
    structureOf gfm (first ++ '\n' :: '\n' :: (line ++ ['\n'])) =
      ([.paragraph (first.map readCharacter)], definitions) := by
  rw [structureOf, sourceLines, sourceLinesFrom_feed _ hFirst.oneLine, sourceLinesFrom_blank,
    sourceLinesFrom_feed _ h.oneLine, sourceLinesFrom]
  simp only [List.isEmpty_nil, if_true, List.foldl_cons, List.foldl_nil]
  rw [Structure.step_of_startsText hFirst.starts hFirst.number,
    Structure.step_blank_paragraph (hFirst.leadingDefinitions_eq hBracket),
    Structure.step_of_startsText h.starts h.number, Structure.finish_paragraph hDefinitions]
  simp [hFirst.starts.not_isAsciiBlank]

end Documents

end DirectiveMarkdown.Markdown
