import DirectiveMarkdown.Markdown.Line
import DirectiveMarkdown.Proofs.Text.Wrapping

/-! The lines that Markdown divides a source into. They start where the source does and hold nothing
that is not in the source. If line feeds alone end lines, they are the lines of the text. -/
namespace DirectiveMarkdown.Markdown

/-- What was read once is read as it stands. -/
theorem readCharacter_idem (c : Char) : readCharacter (readCharacter c) = readCharacter c := by
  by_cases hNull : c = '\x00'
  · rw [hNull]
    rfl
  · have hRead : readCharacter c = c := if_neg hNull
    rw [hRead, hRead]

/-- Reading a text takes out no character but null characters, and brings in none but those that stand
for them. -/
theorem mem_map_readCharacter_iff {c : Char} (hNull : c ≠ '\x00') (hStand : c ≠ '\ufffd')
    (s : Text) : c ∈ s.map readCharacter ↔ c ∈ s := by
  rw [List.mem_map]
  constructor
  · rintro ⟨d, hMem, hRead⟩
    unfold readCharacter at hRead
    split at hRead
    · exact absurd hRead.symm hStand
    · exact hRead ▸ hMem
  · exact fun hMem => ⟨c, hMem, if_neg hNull⟩

/-- Text without null characters is read as it is. -/
theorem map_readCharacter_eq {s : Text} (h : '\x00' ∉ s) : s.map readCharacter = s := by
  rw [List.map_congr_left (g := id), List.map_id]
  intro c hMem
  have hNull : c ≠ '\x00' := ne_of_mem_of_not_mem hMem h
  exact if_neg hNull

/-- A source has the lines of the characters that are read of it. -/
theorem sourceLinesFrom_readCharacter (start offset : Nat) (line source : Text) :
    sourceLinesFrom start offset line (source.map readCharacter) =
      sourceLinesFrom start offset line source := by
  have hKept {d : Char} (hNull : d ≠ '\x00') (hStand : d ≠ '\ufffd') (c : Char) :
      readCharacter c = d ↔ c = d := by
    have hIff := mem_map_readCharacter_iff hNull hStand [c]
    simpa [eq_comm] using hIff
  have hFeed := hKept (show '\n' ≠ '\x00' by decide) (by decide)
  have hReturn := hKept (show '\r' ≠ '\x00' by decide) (by decide)
  have hPair {c : Char} {rest : Text}
      (h : ∀ more, c = '\r' → rest = '\n' :: more → False) (more : Text) (hFirst : readCharacter c = '\r')
      (hRest : rest.map readCharacter = '\n' :: more) : False := by
    obtain ⟨d, tail, rfl, hSecond, -⟩ := List.map_eq_cons_iff.1 hRest
    exact h tail ((hReturn c).1 hFirst) (by rw [(hFeed d).1 hSecond])
  fun_induction sourceLinesFrom start offset line source with
  | case1 start offset line hEmpty => rw [List.map_nil, sourceLinesFrom, if_pos hEmpty]
  | case2 start offset line hLine => rw [List.map_nil, sourceLinesFrom, if_neg hLine]
  | case3 start offset line rest ih => exact congrArg (_ :: ·) ih
  | case4 start offset line c rest hSingle hEnd ih =>
      rw [List.map_cons, sourceLinesFrom, if_pos (by rwa [hFeed, hReturn]), ih]
      exact hPair hSingle
  | case5 start offset line c rest hSingle hMore ih =>
      rw [List.map_cons, sourceLinesFrom, if_neg (by rwa [hFeed, hReturn]), readCharacter_idem, ih]
      exact hPair hSingle

/-- A character of a line is read from the source. -/
theorem mem_sourceLinesFrom (start offset : Nat) (line source : Text) :
    ∀ written ∈ sourceLinesFrom start offset line source, ∀ c ∈ written.content,
      c ∈ line ∨ ∃ d ∈ source, c = readCharacter d := by
  fun_induction sourceLinesFrom start offset line source with
  | case1 => exact List.forall_mem_nil _
  | case2 start offset line =>
      exact List.forall_mem_singleton.2 fun c hMem => .inl (List.mem_reverse.1 hMem)
  | case3 start offset line rest ih =>
      refine List.forall_mem_cons.2 ⟨fun c hMem => .inl (List.mem_reverse.1 hMem), ?_⟩
      intro written hWritten c hMem
      obtain ⟨d, hRest, hRead⟩ := (ih written hWritten c hMem).resolve_left List.not_mem_nil
      exact .inr ⟨d, List.mem_cons_of_mem _ (List.mem_cons_of_mem _ hRest), hRead⟩
  | case4 start offset line c rest _ _ ih =>
      refine List.forall_mem_cons.2 ⟨fun c hMem => .inl (List.mem_reverse.1 hMem), ?_⟩
      intro written hWritten c hMem
      obtain ⟨d, hRest, hRead⟩ := (ih written hWritten c hMem).resolve_left List.not_mem_nil
      exact .inr ⟨d, List.mem_cons_of_mem _ hRest, hRead⟩
  | case5 start offset line c rest _ _ ih =>
      intro written hWritten d hMem
      rcases ih written hWritten d hMem with hLine | ⟨e, hRest, hRead⟩
      · rcases List.mem_cons.1 hLine with rfl | hLine
        · exact .inr ⟨c, List.mem_cons_self .., rfl⟩
        · exact .inl hLine
      · exact .inr ⟨e, List.mem_cons_of_mem _ hRest, hRead⟩

/-- The place after a stretch of a line. -/
theorem sourceLinesFrom_append (start offset : Nat) (before : Text) {line : Text}
    (hLine : '\n' ∉ line ∧ '\r' ∉ line) (rest : Text) :
    sourceLinesFrom start offset before (line ++ rest) =
      sourceLinesFrom start (offset + line.length)
        ((line.map readCharacter).reverse ++ before) rest := by
  induction line generalizing offset before with
  | nil => rfl
  | cons c line ih =>
      obtain ⟨hFeed, hReturn⟩ := hLine
      rw [List.mem_cons, not_or] at hFeed hReturn
      have hChar : ¬(c = '\n' ∨ c = '\r') := not_or.2 ⟨Ne.symm hFeed.1, Ne.symm hReturn.1⟩
      have hStep : sourceLinesFrom start offset before (c :: (line ++ rest)) =
          sourceLinesFrom start (offset + 1) (readCharacter c :: before) (line ++ rest) := by
        rw [sourceLinesFrom, if_neg hChar]
        rintro tail rfl
        exact absurd rfl hReturn.1
      rw [List.cons_append, hStep, ih _ _ ⟨hFeed.2, hReturn.2⟩]
      simp [Nat.add_assoc, Nat.add_comm 1]

/-- If line feeds alone end lines, the lines of Markdown are those of the text without their ends. -/
theorem exists_of_mem_sourceLinesFrom {division : List Text} (h : Text.AreLines division)
    (hReturn : ∀ line ∈ division, '\r' ∉ line) (start : Nat) :
    ∀ written ∈ sourceLinesFrom start start [] division.flatten,
      ∃ line, (line ∈ division ∨ line ++ ['\n'] ∈ division) ∧
        written.content = line.map readCharacter := by
  induction h generalizing start with
  | nil => exact List.forall_mem_nil _
  | @last line hNe hLine =>
      have hLast : sourceLinesFrom start start [] line =
          [⟨start, line.map readCharacter, false⟩] := by
        conv => lhs; rw [← List.append_nil line]
        rw [sourceLinesFrom_append start start []
          ⟨hLine, hReturn line (List.mem_singleton_self line)⟩]
        simp [sourceLinesFrom, hNe]
      rw [List.flatten_singleton, hLast]
      exact List.forall_mem_singleton.2 ⟨line, .inl (List.mem_singleton_self line), rfl⟩
  | @cons line rest hLine _ ih =>
      obtain ⟨hFirst, hRest⟩ := List.forall_mem_cons.1 hReturn
      have hLineReturn : '\r' ∉ line := fun hMem => hFirst (List.mem_append_left _ hMem)
      rw [List.flatten_cons, List.append_assoc,
        sourceLinesFrom_append start start [] ⟨hLine, hLineReturn⟩]
      refine List.forall_mem_cons.2 ⟨⟨line, .inr (List.mem_cons_self ..), by simp⟩, ?_⟩
      intro written hMem
      obtain ⟨other, hOther, hContent⟩ := ih hRest _ written hMem
      exact ⟨other, hOther.imp (List.mem_cons_of_mem _) (List.mem_cons_of_mem _), hContent⟩

/-- The first line starts with the source. -/
theorem exists_sourceLines {source : Text} (hNe : source ≠ []) :
    ∃ first rest, sourceLines source = first :: rest ∧ first.start = 0 := by
  have hFirst : ∀ (start offset : Nat) (line source : Text), line ≠ [] ∨ source ≠ [] →
      ∃ first rest, sourceLinesFrom start offset line source = first :: rest ∧
        first.start = start := by
    intro start offset line source hNe
    fun_induction sourceLinesFrom start offset line source with
    | case1 start offset line hEmpty =>
        rw [List.isEmpty_iff] at hEmpty
        exact absurd hEmpty (hNe.resolve_right fun h => h rfl)
    | case2 => exact ⟨_, _, rfl, rfl⟩
    | case3 => exact ⟨_, _, rfl, rfl⟩
    | case4 => exact ⟨_, _, rfl, rfl⟩
    | case5 start offset line c rest _ _ ih => exact ih (.inl (List.cons_ne_nil _ _))
  exact hFirst 0 0 [] source (.inr hNe)

end DirectiveMarkdown.Markdown
