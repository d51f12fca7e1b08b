import DirectiveMarkdown.Proofs.Directive.LineGrammar

/-! Attribute values in quotation marks. The reader of entries takes a quoted value as it is, but the end
of the attribute list is found before that, by braces alone. So a quoted value keeps its line a directive
only if the braces in it balance. -/
namespace DirectiveMarkdown

section Balance

variable {opening closing : Char} {s : Text}

/-- Characters before a text that are no delimiters do not change whether it is balanced. -/
theorem isBalanced_append_left (hOpening : opening ∉ s) (hClosing : closing ∉ s) (depth : Nat)
    (t : Text) : isBalanced opening closing depth (s ++ t) = isBalanced opening closing depth t := by
  induction s with
  | nil => rfl
  | cons c s ih =>
      simp only [List.mem_cons, not_or] at hOpening hClosing
      rw [List.cons_append, isBalanced, if_neg (Ne.symm hOpening.1), if_neg (Ne.symm hClosing.1)]
      exact ih hOpening.2 hClosing.2

/-- Nor do such characters after the text. -/
theorem isBalanced_append_right (hOpening : opening ∉ s) (hClosing : closing ∉ s) (depth : Nat)
    (t : Text) : isBalanced opening closing depth (t ++ s) = isBalanced opening closing depth t := by
  induction t generalizing depth with
  | nil => simpa using isBalanced_append_left hOpening hClosing depth []
  | cons c t ih => simp only [List.cons_append, isBalanced, ih]

end Balance

/-- White space after a mark cannot hold the same mark at the end of the text. -/
theorem Text.eq_of_append_mark {s t ending : Text} {mark : Char}
    (h : s ++ [mark] = t ++ mark :: ending) (hMark : isBlank mark = false)
    (hEnding : isBlankText ending = true) : s = t := by
  rcases List.eq_nil_or_concat ending with rfl | ⟨before, last, rfl⟩
  · exact List.append_cancel_right h
  · have hLast : mark = last := by
      have hEq := congrArg List.getLast? h
      simpa [List.getLast?_cons] using hEq
    have hBlank := List.all_eq_true.1 hEnding last (by simp)
    rw [← hLast, hMark] at hBlank
    cases hBlank

/-- The attribute list that gives one attribute, with its value in quotation marks. -/
def quotedAttribute (key value : Text) : Text := key ++ '=' :: '"' :: (value ++ ['"'])

def attributeLine (name list : Text) : Text :=
  List.replicate 2 ':' ++ (name ++ '{' :: (list ++ ['}']))

section Lines

variable {name : Text} (hName : isDirectiveName name = true)

include hName

/-- A line with an attribute list that balances is read as a leaf. -/
theorem BlockLine.read?_attributeLine_of_isBalanced {list : Text}
    (hList : isBalanced '{' '}' 0 list = true) :
    read? (attributeLine name list) = some (.leaf ⟨name, Arguments.read [] list⟩) := by
  have hBalanced : ∀ content ∈ some list, isBalanced '{' '}' 0 content = true := by
    simpa using hList
  let w : WrittenDirective := ⟨name, none, some list, hName, nofun, hBalanced⟩
  let parts : WrittenLine :=
    ⟨0, 2, some w, [], Nat.zero_le 3, Nat.le_refl 2, nofun, rfl⟩
  have hLine : parts.line = attributeLine name list := by
    simp [parts, w, WrittenLine.line, WrittenLine.content, WrittenDirective.written,
      WrittenDirective.pieces, delimit, attributeLine]
  rw [← hLine, parts.read?_line]
  rfl

/-- If such a line is read at all, then the attribute list balances. -/
theorem isBalanced_of_read?_attributeLine {list : Text} {directive : BlockLine}
    (h : BlockLine.read? (attributeLine name list) = some directive) :
    isBalanced '{' '}' 0 list = true := by
  obtain ⟨first, more, hFirst, hColon⟩ := exists_cons_of_isDirectiveName hName
  obtain ⟨parts, hLine, -⟩ := WrittenLine.exists_of_read? h
  have hBlank := parts.isBlank_ending
  have hHead : (name ++ '{' :: (list ++ ['}'])).head? ≠ some ':' := by simpa [hFirst] using hColon
  have hDivided : parts.line = List.replicate 0 ' ' ++
      (List.replicate 2 ':' ++ (name ++ '{' :: (list ++ ['}']))) := hLine
  obtain ⟨-, -, hRest⟩ := WrittenLine.eq_of_line hDivided Nat.zero_lt_two hHead
  obtain ⟨w, hDirective⟩ := WrittenLine.exists_directive (c := first)
    (by rw [hRest, hFirst]; rfl) (isBlank_of_mem_name hName (by simp [hFirst]))
  have hWritten : w.written ++ parts.ending = name ++ '{' :: (list ++ ['}']) := by
    simpa [WrittenLine.content, hDirective] using hRest
  have hEnds : ∀ c ∈ name, (!endsDirectiveName c) = true := fun c hMem => by
    simp [endsDirectiveName_of_mem hName hMem]
  obtain ⟨-, hPieces⟩ := (w.endsBefore_of_isBlankText hBlank).span_name
  rw [hWritten, Text.dropWhile_append_stop hEnds (by simp [endsDirectiveName])] at hPieces
  have hBrace : '{' ∈ (w.pieces ++ parts.ending).head? := by simp [← hPieces]
  rcases WrittenDirective.mem_head?_pieces hBrace with
    ⟨-, hEq⟩ | ⟨hLabel, hSome, -⟩ | ⟨-, hEnding⟩
  · cases hEq
  · obtain ⟨content, hContent⟩ := Option.isSome_iff_exists.1 hSome
    have hTail : list ++ ['}'] = content ++ '}' :: parts.ending := by
      simpa [WrittenDirective.pieces, hLabel, hContent, delimit] using hPieces
    rw [Text.eq_of_append_mark hTail rfl hBlank]
    exact w.attributes_balanced content hContent
  · cases Text.isBlank_of_head? hBlank hEnding

/-- A line with an attribute list is read as a leaf exactly if the list balances, and else as none. -/
theorem BlockLine.read?_attributeLine (list : Text) :
    read? (attributeLine name list) =
      if isBalanced '{' '}' 0 list then some (.leaf ⟨name, Arguments.read [] list⟩) else none := by
  split
  · next hList => exact read?_attributeLine_of_isBalanced hName hList
  · next hList =>
      cases hRead : read? (attributeLine name list) with
      | none => rfl
      | some directive => exact absurd (isBalanced_of_read?_attributeLine hName hRead) hList

end Lines

section Attribute

variable {key value : Text} (hKey : key ≠ []) (hLetters : ∀ c ∈ key, c.isAlpha = true)
  (hValue : '"' ∉ value)

include hLetters in
/-- Braces balance in the attribute exactly if they do in its value. -/
theorem isBalanced_quotedAttribute :
    isBalanced '{' '}' 0 (quotedAttribute key value) = isBalanced '{' '}' 0 value := by
  have hBrace {c : Char} (hChar : c.isAlpha = false) : c ∉ key := by
    intro hMem
    rw [hLetters c hMem] at hChar
    cases hChar
  rw [quotedAttribute, isBalanced_append_left (hBrace rfl) (hBrace rfl)]
  rw [show '=' :: '"' :: (value ++ ['"']) = ['=', '"'] ++ (value ++ ['"']) from rfl,
    isBalanced_append_left (by decide) (by decide), isBalanced_append_right (by decide) (by decide)]

include hKey hLetters hValue in
/-- A quoted value is taken as it is, whatever it holds. -/
theorem Arguments.read_quotedAttribute :
    read [] (quotedAttribute key value) = { attributes := (∅ : TextMap).insert key value } := by
  have hQuote : quotedAttribute key value = (Entry.attribute key value).print := by
    rw [quotedAttribute, Entry.print, quote, if_pos hValue]
  have hPrintable : ∀ entry ∈ [Entry.attribute key value], entry.Printable := by
    refine List.forall_mem_singleton.2 ⟨?_, ?_, .inl hValue⟩
    · obtain ⟨c, more, rfl⟩ := List.exists_cons_of_ne_nil hKey
      exact ⟨c, rfl, by simp [startsKey, hLetters c (by simp)]⟩
    · intro c hMem
      exact isKeyChar_of_startsKey (by simp [startsKey, hLetters c hMem])
  have hJoin : quotedAttribute key value =
      Text.join [' '] ([Entry.attribute key value].map Entry.print) := hQuote
  rw [read, hJoin, trim_join hPrintable, entries_join hPrintable]
  rfl

include hKey hLetters hValue in
/-- A leaf directive with one attribute whose value stands in double quotation marks has that value
exactly if the braces in the value balance. If they do not, the line is no directive at all. -/
theorem BlockLine.read?_quotedValue {name : Text} (hName : isDirectiveName name = true) :
    ((∃ body, read? (attributeLine name (quotedAttribute key value)) = some (.leaf body) ∧
        body.arguments.attributes.get? key = some value) ↔ isBalanced '{' '}' 0 value = true) ∧
      read? (attributeLine name (quotedAttribute key value)) =
        if isBalanced '{' '}' 0 value then
          some (.leaf ⟨name, { attributes := (∅ : TextMap).insert key value }⟩)
        else none := by
  have hRead := read?_attributeLine hName (quotedAttribute key value)
  rw [isBalanced_quotedAttribute hLetters, Arguments.read_quotedAttribute hKey hLetters hValue]
    at hRead
  refine ⟨⟨?_, fun hBalanced => ?_⟩, hRead⟩
  · rintro ⟨body, hLeaf, -⟩
    rw [hLeaf] at hRead
    by_cases hBalanced : isBalanced '{' '}' 0 value = true
    · exact hBalanced
    · rw [if_neg hBalanced] at hRead
      cases hRead
  · rw [if_pos hBalanced] at hRead
    exact ⟨_, hRead, by simp [TextMap.get?_insert]⟩

end Attribute

/-- Brackets, white space and quotation marks of the other kind do not matter, and these braces
balance. -/
theorem BlockLine.read?_quotedValue_balanced :
    '"' ∉ text "\x7ba\x7d 'b' [c" ∧ isBalanced '{' '}' 0 (text "\x7ba\x7d 'b' [c") = true ∧
      ∃ body, read? (attributeLine (text "video")
          (quotedAttribute (text "src") (text "\x7ba\x7d 'b' [c"))) = some (.leaf body) ∧
        body.arguments.attributes.get? (text "src") = some (text "\x7ba\x7d 'b' [c") := by
  have hValue : '"' ∉ text "\x7ba\x7d 'b' [c" := by decide
  have hBalanced : isBalanced '{' '}' 0 (text "\x7ba\x7d 'b' [c") = true := by decide
  have hKey : text "src" ≠ [] := by decide
  have hLetters : ∀ c ∈ text "src", c.isAlpha = true := List.all_eq_true.1 rfl
  have hName : isDirectiveName (text "video") = true := by decide
  obtain ⟨hLeaf, -⟩ := read?_quotedValue hKey hLetters hValue hName
  exact ⟨hValue, hBalanced, hLeaf.2 hBalanced⟩

/-- A closing brace in a quoted value ends the attribute list inside the value, and the line is no
directive. -/
theorem BlockLine.read?_quotedValue_brace :
    isDirectiveName (text "a") = true ∧ (∀ c ∈ text "k", c.isAlpha = true) ∧
      (∀ c ∈ text "\x7d", c ≠ '"' ∧ c ≠ '\n') ∧
      attributeLine (text "a") (quotedAttribute (text "k") (text "\x7d")) =
        text "::a\x7bk=\"\x7d\"\x7d" ∧
      read? (attributeLine (text "a") (quotedAttribute (text "k") (text "\x7d"))) = none := by
  have hName : isDirectiveName (text "a") = true := by decide
  refine ⟨hName, List.all_eq_true.1 rfl, by simp [text], rfl, ?_⟩
  rw [read?_attributeLine hName, if_neg (by decide)]

end DirectiveMarkdown
