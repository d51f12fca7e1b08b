import DirectiveMarkdown.Proofs.Directive.Written

/-! The grammar of lines that hold a directive. A line is read exactly if it can be divided into
indentation, colons, what is written after these and white space, and there is one way only to do so. -/
namespace DirectiveMarkdown

namespace Text

variable {mark : Char}

/-- Every text starts with some number of a mark. -/
theorem exists_replicate_append (mark : Char) (s : Text) :
    ∃ n rest, s = List.replicate n mark ++ rest ∧ rest.head? ≠ some mark := by
  induction s with
  | nil => exact ⟨0, [], rfl, by simp⟩
  | cons c s ih =>
      by_cases hMark : c = mark
      · obtain ⟨n, rest, rfl, hRest⟩ := ih
        exact ⟨n + 1, rest, by simp [hMark, List.replicate_succ], hRest⟩
      · exact ⟨0, c :: s, rfl, by simpa using hMark⟩

/-- The number of marks at the start of a text, and what follows them, are unique. -/
theorem replicate_append_inj {m n : Nat} {s t : Text} (hs : s.head? ≠ some mark)
    (ht : t.head? ≠ some mark) (h : List.replicate m mark ++ s = List.replicate n mark ++ t) :
    m = n ∧ s = t := by
  induction m generalizing n with
  | zero =>
      cases n with
      | zero => exact ⟨rfl, h⟩
      | succ n =>
          obtain rfl : s = mark :: (List.replicate n mark ++ t) := h
          exact absurd rfl hs
  | succ m ih =>
      cases n with
      | zero =>
          obtain rfl : mark :: (List.replicate m mark ++ s) = t := h
          exact absurd rfl ht
      | succ n =>
          obtain ⟨hCount, hRest⟩ := ih (List.cons.inj h).2
          exact ⟨congrArg (· + 1) hCount, hRest⟩

/-- Every text ends in some white space, which may be none. -/
theorem exists_endsSolid_append (s : Text) :
    ∃ solid ending, s = solid ++ ending ∧ EndsSolid solid ∧ isBlankText ending = true := by
  have hReverse : s.reverse.takeWhile isBlank ++ s.reverse.dropWhile isBlank = s.reverse :=
    List.takeWhile_append_dropWhile
  refine ⟨trimEnd s, (s.reverse.takeWhile isBlank).reverse, ?_, ?_, ?_⟩
  · rw [trimEnd, ← List.reverse_append, hReverse, List.reverse_reverse]
  · intro c hMem
    have hHead := List.head?_dropWhile_not isBlank s.reverse
    rw [trimEnd, List.getLast?_reverse] at hMem
    rw [Option.mem_def.1 hMem] at hHead
    simpa using hHead
  · rw [isBlankText, List.all_reverse]
    exact List.all_takeWhile

theorem EndsSolid.of_append {a b : Text} (h : EndsSolid (a ++ b)) : EndsSolid b := by
  intro c hMem
  exact h c (by simp [List.getLast?_append, Option.mem_def.1 hMem])

theorem isBlank_of_head? {s : Text} (h : isBlankText s = true) {c : Char} (hMem : c ∈ s.head?) :
    isBlank c = true :=
  List.all_eq_true.1 h c (List.mem_of_mem_head? hMem)

end Text

namespace WrittenDirective

variable {w : WrittenDirective} {rest : Text}

/-- No part of a directive is white space that follows it. -/
theorem endsBefore_of_isBlankText (w : WrittenDirective) (h : Text.isBlankText rest = true) :
    w.EndsBefore rest := by
  apply endsBefore_of
  · exact fun _ c hMem => Text.isBlank_of_head? h hMem
  · rintro - ⟨content, after, -, rfl⟩
    cases h

theorem endsSolid_delimit {opening closing : Char} (h : isBlank closing = false)
    (piece : Option Text) : (delimit opening closing piece).EndsSolid := by
  cases piece with
  | none => simp [delimit, Text.EndsSolid]
  | some content => simp [delimit, Text.EndsSolid, List.getLast?_cons, h]

theorem endsSolid_written (w : WrittenDirective) : w.written.EndsSolid :=
  Text.endsSolid_append (Text.endsSolid_of_all fun _ hMem => isBlank_of_mem_name w.isName hMem)
    (Text.endsSolid_append (endsSolid_delimit rfl _) (endsSolid_delimit rfl _))

/-- A written directive starts with a letter. -/
theorem exists_cons_written (w : WrittenDirective) :
    ∃ c more, w.written = c :: more ∧ c ≠ ':' ∧ isBlank c = false := by
  obtain ⟨c, more, hName, hNe⟩ := exists_cons_of_isDirectiveName w.isName
  refine ⟨c, more ++ w.pieces, by simp [written, hName], hNe, ?_⟩
  exact isBlank_of_mem_name w.isName (by simp [hName])

end WrittenDirective

/-- A line with a directive as it is written: at most three spaces, colons, a directive or nothing, and
white space. Two colons are enough only before a directive. -/
@[ext]
structure WrittenLine where
  indent : Nat
  colons : Nat
  directive : Option WrittenDirective
  ending : Text
  indent_le : indent ≤ 3
  two_le : 2 ≤ colons
  three_le : directive = none → 3 ≤ colons
  isBlank_ending : Text.isBlankText ending = true

namespace WrittenLine

def content (parts : WrittenLine) : Text := (parts.directive.map WrittenDirective.written).getD []

def line (parts : WrittenLine) : Text :=
  List.replicate parts.indent ' ' ++ (List.replicate parts.colons ':' ++ parts.content ++ parts.ending)

/-- The directive that is meant: colons alone close a container, two start a leaf and more open a
container. -/
def blockLine (parts : WrittenLine) : BlockLine :=
  match parts.directive with
  | none => .closing parts.colons
  | some w => if parts.colons = 2 then .leaf w.body else .opening parts.colons w.body

variable (parts : WrittenLine)

theorem head?_colons (rest : Text) :
    (List.replicate parts.colons ':' ++ rest).head? = some ':' := by
  obtain ⟨more, hColons⟩ : ∃ more, parts.colons = more + 1 :=
    ⟨parts.colons - 1, by have := parts.two_le; omega⟩
  simp [hColons, List.replicate_succ]

/-- What follows the colons of a line is not another colon. -/
theorem head?_content_append {rest : Text} (h : Text.isBlankText rest = true) :
    (parts.content ++ rest).head? ≠ some ':' := by
  cases hDirective : parts.directive with
  | none =>
      intro hHead
      rw [content, hDirective] at hHead
      cases Text.isBlank_of_head? h hHead
  | some w =>
      obtain ⟨c, more, hWritten, hNe, -⟩ := w.exists_cons_written
      simpa [content, hDirective, hWritten] using hNe

/-- White space at the end of a line is no part of its content. -/
theorem endsSolid_content : parts.content.EndsSolid := by
  cases hDirective : parts.directive with
  | none => simp [content, hDirective, Text.EndsSolid]
  | some w => simpa [content, hDirective] using w.endsSolid_written

/-- A written line is read as the directive that is meant. -/
theorem read?_line : BlockLine.read? parts.line = some parts.blockLine := by
  have hStart : (List.replicate parts.colons ':' ++ parts.content ++ parts.ending).head? ≠
      some ' ' := by
    rw [List.append_assoc, head?_colons]
    simp
  have hNil : Text.isBlankText [] = true := rfl
  have hHead : parts.content.head? ≠ some ':' := by
    simpa using parts.head?_content_append hNil
  have hIndent := parts.indent_le
  have hColons := parts.two_le
  rw [line, BlockLine.read?_divided _ _ hStart hHead parts.endsSolid_content parts.isBlank_ending,
    if_neg (by omega), if_neg (by omega)]
  cases hDirective : parts.directive with
  | none =>
      have hThree := parts.three_le hDirective
      simp [content, blockLine, hDirective, hThree]
  | some w =>
      obtain ⟨c, more, hWritten, -, -⟩ := w.exists_cons_written
      have hRead := (w.endsBefore_of_isBlankText hNil).readDirectiveBody?
      rw [List.append_nil] at hRead
      have hContent : parts.content = w.written := by simp [content, hDirective]
      have hNotEmpty : w.written.isEmpty = false := by simp [hWritten]
      simp only [hContent, hNotEmpty, hRead, Option.bind_some, hNil, blockLine, hDirective,
        Bool.false_eq_true, if_false, if_true]
      split <;> rfl

/-- A line that is read as a directive is written as one. -/
theorem exists_of_read? {line : Text} {directive : BlockLine}
    (h : BlockLine.read? line = some directive) :
    ∃ parts : WrittenLine, parts.line = line ∧ parts.blockLine = directive := by
  obtain ⟨indent, s, rfl, hStart⟩ := Text.exists_replicate_append ' ' line
  obtain ⟨solid, ending, rfl, hSolid, hEnding⟩ := Text.exists_endsSolid_append s
  obtain ⟨colons, body, rfl, hHead⟩ := Text.exists_replicate_append ':' solid
  rw [BlockLine.read?_divided indent colons hStart hHead hSolid.of_append hEnding] at h
  split at h
  · cases h
  next hIndent =>
  split at h
  · cases h
  next hColons =>
  split at h
  · next hEmpty =>
      split at h
      · next hThree =>
          cases h
          obtain rfl := List.isEmpty_iff.1 hEmpty
          exact ⟨⟨indent, colons, none, ending, by omega, by omega, fun _ => hThree, hEnding⟩,
            rfl, rfl⟩
      · cases h
  · obtain ⟨⟨read, afterName, after⟩, hRead, hDirective⟩ := Option.bind_eq_some_iff.1 h
    obtain ⟨w, -, rfl, rfl, -⟩ := WrittenDirective.exists_of_readDirectiveBody? hRead
    dsimp only at hDirective
    split at hDirective
    · next hBlank =>
        have hRest : Text.isBlankText (after ++ ending) = true := by
          rw [Text.isBlankText, List.all_append]
          exact Bool.and_eq_true_iff.2 ⟨hBlank, hEnding⟩
        refine ⟨⟨indent, colons, some w, after ++ ending, by omega, by omega, by simp, hRest⟩, ?_, ?_⟩
        · simp [WrittenLine.line, content]
        · rw [blockLine]
          split at hDirective <;> simp_all
    · cases hDirective

variable {parts}

/-- The indentation and the colons of a line, and what follows them, are unique. -/
theorem eq_of_line {indent colons : Nat} {rest : Text}
    (h : parts.line = List.replicate indent ' ' ++ (List.replicate colons ':' ++ rest))
    (hColons : 0 < colons) (hRest : rest.head? ≠ some ':') :
    parts.indent = indent ∧ parts.colons = colons ∧ parts.content ++ parts.ending = rest := by
  have hColon : (List.replicate colons ':' ++ rest).head? = some ':' := by
    obtain ⟨more, rfl⟩ : ∃ more, colons = more + 1 := ⟨colons - 1, by omega⟩
    rfl
  rw [line, List.append_assoc] at h
  obtain ⟨hIndent, hTail⟩ := Text.replicate_append_inj (by rw [head?_colons]; simp)
    (by rw [hColon]; simp) h
  obtain ⟨hCount, hContent⟩ :=
    Text.replicate_append_inj (parts.head?_content_append parts.isBlank_ending) hRest hTail
  exact ⟨hIndent, hCount, hContent⟩

/-- Where something other than white space follows the colons there is a directive. -/
theorem exists_directive {c : Char} (h : c ∈ (parts.content ++ parts.ending).head?)
    (hSolid : isBlank c = false) : ∃ w, parts.directive = some w := by
  cases hDirective : parts.directive with
  | some w => exact ⟨w, rfl⟩
  | none =>
      have hEnding : c ∈ parts.ending.head? := by simpa [content, hDirective] using h
      rw [Text.isBlank_of_head? parts.isBlank_ending hEnding] at hSolid
      cases hSolid

/-- A line is divided in one way only. -/
theorem line_injective : Function.Injective line := by
  intro a b h
  have hDivided : a.line =
      List.replicate b.indent ' ' ++ (List.replicate b.colons ':' ++ (b.content ++ b.ending)) := by
    rw [h, line, List.append_assoc]
  have hTwo := b.two_le
  obtain ⟨hIndent, hColons, hTail⟩ :=
    eq_of_line hDivided (by omega) (b.head?_content_append b.isBlank_ending)
  have hDirective (x y : WrittenLine) (hEq : x.content ++ x.ending = y.content ++ y.ending)
      (w : WrittenDirective) (hWritten : x.directive = some w) : ∃ v, y.directive = some v := by
    obtain ⟨c, more, hFirst, -, hSolid⟩ := w.exists_cons_written
    have hHead : c ∈ (y.content ++ y.ending).head? := by
      rw [← hEq]
      simp [content, hWritten, hFirst]
    exact exists_directive hHead hSolid
  have hParts : a.directive = b.directive ∧ a.ending = b.ending := by
    cases ha : a.directive with
    | some w =>
        obtain ⟨v, hb⟩ := hDirective a b hTail w ha
        have hEq : w.written ++ a.ending = v.written ++ b.ending := by
          simpa [content, ha, hb] using hTail
        obtain ⟨rfl, hEnding⟩ := (w.endsBefore_of_isBlankText a.isBlank_ending).unique
          (v.endsBefore_of_isBlankText b.isBlank_ending) hEq
        exact ⟨hb.symm, hEnding⟩
    | none =>
        cases hb : b.directive with
        | none => exact ⟨rfl, by simpa [content, ha, hb] using hTail⟩
        | some v =>
            obtain ⟨w, hSome⟩ := hDirective b a hTail.symm v hb
            rw [ha] at hSome
            cases hSome
  exact WrittenLine.ext hIndent hColons hParts.1 hParts.2

end WrittenLine

/-- A line is read as a directive exactly if it is written as one: at most three spaces, the colons,
then nothing or a name with a label and an attribute list if there are any, and white space. What is read
is the directive that is meant, with the number of colons and the arguments that the label and the
attribute list give. All other lines are read as none, no line is written in two ways, and whatever is
written in this way is read back. -/
theorem BlockLine.read?_grammar :
    (∀ (line : Text) (directive : BlockLine), read? line = some directive ↔
      ∃ parts : WrittenLine, parts.line = line ∧ parts.blockLine = directive) ∧
    (∀ line : Text, read? line = none ↔ ∀ parts : WrittenLine, parts.line ≠ line) ∧
    Function.Injective WrittenLine.line ∧
    ∀ parts : WrittenLine, read? parts.line = some parts.blockLine := by
  refine ⟨fun line directive => ⟨WrittenLine.exists_of_read?, ?_⟩, fun line => ⟨?_, fun h => ?_⟩,
    WrittenLine.line_injective, WrittenLine.read?_line⟩
  · rintro ⟨parts, rfl, rfl⟩
    exact parts.read?_line
  · rintro hNone parts rfl
    rw [parts.read?_line] at hNone
    cases hNone
  · cases hRead : read? line with
    | none => rfl
    | some directive =>
        obtain ⟨parts, hLine, -⟩ := WrittenLine.exists_of_read? hRead
        exact absurd hLine (h parts)

/-- The brackets in this label balance, and so the line is a written one. -/
example : ∃ parts : WrittenLine, parts.line = text "  :::tip[a [b]]  " ∧ parts.colons = 3 :=
  ⟨⟨2, 3, some ⟨text "tip", some (text "a [b]"), none, by decide, by decide, by decide⟩, text "  ",
    by decide, by decide, nofun, by decide⟩, rfl, rfl⟩

end DirectiveMarkdown
