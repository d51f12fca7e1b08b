import DirectiveMarkdown.Proofs.Directive.Parts
import DirectiveMarkdown.Proofs.Directive.Printing

/-! Directives as they are written after their colons: a name, then a label and an attribute list if
there are any, with nothing between them. The reader takes as much of a text as belongs to a directive,
and there is one way only to divide the text into these parts. -/
namespace DirectiveMarkdown

section Delimited

variable {opening closing : Char}

/-- What is read up to a closing delimiter is balanced. -/
theorem isBalanced_of_delimitedBody? {depth : Nat} {s content after : Text}
    (h : delimitedBody? opening closing depth s = some (content, after)) :
    isBalanced opening closing depth content = true := by
  induction s generalizing depth content with
  | nil => cases h
  | cons c s ih =>
      unfold delimitedBody? at h
      by_cases hOpening : c = opening
      · rw [if_pos hOpening] at h
        obtain ⟨⟨read, more⟩, hRead, hEq⟩ := Option.map_eq_some_iff.1 h
        cases hEq
        simpa [isBalanced, hOpening] using ih hRead
      · rw [if_neg hOpening] at h
        by_cases hClosing : c = closing
        · rw [if_pos hClosing] at h
          cases depth with
          | zero =>
              cases h
              rfl
          | succ depth =>
              obtain ⟨⟨read, more⟩, hRead, hEq⟩ := Option.map_eq_some_iff.1 h
              cases hEq
              subst hClosing
              simpa [isBalanced, hOpening] using ih hRead
        · rw [if_neg hClosing] at h
          obtain ⟨⟨read, more⟩, hRead, hEq⟩ := Option.map_eq_some_iff.1 h
          cases hEq
          simpa [isBalanced, hOpening, hClosing] using ih hRead

/-- The text starts with a piece whose delimiters balance. -/
def StartsDelimited (opening closing : Char) (s : Text) : Prop :=
  ∃ content after, isBalanced opening closing 0 content = true ∧
    s = opening :: (content ++ closing :: after)

/-- A piece in its delimiters, if there is one. -/
def delimit (opening closing : Char) : Option Text → Text
  | none => []
  | some content => opening :: (content ++ [closing])

/-- Delimiters balance in the piece if there is one, and else none starts the text after it. -/
structure StandsBefore (opening closing : Char) (piece : Option Text) (rest : Text) : Prop where
  balanced : ∀ content ∈ piece, isBalanced opening closing 0 content = true
  absent : piece = none → ¬StartsDelimited opening closing rest

variable {piece : Option Text} {rest : Text}

theorem delimitedBody?_none_of_not_startsDelimited {s : Text}
    (h : ¬StartsDelimited opening closing (opening :: s)) :
    delimitedBody? opening closing 0 s = none := by
  cases hBody : delimitedBody? opening closing 0 s with
  | none => rfl
  | some read =>
      obtain ⟨content, after⟩ := read
      refine absurd ⟨content, after, isBalanced_of_delimitedBody? hBody, ?_⟩ h
      rw [eq_of_delimitedBody? hBody]

/-- A piece is read from between its delimiters. -/
theorem StandsBefore.delimited (h : StandsBefore opening closing piece rest)
    (hNe : closing ≠ opening) :
    DirectiveMarkdown.delimited opening closing (delimit opening closing piece ++ rest) =
      (piece.getD [], rest) := by
  cases piece with
  | none =>
      cases rest with
      | nil => rfl
      | cons c rest =>
          have hNone := h.absent rfl
          by_cases hOpening : c = opening
          · subst hOpening
            simp [DirectiveMarkdown.delimited, delimit,
              delimitedBody?_none_of_not_startsDelimited hNone]
          · simp [DirectiveMarkdown.delimited, delimit, hOpening]
  | some content =>
      have hBody := delimitedBody?_append hNe (h.balanced content rfl) rest
      simp [DirectiveMarkdown.delimited, delimit, hBody]

/-- Every text starts with a piece or does not. -/
theorem exists_standsBefore (opening closing : Char) (s : Text) :
    ∃ piece rest, StandsBefore opening closing piece rest ∧
      s = delimit opening closing piece ++ rest := by
  by_cases hStarts : StartsDelimited opening closing s
  · obtain ⟨content, after, hBalanced, rfl⟩ := hStarts
    exact ⟨some content, after, ⟨by simpa using hBalanced, nofun⟩, by simp [delimit]⟩
  · exact ⟨none, s, ⟨nofun, fun _ => hStarts⟩, rfl⟩

/-- There is one way only to divide a text so. -/
theorem StandsBefore.unique {other : Option Text} {more : Text}
    (h : StandsBefore opening closing piece rest) (hOther : StandsBefore opening closing other more)
    (hNe : closing ≠ opening)
    (hEq : delimit opening closing piece ++ rest = delimit opening closing other ++ more) :
    piece = other ∧ rest = more := by
  cases piece with
  | none =>
      cases other with
      | none => exact ⟨rfl, hEq⟩
      | some content =>
          refine absurd ⟨content, more, hOther.balanced content rfl, ?_⟩ (h.absent rfl)
          simpa [delimit] using hEq
  | some content =>
      cases other with
      | none =>
          refine absurd ⟨content, rest, h.balanced content rfl, ?_⟩ (hOther.absent rfl)
          simpa [delimit] using hEq.symm
      | some found =>
          have hBody := delimitedBody?_append hNe (h.balanced content rfl) rest
          have hFound := delimitedBody?_append hNe (hOther.balanced found rfl) more
          have hTail : content ++ closing :: rest = found ++ closing :: more := by
            simpa [delimit] using hEq
          rw [hTail, hFound] at hBody
          cases hBody
          exact ⟨rfl, rfl⟩

end Delimited

/-- A directive as it is written after its colons. Delimiters balance in its label and in its attribute
list. -/
@[ext]
structure WrittenDirective where
  name : Text
  label : Option Text
  attributes : Option Text
  isName : isDirectiveName name = true
  label_balanced : ∀ content ∈ label, isBalanced '[' ']' 0 content = true
  attributes_balanced : ∀ content ∈ attributes, isBalanced '{' '}' 0 content = true

namespace WrittenDirective

/-- The label and the attribute list as they stand after the name. -/
def pieces (w : WrittenDirective) : Text := delimit '[' ']' w.label ++ delimit '{' '}' w.attributes

def written (w : WrittenDirective) : Text := w.name ++ w.pieces

/-- The directive that is meant. A label or an attribute list that is missing is empty. -/
def body (w : WrittenDirective) : DirectiveBody :=
  ⟨w.name, Arguments.read (w.label.getD []) (w.attributes.getD [])⟩

/-- Nothing of the text after the directive belongs to it. -/
structure EndsBefore (w : WrittenDirective) (rest : Text) : Prop where
  name : ∀ c ∈ (w.pieces ++ rest).head?, endsDirectiveName c = true
  label : w.label = none → ¬StartsDelimited '[' ']' (delimit '{' '}' w.attributes ++ rest)
  attributes : w.attributes = none → ¬StartsDelimited '{' '}' rest

variable {w : WrittenDirective} {rest : Text}

/-- After the name stands a delimiter, or what follows the directive. -/
theorem mem_head?_pieces {c : Char} (h : c ∈ (w.pieces ++ rest).head?) :
    w.label.isSome ∧ c = '[' ∨ w.label = none ∧ w.attributes.isSome ∧ c = '{' ∨
      w.pieces = [] ∧ c ∈ rest.head? := by
  cases hLabel : w.label with
  | some content =>
      obtain rfl : '[' = c := by simpa [pieces, hLabel, delimit] using h
      simp
  | none =>
      cases hList : w.attributes with
      | some content =>
          obtain rfl : '{' = c := by simpa [pieces, hLabel, hList, delimit] using h
          simp
      | none =>
          have hNone : w.pieces = [] := by simp [pieces, hLabel, hList, delimit]
          rw [hNone] at h
          simpa [hNone] using h

/-- What follows a directive may start with anything but a piece that belongs to it. -/
theorem endsBefore_of (hName : w.pieces = [] → ∀ c ∈ rest.head?, isBlank c = true)
    (hAttributes : w.attributes = none → ¬StartsDelimited '{' '}' rest) : w.EndsBefore rest where
  name := by
    intro c hMem
    rcases mem_head?_pieces hMem with ⟨-, rfl⟩ | ⟨-, -, rfl⟩ | ⟨hNone, hRest⟩
    · rfl
    · rfl
    · simp [endsDirectiveName, hName hNone c hRest]
  label := by
    rintro hLabel ⟨content, after, -, hEq⟩
    have hHead : '[' ∈ (w.pieces ++ rest).head? := by
      rw [pieces, hLabel, delimit, List.nil_append, hEq]
      rfl
    rcases mem_head?_pieces hHead with ⟨hSome, -⟩ | ⟨-, -, hEq⟩ | ⟨hNone, hRest⟩
    · simp [hLabel] at hSome
    · cases hEq
    · cases hName hNone _ hRest
  attributes := hAttributes

/-- The label is read up to its own closing bracket. -/
theorem EndsBefore.standsBefore_label (h : w.EndsBefore rest) :
    StandsBefore '[' ']' w.label (delimit '{' '}' w.attributes ++ rest) :=
  ⟨w.label_balanced, h.label⟩

/-- The attribute list is read up to its own closing brace. -/
theorem EndsBefore.standsBefore_attributes (h : w.EndsBefore rest) :
    StandsBefore '{' '}' w.attributes rest :=
  ⟨w.attributes_balanced, h.attributes⟩

theorem written_append (w : WrittenDirective) (rest : Text) :
    w.written ++ rest = w.name ++ (w.pieces ++ rest) := List.append_assoc ..

/-- The name goes up to the first character that ends one. -/
theorem EndsBefore.span_name (h : w.EndsBefore rest) :
    (w.written ++ rest).takeWhile (fun c => !endsDirectiveName c) = w.name ∧
      (w.written ++ rest).dropWhile (fun c => !endsDirectiveName c) = w.pieces ++ rest := by
  have hName : ∀ c ∈ w.name, (!endsDirectiveName c) = true := by
    intro c hMem
    simp [endsDirectiveName_of_mem w.isName hMem]
  have hStop : ∀ c ∈ (w.pieces ++ rest).head?, (!endsDirectiveName c) = false := by
    intro c hMem
    simp [h.name c hMem]
  rw [written_append]
  exact ⟨Text.takeWhile_append_stop hName hStop, Text.dropWhile_append_stop hName hStop⟩

/-- A written directive is read up to what does not belong to it. -/
theorem EndsBefore.readDirectiveBody? (h : w.EndsBefore rest) :
    DirectiveMarkdown.readDirectiveBody? (w.written ++ rest) =
      some (w.body, w.pieces ++ rest, rest) := by
  obtain ⟨hTake, hDrop⟩ := h.span_name
  have hLabel := h.standsBefore_label.delimited (by decide)
  have hList := h.standsBefore_attributes.delimited (by decide)
  rw [← List.append_assoc] at hLabel
  rw [DirectiveMarkdown.readDirectiveBody?, hTake, hDrop]
  simp only [w.isName, if_true, pieces, hLabel, hList, body]

/-- What is read as a directive is written as one, and nothing after it belongs to it. -/
theorem exists_of_readDirectiveBody? {s afterName : Text} {body : DirectiveBody}
    (h : readDirectiveBody? s = some (body, afterName, rest)) :
    ∃ w : WrittenDirective, w.EndsBefore rest ∧ s = w.written ++ rest ∧ w.body = body ∧
      afterName = w.pieces ++ rest := by
  obtain ⟨label, afterLabel, hLabel, hAfterName⟩ :=
    exists_standsBefore '[' ']' (s.dropWhile fun c => !endsDirectiveName c)
  obtain ⟨attributes, more, hList, rfl⟩ := exists_standsBefore '{' '}' afterLabel
  have hReadLabel := hLabel.delimited (by decide)
  have hReadList := hList.delimited (by decide)
  rw [readDirectiveBody?] at h
  dsimp only at h
  split at h
  · next hName =>
      rw [hAfterName] at h
      simp only [hReadLabel, hReadList] at h
      cases h
      let w : WrittenDirective :=
        ⟨_, label, attributes, hName, hLabel.balanced, hList.balanced⟩
      have hPieces : w.pieces ++ rest =
          s.dropWhile fun c => !endsDirectiveName c := by
        rw [hAfterName, pieces, List.append_assoc]
      refine ⟨w, ⟨?_, hLabel.absent, hList.absent⟩, ?_, rfl, by rw [hPieces, hAfterName]⟩
      · intro c hMem
        rw [hPieces] at hMem
        have hHead := List.head?_dropWhile_not (fun c => !endsDirectiveName c) s
        rw [Option.mem_def.1 hMem] at hHead
        simpa using hHead
      · rw [written_append, hPieces]
        exact List.takeWhile_append_dropWhile.symm
  · cases h

/-- A text is divided in one way only into a directive and what does not belong to it. -/
theorem EndsBefore.unique {other : WrittenDirective} {more : Text} (h : w.EndsBefore rest)
    (hOther : other.EndsBefore more) (hEq : w.written ++ rest = other.written ++ more) :
    w = other ∧ rest = more := by
  obtain ⟨hName, hPieces⟩ := h.span_name
  rw [hEq, hOther.span_name.1] at hName
  rw [hEq, hOther.span_name.2, pieces, pieces, List.append_assoc, List.append_assoc] at hPieces
  obtain ⟨hLabel, hTail⟩ :=
    h.standsBefore_label.unique hOther.standsBefore_label (by decide) hPieces.symm
  obtain ⟨hList, hRest⟩ :=
    h.standsBefore_attributes.unique hOther.standsBefore_attributes (by decide) hTail
  exact ⟨WrittenDirective.ext hName.symm hLabel hList, hRest⟩

end WrittenDirective

end DirectiveMarkdown
