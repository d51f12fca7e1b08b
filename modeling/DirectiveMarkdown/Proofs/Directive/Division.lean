import DirectiveMarkdown.Proofs.Directive.Search

/-! The division of running text around the directives found in it. The parts are the text, piece by
piece, and a piece between directives holds none when it stands on its own. -/
namespace DirectiveMarkdown

/-- A part of a text that is divided around its directives. -/
inductive TextPart where
  | plain (value : Text)
  | directive (body : DirectiveBody) (written : Text)

namespace TextPart

def written : TextPart → Text
  | plain value => value
  | directive _ written => written

/-- A text without directives is one part, unless it is empty. -/
def whole (value : Text) : List TextPart := if value.isEmpty then [] else [plain value]

/-- The parts of a text in which the given directives are found one after the other. -/
def around (s : Text) : List InlineDirective → List TextPart
  | [] => whole s
  | found :: more =>
    whole found.before ++ directive found.body found.written :: around found.after more

theorem mem_whole {part : TextPart} {value : Text} :
    part ∈ whole value ↔ value ≠ [] ∧ part = plain value := by
  cases value <;> simp [whole]

theorem flatMap_written_whole (value : Text) : (whole value).flatMap written = value := by
  cases value <;> simp [whole, written]

end TextPart

def textParts (s : Text) : List TextPart := TextPart.around s (InlineDirective.findAll none s)

/-- A directive in running text ends with a closing delimiter. -/
theorem WrittenDirective.IsInline.getLast?_written {w : WrittenDirective} (h : w.IsInline) :
    w.written.getLast? = some ']' ∨ w.written.getLast? = some '}' := by
  cases hList : w.attributes with
  | some content =>
      right
      simp [written, pieces, delimit, hList, List.getLast?_append, List.getLast?_cons]
  | none =>
      left
      have hLabel : w.label.isSome = true := by simpa [hList] using h.delimited
      obtain ⟨content, hContent⟩ := Option.isSome_iff_exists.1 hLabel
      simp [written, pieces, delimit, hList, hContent, List.getLast?_append, List.getLast?_cons]

namespace InlineDirective

variable {previous : Option Char} {s : Text} {found : InlineDirective}

/-- The character before a text counts only if no directive may follow it. -/
theorem find?_of_mayFollow (h : mayFollow previous = true) (s : Text) :
    find? previous s = find? none s := by
  cases s with
  | nil => rfl
  | cons c rest =>
      have hStart : mayFollow none = true := rfl
      rw [find?, find?, h, hStart]

/-- What a directive ends with is no obstacle for a directive after it. -/
theorem mayFollow_written (h : find? previous s = some found) :
    mayFollow found.written.getLast? = true := by
  obtain ⟨written, hWritten, -, -, hRead, -⟩ := exists_of_find? h
  obtain ⟨w, hInline, -, -, -, rfl⟩ := WrittenDirective.exists_of_readAt? hRead
  rw [hWritten]
  rcases hInline.getLast?_written with hLast | hLast <;>
    rw [List.getLast?_cons, hLast] <;> decide

/-- The text before the first directive holds none on its own. One that is written in it is written in
the whole text as well. -/
theorem find?_before (h : find? previous s = some found) : find? previous found.before = none := by
  obtain ⟨written, -, hText, -, -, hLeft⟩ := exists_of_find? h
  cases hInner : find? previous found.before with
  | none => rfl
  | some inner =>
      obtain ⟨innerWritten, -, hBefore, hFollow, hRead, -⟩ := exists_of_find? hInner
      obtain ⟨w, hInline, -, -, -, rfl⟩ := WrittenDirective.exists_of_readAt? hRead
      rw [hBefore, List.append_assoc, List.cons_append, List.append_assoc] at hText
      have hLess : inner.before.length < found.before.length := by
        rw [hBefore, List.length_append, List.length_cons]
        omega
      have hNotRead := hLeft inner.before _ hText hLess hFollow
      exact absurd rfl (WrittenDirective.readAt?_eq_none_iff.1 hNotRead w hInline _)

end InlineDirective

namespace TextPart

open InlineDirective

variable {previous : Option Char} {s : Text} {fuel : Nat} {part : TextPart}

/-- The parts in order are the text. -/
theorem flatMap_written_around (fuel : Nat) (previous : Option Char) (s : Text) :
    (around s (findAllUpTo fuel previous s)).flatMap written = s := by
  fun_induction findAllUpTo fuel previous s with
  | case1 => exact flatMap_written_whole _
  | case2 => exact flatMap_written_whole _
  | case3 fuel previous s found hFound ih =>
      obtain ⟨written, hWritten, hText, -⟩ := exists_of_find? hFound
      rw [around, List.flatMap_append, List.flatMap_cons, flatMap_written_whole, ih]
      simp [TextPart.written, hWritten, hText]

/-- No part is empty. -/
theorem written_ne_nil (h : part ∈ around s (findAllUpTo fuel previous s)) : part.written ≠ [] := by
  have hWhole : ∀ {value : Text}, part ∈ whole value → part.written ≠ [] := by
    intro value hMem
    obtain ⟨hNe, rfl⟩ := mem_whole.1 hMem
    exact hNe
  fun_induction findAllUpTo fuel previous s with
  | case1 => exact hWhole h
  | case2 => exact hWhole h
  | case3 fuel previous s found hFound ih =>
      obtain ⟨written, hWritten, -⟩ := exists_of_find? hFound
      rcases List.mem_append.1 h with hBefore | hRest
      · exact hWhole hBefore
      · rcases List.mem_cons.1 hRest with rfl | hAfter
        · simp [TextPart.written, hWritten]
        · exact ih hAfter

/-- Text between directives holds none, wherever it stands. -/
theorem find?_of_plain_mem {value : Text} (hFollow : mayFollow previous = true)
    (hFuel : s.length ≤ fuel) (h : plain value ∈ around s (findAllUpTo fuel previous s)) :
    find? none value = none := by
  fun_induction findAllUpTo fuel previous s with
  | case1 previous s =>
      obtain ⟨hNe, -⟩ := mem_whole.1 h
      exact absurd (List.length_eq_zero_iff.1 (Nat.le_zero.1 hFuel)) hNe
  | case2 fuel previous s hNone =>
      obtain ⟨-, hValue⟩ := mem_whole.1 h
      cases hValue
      rwa [find?_of_mayFollow hFollow] at hNone
  | case3 fuel previous s found hFound ih =>
      rcases List.mem_append.1 h with hBefore | hRest
      · obtain ⟨-, hValue⟩ := mem_whole.1 hBefore
        cases hValue
        rw [← find?_of_mayFollow hFollow]
        exact find?_before hFound
      · rcases List.mem_cons.1 hRest with hDirective | hAfter
        · cases hDirective
        · have hShorter := length_after_lt hFound
          exact ih (mayFollow_written hFound) (by omega) hAfter

end TextPart

end DirectiveMarkdown
