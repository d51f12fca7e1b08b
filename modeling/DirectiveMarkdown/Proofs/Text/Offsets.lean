import DirectiveMarkdown.Text.Basic

/-! Byte offsets of texts. An offset at which a text can be cut is the width of what stands before it. -/
namespace DirectiveMarkdown

namespace Text

/-- Characters that add nothing to the width are none. -/
theorem eq_nil_of_width_append_le {s t : Text} (h : width (s ++ t) ≤ width s) : t = [] := by
  cases t with
  | nil => rfl
  | cons c t =>
      have hSize := c.utf8Size_pos
      rw [width_append, width_cons] at h
      omega

theorem width_pos_iff {s : Text} : 0 < width s ↔ s ≠ [] := by
  cases s with
  | nil => simp
  | cons c s => simpa using Nat.add_pos_left c.utf8Size_pos _

/-- A text can be cut after each of its characters. -/
theorem splitAtByte?_width (s t : Text) : splitAtByte? (s ++ t) (width s) = some (s, t) := by
  induction s with
  | nil => cases t <;> rfl
  | cons c s ih =>
      have hSize := c.utf8Size_pos
      obtain ⟨more, hMore⟩ : ∃ more, c.utf8Size + width s = more + 1 :=
        ⟨c.utf8Size + width s - 1, by omega⟩
      have hRest : more + 1 - c.utf8Size = width s := by omega
      rw [List.cons_append, width_cons, hMore, splitAtByte?, if_pos (by omega), hRest, ih]
      rfl

/-- Both sides of a cut together are the text, and the offset is the width of the first. -/
theorem eq_of_splitAtByte? {s before after : Text} {offset : Nat}
    (h : splitAtByte? s offset = some (before, after)) :
    s = before ++ after ∧ width before = offset := by
  induction s generalizing offset before with
  | nil =>
      cases offset with
      | zero => cases h; exact ⟨rfl, rfl⟩
      | succ offset => cases h
  | cons c s ih =>
      cases offset with
      | zero => cases h; exact ⟨rfl, rfl⟩
      | succ offset =>
          unfold splitAtByte? at h
          split at h
          · obtain ⟨⟨read, rest⟩, hRead, hEq⟩ := Option.map_eq_some_iff.1 h
            cases hEq
            obtain ⟨hText, hWidth⟩ := ih hRead
            refine ⟨by rw [hText, List.cons_append], ?_⟩
            rw [width_cons, hWidth]
            omega
          · cases h

/-- Of two beginnings of a text the one that is no wider is the beginning of the other. -/
theorem exists_append_of_width_le {a b c d : Text} (h : a ++ b = c ++ d)
    (hWidth : width a ≤ width c) : ∃ between, c = a ++ between ∧ b = between ++ d := by
  rcases List.append_eq_append_iff.1 h with ⟨between, rfl, rfl⟩ | ⟨between, rfl, rfl⟩
  · exact ⟨between, rfl, rfl⟩
  · obtain rfl := eq_nil_of_width_append_le hWidth
    exact ⟨[], by simp, by simp⟩

/-- Two beginnings of a text of the same width are the same. -/
theorem append_inj_of_width_eq {a b c d : Text} (h : a ++ b = c ++ d) (hWidth : width a = width c) :
    a = c ∧ b = d := by
  obtain ⟨between, rfl, rfl⟩ := exists_append_of_width_le h (Nat.le_of_eq hWidth)
  obtain rfl := eq_nil_of_width_append_le (Nat.le_of_eq hWidth.symm)
  exact ⟨by simp, by simp⟩

end Text

end DirectiveMarkdown
