import DirectiveMarkdown.Text.Basic

/-! The characters of a text that are not white space. Markdown adds and drops white space as it
reads a text, but it never makes more of the other characters than there were. -/
namespace DirectiveMarkdown

section Total

variable {α : Type} (weight : α → Nat)

/-- The weights of all items together. -/
def total : List α → Nat
  | [] => 0
  | item :: rest => weight item + total rest

@[simp] theorem total_nil : total weight [] = 0 := rfl

@[simp] theorem total_cons (item : α) (rest : List α) :
    total weight (item :: rest) = weight item + total weight rest := rfl

@[simp] theorem total_append (items more : List α) :
    total weight (items ++ more) = total weight items + total weight more := by
  induction items with
  | nil => rw [List.nil_append, total_nil, Nat.zero_add]
  | cons item rest ih => rw [List.cons_append, total_cons, ih, total_cons, Nat.add_assoc]

@[simp] theorem total_reverse (items : List α) : total weight items.reverse = total weight items := by
  induction items with
  | nil => rfl
  | cons item rest ih =>
      rw [List.reverse_cons, total_append, ih, total_cons, total_cons, total_nil]
      omega

/-- Fewer items weigh no more. -/
theorem total_le_of_sublist {items more : List α} (h : items.Sublist more) :
    total weight items ≤ total weight more := by
  induction h with
  | slnil => exact Nat.le_refl _
  | cons item _ ih =>
      rw [total_cons]
      exact Nat.le_add_left_of_le ih
  | cons_cons item _ ih =>
      rw [total_cons, total_cons]
      exact Nat.add_le_add_left ih _

/-- Items that are changed without a change of weight. -/
theorem total_map_of_eq {f : α → α} (h : ∀ item, weight (f item) = weight item) (items : List α) :
    total weight (items.map f) = total weight items := by
  induction items with
  | nil => rfl
  | cons item rest ih => rw [List.map_cons, total_cons, total_cons, h, ih]

end Total

namespace Text

/-- The number of characters that are not ASCII white space. -/
def ink (s : Text) : Nat := s.countP fun c => !isAsciiBlank c

variable {s t : Text} {c : Char}

@[simp] theorem ink_nil : ink [] = 0 := rfl

theorem ink_cons_of_not_blank (h : isAsciiBlank c = false) (s : Text) :
    ink (c :: s) = ink s + 1 :=
  List.countP_cons_of_pos (by simp [h])

@[simp] theorem ink_append (s t : Text) : ink (s ++ t) = ink s + ink t := List.countP_append

@[simp] theorem ink_reverse (s : Text) : ink s.reverse = ink s := List.countP_reverse

theorem ink_le_length (s : Text) : s.ink ≤ s.length := List.countP_le_length

/-- Leaving characters out adds no ink. -/
theorem ink_mono (h : s.Sublist t) : s.ink ≤ t.ink := h.countP_le

/-- What leaves a character out that is not white space has less ink. -/
theorem ink_lt_of_sublist (hBlank : isAsciiBlank c = false) (h : (c :: s).Sublist t) :
    s.ink < t.ink := by
  have hLe := ink_mono h
  rwa [ink_cons_of_not_blank hBlank] at hLe

@[simp] theorem ink_replicate_space (n : Nat) : ink (List.replicate n ' ') = 0 := by
  rw [ink, List.countP_replicate]
  rfl

theorem ink_replicate_mono {m n : Nat} (h : m ≤ n) (c : Char) :
    ink (List.replicate m c) ≤ ink (List.replicate n c) :=
  ink_mono ((List.replicate_sublist_replicate c).2 h)

@[simp] theorem ink_flatten (pieces : List Text) : ink pieces.flatten = total ink pieces := by
  induction pieces with
  | nil => rfl
  | cons piece rest ih => rw [List.flatten_cons, ink_append, ih, total_cons]

/-- Line feeds between texts add nothing. -/
theorem ink_join_newline (pieces : List Text) : ink (join ['\n'] pieces) = total ink pieces := by
  induction pieces with
  | nil => rfl
  | cons piece rest ih =>
      rw [total_cons, ← ih]
      cases rest with
      | nil => rfl
      | cons next rest =>
          have hJoin : join ['\n'] (piece :: next :: rest) =
              piece ++ ['\n'] ++ join ['\n'] (next :: rest) := rfl
          rw [hJoin, ink_append, ink_append]
          rfl

end Text

end DirectiveMarkdown
