import DirectiveMarkdown.Proofs.Text.Offsets

/-! Slices of a text by byte offsets, and subtraction of offsets. A slice is impossible at an offset
inside a character or past the end, and a subtraction if its result is below zero. Offsets that come
from a search, or count characters of one byte each, are where the text can be cut. -/
namespace DirectiveMarkdown

/-- What stops a computation with offsets. -/
inductive Panic where
  | slice (s : Text) (offset : Nat)
  | order (start stop : Nat)
  | subtraction (a b : Nat)

namespace Panic

/-- What goes on without a panic goes on with the result. -/
@[simp]
theorem ok_bind {α β : Type} (a : α) (f : α → Except Panic β) : (Except.ok a >>= f) = f a := rfl

end Panic

def checkedSub (a b : Nat) : Except Panic Nat :=
  if b ≤ a then .ok (a - b) else .error (.subtraction a b)

theorem checkedSub_of_le {a b : Nat} (h : b ≤ a) : checkedSub a b = .ok (a - b) := if_pos h

namespace Text

def sliceFrom (s : Text) (offset : Nat) : Except Panic Text :=
  match splitAtByte? s offset with
  | some cut => .ok cut.2
  | none => .error (.slice s offset)

def sliceTo (s : Text) (offset : Nat) : Except Panic Text :=
  match splitAtByte? s offset with
  | some cut => .ok cut.1
  | none => .error (.slice s offset)

def sliceBetween (s : Text) (start stop : Nat) : Except Panic Text :=
  if start ≤ stop then do
    let before ← sliceTo s stop
    sliceFrom before start
  else .error (.order start stop)

/-- The byte offset of the first character with a property. -/
def offsetOf? (p : Char → Bool) : Text → Option Nat
  | [] => none
  | c :: s => if p c then some 0 else (offsetOf? p s).map (c.utf8Size + ·)

variable {s before after : Text} {p : Char → Bool}

/-- The width of a beginning is an offset, behind which the rest stands. -/
theorem sliceFrom_width (before after : Text) :
    sliceFrom (before ++ after) (width before) = .ok after := by
  rw [sliceFrom, splitAtByte?_width]

/-- The second byte of a character is no place for a cut. -/
example : sliceFrom (text "é:") 1 = .error (.slice (text "é:") 1) := rfl

theorem sliceTo_width (before after : Text) :
    sliceTo (before ++ after) (width before) = .ok before := by
  rw [sliceTo, splitAtByte?_width]

/-- Widths of a beginning and of a longer one are offsets between which the rest stands. -/
theorem sliceBetween_width (before between after : Text) :
    sliceBetween (before ++ between ++ after) (width before) (width before + width between) =
      .ok between := by
  have hTo := sliceTo_width (before ++ between) after
  rw [width_append] at hTo
  rw [sliceBetween, if_pos (Nat.le_add_right ..), hTo]
  exact sliceFrom_width before between

/-- A search that finds nothing stands for the end of the text. -/
theorem offsetOf?_getD (p : Char → Bool) (s : Text) :
    (offsetOf? p s).getD (width s) = width (s.takeWhile fun c => !p c) := by
  induction s with
  | nil => rfl
  | cons c s ih =>
      rw [offsetOf?]
      cases hChar : p c with
      | true => simp [hChar]
      | false =>
          rw [List.takeWhile_cons_of_pos (by rw [hChar]; rfl), width_cons, width_cons, ← ih]
          cases offsetOf? p s <;> rfl

theorem sliceTo_takeWhile (p : Char → Bool) (s : Text) :
    sliceTo s (width (s.takeWhile p)) = .ok (s.takeWhile p) := by
  have hCut := sliceTo_width (s.takeWhile p) (s.dropWhile p)
  rwa [List.takeWhile_append_dropWhile] at hCut

/-- The cut behind a run of characters never fails. -/
theorem sliceFrom_takeWhile (p : Char → Bool) (s : Text) :
    sliceFrom s (width (s.takeWhile p)) = .ok (s.dropWhile p) := by
  have hCut := sliceFrom_width (s.takeWhile p) (s.dropWhile p)
  rwa [List.takeWhile_append_dropWhile] at hCut

/-- A search finds the offset of the first character with the property. -/
theorem exists_of_offsetOf? {offset : Nat} (h : offsetOf? p s = some offset) :
    ∃ before c after, s = before ++ c :: after ∧ width before = offset ∧ p c = true ∧
      ∀ d ∈ before, p d = false := by
  induction s generalizing offset with
  | nil => cases h
  | cons c s ih =>
      rw [offsetOf?] at h
      split at h
      · next hChar =>
          cases h
          exact ⟨[], c, s, rfl, rfl, hChar, List.forall_mem_nil _⟩
      · next hChar =>
          obtain ⟨found, hFound, rfl⟩ := Option.map_eq_some_iff.1 h
          obtain ⟨before, d, after, rfl, rfl, hPlace, hBefore⟩ := ih hFound
          exact ⟨c :: before, d, after, rfl, rfl, hPlace,
            List.forall_mem_cons.2 ⟨Bool.eq_false_iff.2 hChar, hBefore⟩⟩

/-- The first character with the property stands behind those without it. -/
theorem offsetOf?_append (hBefore : ∀ d ∈ before, p d = false) {c : Char} (hChar : p c = true)
    (after : Text) : offsetOf? p (before ++ c :: after) = some (width before) := by
  induction before with
  | nil => rw [List.nil_append, offsetOf?, if_pos hChar, width_nil]
  | cons d before ih =>
      obtain ⟨hFirst, hRest⟩ := List.forall_mem_cons.1 hBefore
      rw [List.cons_append, offsetOf?, if_neg (Bool.eq_false_iff.1 hFirst), ih hRest]
      rfl

theorem not_mem_of_offsetOf? (h : offsetOf? p s = none) : ∀ c ∈ s, p c = false := by
  induction s with
  | nil => exact List.forall_mem_nil _
  | cons c s ih =>
      rw [offsetOf?] at h
      split at h
      · cases h
      · next hChar =>
          exact List.forall_mem_cons.2
            ⟨Bool.eq_false_iff.2 hChar, ih (Option.map_eq_none_iff.1 h)⟩

/-- A count of characters of one byte each is an offset. -/
theorem width_eq_length (h : ∀ c ∈ s, c.utf8Size = 1) : width s = s.length := by
  induction s with
  | nil => rfl
  | cons c s ih =>
      obtain ⟨hChar, hRest⟩ := List.forall_mem_cons.1 h
      rw [width_cons, hChar, ih hRest, List.length_cons, Nat.add_comm]

/-- Characters of one byte are counted by their width. -/
theorem width_takeWhile (h : ∀ c, p c = true → c.utf8Size = 1) (s : Text) :
    width (s.takeWhile p) = (s.takeWhile p).length :=
  width_eq_length fun c hMem => h c (List.all_eq_true.1 List.all_takeWhile c hMem)

/-- The count of the characters that a text starts with, each of one byte, is an offset at which it can
be cut. -/
theorem sliceFrom_length_takeWhile (h : ∀ c, p c = true → c.utf8Size = 1) (s : Text) :
    sliceFrom s (s.takeWhile p).length = .ok (s.dropWhile p) := by
  rw [← width_takeWhile h, sliceFrom_takeWhile]

/-- The width of some of the characters that a text starts with, each of one byte. -/
theorem width_take {n : Nat} (h : ∀ c, p c = true → c.utf8Size = 1)
    (hLe : n ≤ (s.takeWhile p).length) : width (s.take n) = n := by
  have hTake : s.take n = (s.takeWhile p).take n := by
    have hText := congrArg (List.take n) (List.takeWhile_append_dropWhile (p := p) (l := s))
    rw [← hText, List.take_append_of_le_length hLe]
  rw [hTake, width_eq_length, List.length_take, Nat.min_eq_left hLe]
  exact fun c hMem => h c (List.all_eq_true.1 List.all_takeWhile c (List.mem_of_mem_take hMem))

/-- A text can be cut after each of these characters. -/
theorem sliceFrom_eq_drop {n : Nat} (h : ∀ c, p c = true → c.utf8Size = 1)
    (hLe : n ≤ (s.takeWhile p).length) : sliceFrom s n = .ok (s.drop n) := by
  have hCut := sliceFrom_width (s.take n) (s.drop n)
  rwa [List.take_append_drop, width_take h hLe] at hCut

/-- The number of bytes that are cut off at the start of a text. -/
theorem checkedSub_width_dropWhile (p : Char → Bool) (s : Text) :
    checkedSub (width s) (width (s.dropWhile p)) = .ok (width (s.takeWhile p)) := by
  have hWidth : width s = width (s.takeWhile p) + width (s.dropWhile p) := by
    rw [← width_append, List.takeWhile_append_dropWhile]
  rw [checkedSub_of_le (by omega), hWidth, Nat.add_sub_cancel_right]

end Text

/-- A character of ASCII takes one byte. -/
theorem utf8Size_of_ascii {c : Char} (h : c.toNat < 128) : c.utf8Size = 1 := by
  rw [Char.utf8Size_eq_one_iff, UInt32.le_iff_toNat_le]
  exact Nat.le_of_lt_succ h

theorem utf8Size_of_beq_space (c : Char) (h : (c == ' ') = true) : c.utf8Size = 1 := by
  rw [eq_of_beq h]
  rfl

namespace Text

def bytes (s : Text) : List UInt8 := s.flatMap String.utf8EncodeChar

/-- A character of ASCII is its byte. -/
theorem toNat_ofNat_of_ascii {c : Char} (h : c.toNat < 128) :
    (UInt8.ofNat c.toNat).toNat = c.toNat := by
  rw [UInt8.toNat_ofNat', Nat.mod_eq_of_lt (by omega)]

theorem utf8EncodeChar_of_ascii {c : Char} (h : c.toNat < 128) :
    String.utf8EncodeChar c = [UInt8.ofNat c.toNat] :=
  if_pos (Nat.le_of_lt_succ h)

/-- The first byte of any other character is none of ASCII. -/
theorem exists_utf8EncodeChar {c : Char} (h : ¬c.toNat < 128) :
    ∃ b rest, String.utf8EncodeChar c = b :: rest ∧ 128 ≤ b.toNat := by
  have hByte : ∀ n m : Nat, 128 ≤ m → n + m < 256 → 128 ≤ (UInt8.ofNat (n + m)).toNat := by
    intro n m hLow hLess
    rw [UInt8.toNat_ofNat', Nat.mod_eq_of_lt hLess]
    omega
  have hLong : ¬c.val.toNat ≤ 127 := fun hLe => h (Nat.lt_succ_of_le hLe)
  rw [String.utf8EncodeChar, if_neg hLong]
  split
  · exact ⟨_, _, rfl, hByte _ 192 (by decide) (by omega)⟩
  · split
    · exact ⟨_, _, rfl, hByte _ 224 (by decide) (by omega)⟩
    · exact ⟨_, _, rfl, hByte _ 240 (by decide) (by omega)⟩

/-- A test of bytes that takes bytes of ASCII only counts characters. -/
theorem length_takeWhile_bytes {p : Char → Bool} {q : UInt8 → Bool}
    (hAscii : ∀ c : Char, c.toNat < 128 → q (UInt8.ofNat c.toNat) = p c)
    (hOther : ∀ c, p c = true → c.toNat < 128) (hByte : ∀ b : UInt8, 128 ≤ b.toNat → q b = false)
    (s : Text) : ((bytes s).takeWhile q).length = (s.takeWhile p).length := by
  induction s with
  | nil => rfl
  | cons c s ih =>
      rw [bytes, List.flatMap_cons, ← bytes]
      by_cases hChar : c.toNat < 128
      · rw [utf8EncodeChar_of_ascii hChar, List.singleton_append, List.takeWhile_cons,
          List.takeWhile_cons, hAscii c hChar]
        cases p c with
        | false => rfl
        | true => exact congrArg (· + 1) ih
      · obtain ⟨b, rest, hBytes, hLarge⟩ := exists_utf8EncodeChar hChar
        have hByteStops : ¬ q b = true := by rw [hByte b hLarge]; decide
        have hCharStops : ¬ p c = true := fun hHolds => hChar (hOther c hHolds)
        rw [hBytes, List.cons_append, List.takeWhile_cons_of_neg hByteStops,
          List.takeWhile_cons_of_neg hCharStops]
        rfl

end Text

end DirectiveMarkdown
