import Mathlib.Logic.Function.Basic
import Mathlib.Tactic.SplitIfs
import DirectiveMarkdown.Json
import DirectiveMarkdown.Text.Digit

/-! The text of a JSON value determines the value, and where the value ends. So it does within any
text that starts with it: no text of a value is a proper beginning of another one's. -/
namespace DirectiveMarkdown

namespace Json

/-- The character that stands in quotation marks at the start of a text, and the text after it. A
quotation mark stands for no character, it ends the text. -/
def unescapeChar? : Text → Option (Char × Text)
  | [] | '"' :: _ => none
  | '\\' :: '"' :: rest => some ('"', rest)
  | '\\' :: '\\' :: rest => some ('\\', rest)
  | '\\' :: 'b' :: rest => some ('\x08', rest)
  | '\\' :: 't' :: rest => some ('\t', rest)
  | '\\' :: 'n' :: rest => some ('\n', rest)
  | '\\' :: 'f' :: rest => some ('\x0c', rest)
  | '\\' :: 'r' :: rest => some ('\r', rest)
  | '\\' :: 'u' :: '0' :: '0' :: high :: low :: rest =>
    some (Char.ofNat (16 * digitValue high + digitValue low), rest)
  | '\\' :: _ => none
  | c :: rest => some (c, rest)

theorem digitValue_hexDigit {n : Nat} (h : n < 16) : digitValue (hexDigit n) = n := by
  have hAll : ∀ n : Fin 16, digitValue (hexDigit n) = n := by decide
  exact hAll ⟨n, h⟩

/-- The two digits of a control character stand for it. -/
theorem ofNat_hexDigits {c : Char} (h : c.toNat < 0x20) :
    Char.ofNat (16 * digitValue (hexDigit (c.toNat / 16)) + digitValue (hexDigit (c.toNat % 16))) =
      c := by
  rw [digitValue_hexDigit (by omega), digitValue_hexDigit (Nat.mod_lt _ (by decide)),
    Nat.div_add_mod, Char.ofNat_toNat]

/-- An escaped character is read back. -/
theorem unescapeChar?_escapeChar (c : Char) (rest : Text) :
    unescapeChar? (escapeChar c ++ rest) = some (c, rest) := by
  unfold escapeChar
  split_ifs with hQuote hBackslash hBackspace hTab hFeed hForm hReturn hControl
  · rw [hQuote]; rfl
  · rw [hBackslash]; rfl
  · rw [hBackspace]; rfl
  · rw [hTab]; rfl
  · rw [hFeed]; rfl
  · rw [hForm]; rfl
  · rw [hReturn]; rfl
  · have hRead : unescapeChar? (text "\\u00" ++
        [hexDigit (c.toNat / 16), hexDigit (c.toNat % 16)] ++ rest) =
          some (Char.ofNat (16 * digitValue (hexDigit (c.toNat / 16)) +
            digitValue (hexDigit (c.toNat % 16))), rest) := rfl
    rw [hRead, ofNat_hexDigits hControl]
  · rw [List.singleton_append, unescapeChar?.eq_def]
    split <;> simp_all

/-- What a text in quotation marks is, and where it ends, is seen from its characters. -/
theorem flatMap_escapeChar_append_inj {s t after behind : Text}
    (h : s.flatMap escapeChar ++ '"' :: after = t.flatMap escapeChar ++ '"' :: behind) :
    s = t ∧ after = behind := by
  induction s generalizing t with
  | nil =>
      cases t with
      | nil => exact ⟨rfl, (List.cons.inj h).2⟩
      | cons d t =>
          have hRead := congrArg unescapeChar? h
          rw [List.flatMap_cons, List.append_assoc, unescapeChar?_escapeChar] at hRead
          cases hRead
  | cons c s ih =>
      have hRead := congrArg unescapeChar? h
      rw [List.flatMap_cons, List.append_assoc, unescapeChar?_escapeChar] at hRead
      cases t with
      | nil => cases hRead
      | cons d t =>
          rw [List.flatMap_cons, List.append_assoc, unescapeChar?_escapeChar, Option.some.injEq,
            Prod.mk.injEq] at hRead
          obtain ⟨rfl, hRest⟩ := hRead
          obtain ⟨rfl, hAfter⟩ := ih hRest
          exact ⟨rfl, hAfter⟩

/-- Where a quoted text ends is seen from the text itself. -/
theorem quote_append_inj {s t after behind : Text} (h : quote s ++ after = quote t ++ behind) :
    s = t ∧ after = behind := by
  simp only [quote, List.cons_append, List.append_assoc, List.nil_append, List.cons.injEq,
    true_and] at h
  exact flatMap_escapeChar_append_inj h

section Block

variable {α : Type} {f : α → Text} {items others : List α} {after behind : Text}

/-- Joined texts are the first one and each of the others behind a separator. -/
theorem join_cons (separator s : Text) (more : List Text) :
    Text.join separator (s :: more) = s ++ more.flatMap (separator ++ ·) := by
  induction more generalizing s with
  | nil => exact (List.append_nil s).symm
  | cons next more ih =>
      have hJoin : Text.join separator (s :: next :: more) =
          s ++ separator ++ Text.join separator (next :: more) := rfl
      rw [hJoin, ih, List.flatMap_cons, List.append_assoc, List.append_assoc]

/-- The items after the first one on lines of their own. Before each of them stands a comma, and after
the last one a line feed. -/
theorem flatMap_lines_append_inj (level : Nat)
    (hItems : ∀ item ∈ items, ∀ other after behind, f item ++ after = f other ++ behind →
      item = other ∧ after = behind)
    (h : (items.map f).flatMap (',' :: newLine (level + 1) ++ ·) ++ (newLine level ++ after) =
      (others.map f).flatMap (',' :: newLine (level + 1) ++ ·) ++ (newLine level ++ behind)) :
    items = others ∧ after = behind := by
  induction items generalizing others with
  | nil =>
      cases others with
      | nil => exact ⟨rfl, List.append_cancel_left h⟩
      | cons other more => cases (List.cons.inj h).1
  | cons item rest ih =>
      obtain ⟨hItem, hRest⟩ := List.forall_mem_cons.1 hItems
      cases others with
      | nil => cases (List.cons.inj h).1
      | cons other more =>
          simp only [List.map_cons, List.flatMap_cons, List.append_assoc,
            List.append_cancel_left_eq] at h
          obtain ⟨rfl, hMore⟩ := hItem _ _ _ h
          obtain ⟨rfl, hAfter⟩ := ih hRest hMore
          exact ⟨rfl, hAfter⟩

/-- A block ends at its own closing bracket. -/
theorem block_append_inj (level : Nat) {opening closing : Char} (hClosing : closing ≠ '\n')
    (hItems : ∀ item ∈ items, ∀ other after behind, f item ++ after = f other ++ behind →
      item = other ∧ after = behind)
    (h : block level opening closing (items.map f) ++ after =
      block level opening closing (others.map f) ++ behind) : items = others ∧ after = behind := by
  cases items with
  | nil =>
      cases others with
      | nil => exact ⟨rfl, List.append_cancel_left h⟩
      | cons other more =>
          obtain ⟨hEnd, -⟩ := List.cons.inj (List.cons.inj h).2
          exact absurd hEnd hClosing
  | cons item rest =>
      cases others with
      | nil =>
          obtain ⟨hEnd, -⟩ := List.cons.inj (List.cons.inj h).2
          exact absurd hEnd.symm hClosing
      | cons other more =>
          obtain ⟨hItem, hRest⟩ := List.forall_mem_cons.1 hItems
          simp only [block, List.map_cons, List.isEmpty_cons, Bool.false_eq_true, if_false,
            join_cons, List.append_assoc, List.append_cancel_left_eq] at h
          obtain ⟨rfl, hMore⟩ := hItem _ _ _ h
          obtain ⟨rfl, hAfter⟩ := flatMap_lines_append_inj level hRest hMore
          exact ⟨rfl, List.append_cancel_left hAfter⟩

theorem exists_block_eq (level : Nat) (opening closing : Char) (items : List Text) :
    ∃ rest, block level opening closing items = opening :: rest := by
  unfold block
  split
  · exact ⟨_, rfl⟩
  · exact ⟨_, rfl⟩

end Block

def writeMember (level : Nat) (member : Text × Json) : Text :=
  quote member.1 ++ [':', ' '] ++ member.2.write level

theorem writeItems_eq_map (level : Nat) (items : List Json) :
    writeItems level items = items.map (write level) := by
  induction items with
  | nil => rfl
  | cons item rest ih => rw [writeItems, ih, List.map_cons]

theorem writeMembers_eq_map (level : Nat) (members : List (Text × Json)) :
    writeMembers level members = members.map (writeMember level) := by
  induction members with
  | nil => rfl
  | cons member rest ih => rw [writeMembers, ih, List.map_cons, writeMember]

/-- A member ends where its value does. -/
theorem writeMember_append_inj {level : Nat} {member other : Text × Json} {after behind : Text}
    (hValue : ∀ value after behind, member.2.write level ++ after = value.write level ++ behind →
      member.2 = value ∧ after = behind)
    (h : writeMember level member ++ after = writeMember level other ++ behind) :
    member = other ∧ after = behind := by
  obtain ⟨key, value⟩ := member
  obtain ⟨otherKey, otherValue⟩ := other
  simp only [writeMember, List.append_assoc] at h
  obtain ⟨rfl, hRest⟩ := quote_append_inj h
  obtain ⟨rfl, hAfter⟩ := hValue _ _ _ (List.append_cancel_left hRest)
  exact ⟨rfl, hAfter⟩

/-- The first character of a value tells its kind. -/
def openingMark : Json → Char
  | .string _ => '"'
  | .array _ => '['
  | .object _ => '\x7b'

/-- The first character of a written value tells its kind. -/
theorem exists_write_eq (level : Nat) (json : Json) :
    ∃ rest, json.write level = json.openingMark :: rest := by
  cases json with
  | string value => exact ⟨_, rfl⟩
  | array items => exact exists_block_eq ..
  | object members => exact exists_block_eq ..

theorem sizeOf_snd_lt_of_mem {member : Text × Json} {members : List (Text × Json)}
    (h : member ∈ members) : sizeOf member.2 < sizeOf members := by
  have hMember := List.sizeOf_lt_of_mem h
  have hSize : sizeOf member = 1 + sizeOf member.1 + sizeOf member.2 := by cases member; rfl
  omega

/-- A value ends where its text does, whatever follows. -/
theorem write_append_inj (level : Nat) (a b : Json) (after behind : Text)
    (h : a.write level ++ after = b.write level ++ behind) : a = b ∧ after = behind := by
  have hMark : a.openingMark = b.openingMark := by
    obtain ⟨rest, hA⟩ := exists_write_eq level a
    obtain ⟨more, hB⟩ := exists_write_eq level b
    rw [hA, hB] at h
    exact (List.cons.inj h).1
  match a, b with
  | .string value, .string other =>
      obtain ⟨rfl, hAfter⟩ := quote_append_inj h
      exact ⟨rfl, hAfter⟩
  | .array items, .array others =>
      rw [write, write, writeItems_eq_map, writeItems_eq_map] at h
      obtain ⟨rfl, hAfter⟩ := block_append_inj level (by decide)
        (fun item hMem => write_append_inj (level + 1) item) h
      exact ⟨rfl, hAfter⟩
  | .object members, .object others =>
      rw [write, write, writeMembers_eq_map, writeMembers_eq_map] at h
      have hMembers : ∀ member ∈ members, ∀ other after behind,
          writeMember (level + 1) member ++ after = writeMember (level + 1) other ++ behind →
            member = other ∧ after = behind := by
        intro member hMem other after behind
        have hSize : sizeOf member.2 < sizeOf members := sizeOf_snd_lt_of_mem hMem
        exact writeMember_append_inj (write_append_inj (level + 1) member.2)
      obtain ⟨rfl, hAfter⟩ := block_append_inj level (by decide) hMembers h
      exact ⟨rfl, hAfter⟩
  | .string _, .array _ | .string _, .object _ | .array _, .string _ | .array _, .object _
  | .object _, .string _ | .object _, .array _ => exact absurd hMark (by simp [openingMark])
termination_by sizeOf a

/-- Different values have different texts. -/
theorem toText_injective : Function.Injective toText := by
  intro a b h
  exact (write_append_inj 0 a b [] [] (congrArg (· ++ []) h)).1

end Json

end DirectiveMarkdown
