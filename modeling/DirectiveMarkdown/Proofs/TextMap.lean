import DirectiveMarkdown.TextMap

/-! Maps and the list of their entries. -/
namespace DirectiveMarkdown

namespace TextMap

/-- The keys of a map are those that have a value. -/
theorem mem_keys_iff (m : TextMap) (key : Text) :
    key ∈ m.keys ↔ (m.get? key).isSome = true := by
  rw [keys, get?, List.lookup_isSome_iff, List.mem_map]
  constructor
  · rintro ⟨entry, hMem, rfl⟩
    exact ⟨entry, hMem, beq_self_eq_true _⟩
  · rintro ⟨entry, hMem, hKey⟩
    exact ⟨entry, hMem, (eq_of_beq hKey).symm⟩

/-- An entry of a map with one more entry is that one or an old one. -/
theorem mem_entries_insert {m : TextMap} {key value : Text} {e : Text × Text}
    (h : e ∈ (m.insert key value).entries) : e = (key, value) ∨ e ∈ m.entries := by
  have hEntries : ∀ entries : List (Text × Text), e ∈ insertEntry key value entries →
      e = (key, value) ∨ e ∈ entries := by
    intro entries hMem
    induction entries with
    | nil => exact .inl (List.mem_singleton.1 hMem)
    | cons head rest ih => grind [insertEntry]
  exact hEntries m.entries h

/-- Of two values for one key the later counts. -/
theorem insert_insert (m : TextMap) (key value other : Text) :
    (m.insert key other).insert key value = m.insert key value := by
  have hEntries : ∀ entries : List (Text × Text),
      insertEntry key value (insertEntry key other entries) = insertEntry key value entries := by
    intro entries
    induction entries with
    | nil => simp [insertEntry]
    | cons head rest ih =>
        obtain ⟨k, v⟩ := head
        by_cases hLess : key < k
        · simp [insertEntry, hLess]
        · by_cases hKey : key = k
          · subst hKey
            simp only [insertEntry, if_neg hLess, if_true]
          · simp [insertEntry, hLess, hKey, ih]
  simp only [insert, hEntries]

/-- An entry with a key above all others comes last. -/
theorem insertEntry_of_lt {key value : Text} {entries : List (Text × Text)}
    (h : ∀ e ∈ entries, e.1 < key) : insertEntry key value entries = entries ++ [(key, value)] := by
  induction entries with
  | nil => rfl
  | cons head rest ih =>
      have hHead : head.1 < key := h head (List.mem_cons_self ..)
      rw [insertEntry, if_neg (List.lt_asymm hHead), if_neg (fun hEq => List.lt_irrefl _ (hEq ▸ hHead)),
        ih fun e hMem => h e (List.mem_cons_of_mem _ hMem), List.cons_append]

/-- Entries that stand in increasing order are inserted one after the other. -/
theorem entries_foldl_insert {m : TextMap} {entries : List (Text × Text)}
    (h : (m.entries ++ entries).Pairwise fun a b => a.1 < b.1) :
    (entries.foldl (fun (m : TextMap) e => m.insert e.1 e.2) m).entries = m.entries ++ entries := by
  induction entries generalizing m with
  | nil => exact (List.append_nil _).symm
  | cons head rest ih =>
      have hLast : insertEntry head.1 head.2 m.entries = m.entries ++ [head] :=
        insertEntry_of_lt fun e hMem => (List.pairwise_append.1 h).2.2 e hMem head (List.mem_cons_self ..)
      have hInsert : (m.insert head.1 head.2).entries = m.entries ++ [head] := hLast
      rw [List.foldl_cons, ih (by rw [hInsert, List.append_assoc]; exact h), hInsert, List.append_assoc]
      rfl

/-- A map is put together from its entries. -/
theorem foldl_insert_entries (m : TextMap) :
    m.entries.foldl (fun (m : TextMap) e => m.insert e.1 e.2) ∅ = m := by
  have hEntries : (m.entries.foldl (fun (m : TextMap) e => m.insert e.1 e.2) ∅).entries =
      (∅ : TextMap).entries ++ m.entries := entries_foldl_insert m.increasing
  generalize m.entries.foldl (fun (m : TextMap) e => m.insert e.1 e.2) ∅ = made at hEntries ⊢
  cases m
  cases made
  cases hEntries
  rfl

end TextMap

end DirectiveMarkdown
