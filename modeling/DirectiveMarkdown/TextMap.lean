import DirectiveMarkdown.Text.Basic

/-! Finite maps from text to text, ordered by key. -/
namespace DirectiveMarkdown

/-- A map from keys to values. The entries stand in increasing order of key, so two maps with the
same entries are equal. -/
structure TextMap where
  entries : List (Text × Text) := []
  increasing : entries.Pairwise fun a b => a.1 < b.1 := by simp
deriving DecidableEq

namespace TextMap

instance : EmptyCollection TextMap := ⟨{}⟩

instance : Inhabited TextMap := ⟨∅⟩

/-- Puts an entry in its place, over the one with the same key. -/
def insertEntry (key value : Text) : List (Text × Text) → List (Text × Text)
  | [] => [(key, value)]
  | (k, v) :: rest =>
    if key < k then (key, value) :: (k, v) :: rest
    else if key = k then (key, value) :: rest
    else (k, v) :: insertEntry key value rest

theorem fst_mem_insertEntry {key value : Text} {entries : List (Text × Text)} {e : Text × Text}
    (h : e ∈ insertEntry key value entries) : e.1 = key ∨ e ∈ entries := by
  induction entries with
  | nil => simp_all [insertEntry]
  | cons head rest ih => grind [insertEntry]

/-- Putting an entry in its place keeps the keys in increasing order. -/
theorem insertEntry_increasing (key value : Text) {entries : List (Text × Text)}
    (h : entries.Pairwise fun a b => a.1 < b.1) :
    (insertEntry key value entries).Pairwise fun a b => a.1 < b.1 := by
  induction entries with
  | nil => simp [insertEntry]
  | cons head rest ih =>
    obtain ⟨hHead, hRest⟩ := List.pairwise_cons.1 h
    unfold insertEntry
    split
    · next hLess =>
      refine List.pairwise_cons.2 ⟨?_, h⟩
      intro e he
      rcases List.mem_cons.1 he with rfl | he
      · exact hLess
      · exact List.lt_trans hLess (hHead e he)
    · next hNotLess =>
      split
      · next hEq =>
        subst hEq
        exact List.pairwise_cons.2 ⟨hHead, hRest⟩
      · next hNe =>
        refine List.pairwise_cons.2 ⟨?_, ih hRest⟩
        intro e he
        rcases fst_mem_insertEntry he with hKey | he
        · rw [hKey]
          exact Std.lt_of_le_of_ne (Std.not_lt.mp hNotLess) (Ne.symm hNe)
        · exact hHead e he

def insert (m : TextMap) (key value : Text) : TextMap :=
  ⟨insertEntry key value m.entries, insertEntry_increasing key value m.increasing⟩

def get? (m : TextMap) (key : Text) : Option Text := m.entries.lookup key

def contains (m : TextMap) (key : Text) : Bool := (m.get? key).isSome

def isEmpty (m : TextMap) : Bool := m.entries.isEmpty

def keys (m : TextMap) : List Text := m.entries.map Prod.fst

/-- The map of a list of entries. Of two with one key the later counts. -/
def ofList (entries : List (Text × Text)) : TextMap :=
  entries.foldl (fun m (key, value) => m.insert key value) ∅

/-- The first map, completed by those entries of the second whose key it lacks. -/
def orElse (m defaults : TextMap) : TextMap :=
  defaults.entries.foldl (fun m (key, value) => if m.contains key then m else m.insert key value) m

/-- After an insertion only the inserted key has another value. -/
theorem get?_insert (m : TextMap) (key value other : Text) :
    (m.insert key value).get? other = if other = key then some value else m.get? other := by
  obtain ⟨entries, increasing⟩ := m
  simp only [insert, get?]
  induction entries with
  | nil =>
    by_cases h : other = key
    · simp [insertEntry, h]
    · have hKey : (other == key) = false := by simpa using h
      simp [insertEntry, List.lookup_cons, h, hKey]
  | cons head rest ih =>
    obtain ⟨headKey, headValue⟩ := head
    have ih := ih (List.pairwise_cons.1 increasing).2
    unfold insertEntry
    split
    · by_cases h : other = key
      · simp [h]
      · have hBeq : (other == key) = false := by simpa using h
        simp [List.lookup_cons, h, hBeq]
    · split
      · next hEq =>
        by_cases h : other = key
        · simp [h]
        · have hKey : (other == key) = false := by simpa using h
          have hHead : (other == headKey) = false := by simpa [← hEq] using h
          simp [List.lookup_cons, h, hKey, hHead]
      · next hNe =>
        by_cases hHead : other = headKey
        · have hKey : other ≠ key := fun hEq => hNe (hEq ▸ hHead)
          simp [hHead, Ne.symm hNe]
        · have hBeq : (other == headKey) = false := by simpa using hHead
          simp [List.lookup_cons, hBeq, ih]

end TextMap

end DirectiveMarkdown
