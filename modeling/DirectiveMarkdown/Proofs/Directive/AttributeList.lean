import DirectiveMarkdown.Proofs.Directive.Arguments

/-! What attribute lists give. A list of entries in valid forms gives the last identifier, all classes and
for each key the last value. Any other list gives arguments as well, and whatever these are, they can be
written so that they are read again. -/
namespace DirectiveMarkdown

namespace Arguments

namespace Entry

def id? : Entry → Option Text
  | .id value => some value
  | _ => none

def className? : Entry → Option Text
  | .className value => some value
  | _ => none

def valueOf? (key : Text) : Entry → Option Text
  | .attribute other value => if other = key then some value else none
  | _ => none

end Entry

section Fold

variable (list : List Entry) (arguments : Arguments)

theorem label_foldl_addEntry : (list.foldl addEntry arguments).label = arguments.label := by
  induction list generalizing arguments with
  | nil => rfl
  | cons entry rest ih =>
      rw [List.foldl_cons, ih]
      cases entry <;> rfl

/-- The last of some values, or else an earlier one, is the last of all of them. -/
theorem getLast?_or_some {α : Type} (values : List α) (value : α) :
    values.getLast?.or (some value) = (value :: values).getLast? := by
  rw [List.getLast?_cons]
  cases values.getLast? <;> rfl

/-- The last identifier counts. -/
theorem id_foldl_addEntry : (list.foldl addEntry arguments).id =
    (list.filterMap Entry.id?).getLast?.or arguments.id := by
  induction list generalizing arguments with
  | nil => rfl
  | cons entry rest ih =>
      rw [List.foldl_cons, ih]
      cases entry with
      | id value =>
          have hId : Entry.id? (.id value) = some value := rfl
          rw [List.filterMap_cons_some hId, ← getLast?_or_some, Option.or_assoc]
          rfl
      | className value => rfl
      | «attribute» key value => rfl

/-- All classes count, in order. -/
theorem classes_foldl_addEntry : (list.foldl addEntry arguments).classes =
    arguments.classes ++ list.filterMap Entry.className? := by
  induction list generalizing arguments with
  | nil => exact (List.append_nil _).symm
  | cons entry rest ih =>
      rw [List.foldl_cons, ih]
      cases entry with
      | id value => rfl
      | className value =>
          have hClass : Entry.className? (.className value) = some value := rfl
          rw [List.filterMap_cons_some hClass, addEntry, List.append_assoc, List.singleton_append]
      | «attribute» key value => rfl

/-- The last value of a key counts. -/
theorem get?_foldl_addEntry (key : Text) : (list.foldl addEntry arguments).attributes.get? key =
    (list.filterMap (Entry.valueOf? key)).getLast?.or (arguments.attributes.get? key) := by
  induction list generalizing arguments with
  | nil => rfl
  | cons entry rest ih =>
      rw [List.foldl_cons, ih]
      cases entry with
      | id value => rfl
      | className value => rfl
      | «attribute» other value =>
          rw [addEntry, TextMap.get?_insert]
          by_cases hKey : key = other
          · have hValue : Entry.valueOf? key (.attribute other value) = some value := if_pos hKey.symm
            rw [if_pos hKey, List.filterMap_cons_some hValue, ← getLast?_or_some, Option.or_assoc]
            rfl
          · have hNone : Entry.valueOf? key (.attribute other value) = none := if_neg (Ne.symm hKey)
            rw [if_neg hKey, List.filterMap_cons_none hNone]

end Fold

/-- The arguments have a label, and from a list of entries the last identifier, all classes in order and for
each key the last value. -/
structure IsGivenBy (label : Text) (list : List Entry) (arguments : Arguments) : Prop where
  label : arguments.label = label
  id : arguments.id = (list.filterMap Entry.id?).getLast?
  classes : arguments.classes = list.filterMap Entry.className?
  values : ∀ key, arguments.attributes.get? key = (list.filterMap (Entry.valueOf? key)).getLast?

theorem isGivenBy_foldl_addEntry (label : Text) (list : List Entry) :
    IsGivenBy label list (list.foldl addEntry { label }) where
  label := label_foldl_addEntry list { label }
  id := by rw [id_foldl_addEntry, Option.or_none]
  classes := by rw [classes_foldl_addEntry, List.nil_append]
  values := by
    intro key
    rw [get?_foldl_addEntry]
    exact Option.or_none

/-- Entries in valid forms give the arguments that are their fold, whatever white space stands around them
and between them. -/
theorem read_writes (label : Text) {forms : List WrittenEntry} {s before after : Text}
    (hForms : Writes forms s) (hBefore : Text.isBlankText before = true)
    (hAfter : Text.isBlankText after = true) :
    read label (before ++ (s ++ after)) =
        (forms.map WrittenEntry.entry).foldl addEntry { label } ∧
      IsGivenBy label (forms.map WrittenEntry.entry) (read label (before ++ (s ++ after))) := by
  have hRead : read label (before ++ (s ++ after)) =
      (forms.map WrittenEntry.entry).foldl addEntry { label } := by
    rw [read, hForms.trim_eq hBefore hAfter, hForms.entries_eq]
  refine ⟨hRead, ?_⟩
  rw [hRead]
  exact isGivenBy_foldl_addEntry label _

/-- All forms in one list. The second identifier stands right behind a class, and two keys right behind
quoted values. The second value of the first key counts, and the key at the end has the empty value. -/
theorem read_writes_mixed :
    ∃ forms : List WrittenEntry,
      Writes forms (text "#a k =\n\"v .w\"loop .b#c x= '1 2' u=1\"2 k=\"'\"ty") ∧
      ∃ arguments, read (text "l") (text " #a k =\n\"v .w\"loop .b#c x= '1 2' u=1\"2 k=\"'\"ty\n") =
          arguments ∧
        IsGivenBy (text "l") (forms.map WrittenEntry.entry) arguments ∧
        arguments.id = some (text "c") ∧ arguments.classes = [text "b"] ∧
        arguments.attributes.get? (text "k") = some (text "'") ∧
        arguments.attributes.get? (text "ty") = some [] := by
  have hForms : Writes
      [.id (text "a"), .quoted (text "k") (text " ") (text "\n") '"' (text "v .w"), .bare (text "loop"),
        .className (text "b"), .id (text "c"), .quoted (text "x") [] (text " ") '\'' (text "1 2"),
        .unquoted (text "u") [] [] (text "1\"2"), .quoted (text "k") [] [] '"' (text "'"),
        .bare (text "ty")]
      (text "#a k =\n\"v .w\"loop .b#c x= '1 2' u=1\"2 k=\"'\"ty") := by
    have hSpace : Text.isBlankText (text " ") = true := by decide
    have hNone : Text.isBlankText [] = true := rfl
    refine .cons (by decide) hSpace nofun ?_
    refine .cons (by decide) hNone (fun _ => rfl) ?_
    refine .cons (by decide) hSpace nofun ?_
    refine .cons (by decide) hNone (fun _ => rfl) ?_
    refine .cons (by decide) hSpace nofun ?_
    refine .cons (by decide) hSpace nofun ?_
    refine .cons (by decide) hSpace nofun ?_
    refine .cons (by decide) hNone (fun _ => rfl) ?_
    exact .last (by decide)
  have hBefore : Text.isBlankText (text " ") = true := by decide
  have hAfter : Text.isBlankText (text "\n") = true := by decide
  obtain ⟨-, hGiven⟩ := read_writes (text "l") hForms hBefore hAfter
  refine ⟨_, hForms, _, rfl, hGiven, ?_, ?_, ?_, ?_⟩
  · exact hGiven.id
  · exact hGiven.classes
  · exact hGiven.values (text "k")
  · exact hGiven.values (text "ty")

section Canonical

/-- Reading of an attribute list in rounds. In each round white space is passed over, and then an entry or a
character that starts none. -/
inductive ReadsIn : Text → List Entry → Nat → Prop
  | done {s : Text} (hNil : Text.trimStart s = []) : ReadsIn s [] 0
  | round {s rest : Text} {c : Char} {more : List Entry} {rounds : Nat}
      (hCons : Text.trimStart s = c :: rest) (hMore : ReadsIn (readEntry c rest).2 more rounds) :
      ReadsIn s ((readEntry c rest).1.toList ++ more) (rounds + 1)

/-- Reading ends: there are no more rounds than characters. -/
theorem exists_readsIn (s : Text) : ∃ rounds ≤ s.length, ReadsIn s (entries s) rounds := by
  fun_induction entries s with
  | case1 s hNil => exact ⟨0, Nat.zero_le _, .done hNil⟩
  | case2 s c rest hCons hShorter ih =>
      obtain ⟨rounds, hRounds, hReads⟩ := ih
      exact ⟨rounds + 1, by omega, .round hCons hReads⟩

/-- A quoted value holds no quotation mark of its own kind. -/
theorem not_mem_of_untilQuote? {mark : Char} {s value after : Text}
    (h : untilQuote? mark s = some (value, after)) : mark ∉ value := by
  induction s generalizing value with
  | nil => cases h
  | cons c rest ih =>
      rw [untilQuote?] at h
      split at h
      · cases h
        exact List.not_mem_nil
      · next hOther =>
          obtain ⟨⟨read, more⟩, hRead, hEq⟩ := Option.map_eq_some_iff.1 h
          cases hEq
          rw [List.mem_cons, not_or]
          exact ⟨Ne.symm hOther, ih hRead⟩

/-- A value that is read is one that can be quoted: it stood in quotation marks, or there was no white space
in it and none of the marks at its start. -/
theorem isQuotable_of_readValue {key s : Text} {entry : Entry}
    (h : (readValue key s).1 = some entry) : ∃ value, entry = .attribute key value ∧ IsQuotable value := by
  unfold readValue at h
  split at h
  · next c rest =>
      split at h
      · next hMark =>
          split at h
          · next value after hUntil =>
              cases h
              have hFree := not_mem_of_untilQuote? hUntil
              rcases hMark with rfl | rfl
              · exact ⟨value, rfl, .inl hFree⟩
              · exact ⟨value, rfl, .inr (.inl hFree)⟩
          · cases h
      · next hOther =>
          cases h
          refine ⟨_, rfl, .inr (.inr ⟨?_, ?_⟩)⟩
          · intro d hMem
            have hHead : d = c := by
              rw [List.takeWhile_cons] at hMem
              split at hMem
              · exact (Option.some.inj hMem).symm
              · cases hMem
            rw [hHead]
            exact not_or.1 hOther
          · intro d hMem
            simpa using List.all_eq_true.1 List.all_takeWhile d hMem
  · cases h
    exact ⟨[], rfl, .inl List.not_mem_nil⟩

/-- What one round reads can be written. -/
theorem printable_of_readEntry {c : Char} {rest : Text} {entry : Entry}
    (h : (readEntry c rest).1 = some entry) : entry.Printable := by
  unfold readEntry at h
  split at h
  · cases h
    exact fun d hMem => List.all_eq_true.1 List.all_takeWhile d hMem
  · split at h
    · cases h
      exact fun d hMem => List.all_eq_true.1 List.all_takeWhile d hMem
    · split at h
      · next hStarts =>
          have hKey : IsKey ((c :: rest).takeWhile isKeyChar) := by
            refine ⟨⟨c, ?_, hStarts⟩, fun d hMem => List.all_eq_true.1 List.all_takeWhile d hMem⟩
            rw [List.takeWhile_cons_of_pos (isKeyChar_of_startsKey hStarts)]
            rfl
          unfold readAttribute at h
          dsimp only at h
          split at h
          · obtain ⟨value, rfl, hValue⟩ := isQuotable_of_readValue h
            exact ⟨hKey.1, hKey.2, hValue⟩
          · cases h
            exact ⟨hKey.1, hKey.2, .inl List.not_mem_nil⟩
      · cases h

/-- What all rounds read can be written. -/
theorem ReadsIn.printable {s : Text} {list : List Entry} {rounds : Nat} (h : ReadsIn s list rounds) :
    ∀ entry ∈ list, entry.Printable := by
  induction h with
  | done => exact List.forall_mem_nil _
  | round hCons hMore ih =>
      refine List.forall_mem_append.2 ⟨fun entry hMem => ?_, ih⟩
      exact printable_of_readEntry (Option.mem_toList.1 hMem)

/-- What holds of the entries of some arguments and of one more entry holds of all entries of the arguments
with this one. -/
theorem forall_toEntries_addEntry {p : Entry → Prop} {arguments : Arguments} {entry : Entry}
    (h : ∀ e ∈ arguments.toEntries, p e) (hEntry : p entry) :
    ∀ e ∈ (arguments.addEntry entry).toEntries, p e := by
  simp only [toEntries, List.forall_mem_append, List.forall_mem_map] at h ⊢
  obtain ⟨⟨hId, hClasses⟩, hAttributes⟩ := h
  rcases entry with value | value | ⟨key, value⟩
  · exact ⟨⟨List.forall_mem_singleton.2 hEntry, hClasses⟩, hAttributes⟩
  · exact ⟨⟨hId, List.forall_mem_append.2 ⟨hClasses, List.forall_mem_singleton.2 hEntry⟩⟩, hAttributes⟩
  · refine ⟨⟨hId, hClasses⟩, fun e hMem => ?_⟩
    rcases TextMap.mem_entries_insert hMem with rfl | hMem
    · exact hEntry
    · exact hAttributes e hMem

/-- What holds of old and new entries holds of the entries of the result. -/
theorem forall_toEntries_foldl_addEntry {p : Entry → Prop} {list : List Entry} {arguments : Arguments}
    (h : ∀ e ∈ arguments.toEntries, p e) (hList : ∀ e ∈ list, p e) :
    ∀ e ∈ (list.foldl addEntry arguments).toEntries, p e := by
  induction list generalizing arguments with
  | nil => exact h
  | cons entry rest ih =>
      obtain ⟨hEntry, hRest⟩ := List.forall_mem_cons.1 hList
      exact ih (forall_toEntries_addEntry h hEntry) hRest

/-- Reading ends for every text, malformed ones included, and what it gives can be written in canonical form:
the identifier, the classes and the attributes, each value in quotation marks that it does not hold itself,
or in none. Reading the canonical form gives the same arguments. -/
theorem read_canonical (label list : Text) :
    (∃ rounds ≤ list.length, ReadsIn (Text.trim list) (entries (Text.trim list)) rounds) ∧
      (∀ entry ∈ (read label list).toEntries, entry.Printable) ∧
      read label (read label list).attributeList = read label list := by
  obtain ⟨rounds, hRounds, hReads⟩ := exists_readsIn (Text.trim list)
  have hLength : (Text.trim list).length ≤ list.length := by
    have hEnd := length_dropWhile_le isBlank (Text.trimStart list).reverse
    have hStart := length_dropWhile_le isBlank list
    rw [List.length_reverse] at hEnd
    rw [Text.trim, Text.trimEnd, List.length_reverse]
    exact Nat.le_trans hEnd hStart
  have hEntries : ∀ entry ∈ (read label list).toEntries, entry.Printable :=
    forall_toEntries_foldl_addEntry (List.forall_mem_nil _) hReads.printable
  have hBack := read_attributeList hEntries
  have hLabel : (read label list).label = label := label_foldl_addEntry _ _
  rw [hLabel] at hBack
  exact ⟨⟨rounds, Nat.le_trans hRounds hLength, hReads⟩, hEntries, hBack⟩

end Canonical

end Arguments

end DirectiveMarkdown
