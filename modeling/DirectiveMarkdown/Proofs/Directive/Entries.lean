import DirectiveMarkdown.Directive.Arguments
import DirectiveMarkdown.Proofs.Text.Lines

/-! Entries of attribute lists in the forms that they may be written in, and what is read from them. Where
an entry ends depends on its form and on what follows: a key looks past white space for an equals sign, a
value without quotation marks goes on to the next white space, and shorthands stop at each other. -/
namespace DirectiveMarkdown

namespace Arguments

/-- The first entry is read at the first character that is no white space. -/
theorem entries_of_cons {s : Text} {c : Char} {rest : Text} (h : Text.trimStart s = c :: rest) :
    entries s = (readEntry c rest).1.toList ++ entries (readEntry c rest).2 := by
  rw [entries]
  split
  · next hNil => rw [hNil] at h; cases h
  · next hCons =>
      rw [hCons] at h
      cases h
      rfl

theorem entries_of_nil {s : Text} (h : Text.trimStart s = []) : entries s = [] := by
  rw [entries]
  split
  · rfl
  · next hCons => rw [hCons] at h; cases h

/-- White space before an entry does not count. -/
theorem entries_append_blank {blank : Text} (hBlank : Text.isBlankText blank = true) (s : Text) :
    entries (blank ++ s) = entries s := by
  have hTrim : Text.trimStart (blank ++ s) = Text.trimStart s :=
    List.dropWhile_append_of_pos (List.all_eq_true.1 hBlank)
  cases h : Text.trimStart s with
  | nil => rw [entries_of_nil h, entries_of_nil (hTrim.trans h)]
  | cons c rest => rw [entries_of_cons h, entries_of_cons (hTrim.trans h)]

theorem isKeyChar_of_isBlank {c : Char} (h : isBlank c = true) : isKeyChar c = false := by
  rw [isKeyChar, h]
  rfl

theorem isBlank_of_isKeyChar {c : Char} (h : isKeyChar c = true) : isBlank c = false := by
  cases hBlank : isBlank c with
  | false => rfl
  | true =>
      rw [isKeyChar_of_isBlank hBlank] at h
      cases h

theorem isBlank_of_isShorthandChar {c : Char} (h : isShorthandChar c = true) : isBlank c = false := by
  simp only [isShorthandChar, Bool.not_eq_true', Bool.or_eq_false_iff] at h
  exact h.1.1

theorem untilQuote?_append {mark : Char} {value : Text} (h : mark ∉ value) (rest : Text) :
    untilQuote? mark (value ++ mark :: rest) = some (value, rest) := by
  induction value with
  | nil => simp [untilQuote?]
  | cons c value ih =>
      rw [List.mem_cons, not_or] at h
      rw [List.cons_append, untilQuote?, if_neg (Ne.symm h.1), ih h.2]
      rfl

/-- A quoted value is read up to the mark that closes it, whatever follows. -/
theorem readValue_quoted (key : Text) {mark : Char} (hMark : mark = '"' ∨ mark = '\'') {value : Text}
    (h : mark ∉ value) (rest : Text) :
    readValue key (mark :: (value ++ mark :: rest)) = (some (.attribute key value), rest) := by
  rw [readValue, if_pos hMark, untilQuote?_append h]

/-- A value without quotation marks is read up to white space. -/
theorem readValue_unquoted (key : Text) {value rest : Text} (hNe : value ≠ [])
    (hSolid : ∀ c ∈ value, isBlank c = false) (hHead : ∀ c ∈ value.head?, c ≠ '"' ∧ c ≠ '\'')
    (hRest : ∀ c ∈ rest.head?, isBlank c = true) :
    readValue key (value ++ rest) = (some (.attribute key value), rest) := by
  obtain ⟨c, more, rfl⟩ := List.exists_cons_of_ne_nil hNe
  obtain ⟨hDouble, hSingle⟩ := hHead c rfl
  have hAll : ∀ d ∈ c :: more, (!isBlank d) = true := fun d hMem => by rw [hSolid d hMem]; rfl
  have hStop : ∀ d ∈ rest.head?, (!isBlank d) = false := fun d hMem => by rw [hRest d hMem]; rfl
  have hTake := Text.takeWhile_append_stop hAll hStop
  have hDrop := Text.dropWhile_append_stop hAll hStop
  rw [List.cons_append] at hTake hDrop ⊢
  rw [readValue, if_neg (not_or.2 ⟨hDouble, hSingle⟩), hTake, hDrop]

def IsKey (key : Text) : Prop :=
  (∃ c ∈ key.head?, startsKey c = true) ∧ ∀ c ∈ key, isKeyChar c = true

instance (key : Text) : Decidable (IsKey key) :=
  @instDecidableAnd _ _ (Option.decidableExistsMem key.head?) (List.decidableBAll _ key)

namespace IsKey

variable {key : Text} (h : IsKey key)

include h

/-- A key starts with a character that can start one. -/
theorem exists_cons : ∃ c more, key = c :: more ∧ startsKey c = true ∧ isBlank c = false := by
  obtain ⟨⟨c, hHead, hStarts⟩, hChars⟩ := h
  cases key with
  | nil => cases hHead
  | cons d more =>
      cases hHead
      exact ⟨c, more, rfl, hStarts, isBlank_of_isKeyChar (hChars c (List.mem_cons_self ..))⟩

/-- An entry that starts with a key is an attribute. -/
theorem readEntry : ∃ c more, key = c :: more ∧ isBlank c = false ∧
    ∀ rest, Arguments.readEntry c (more ++ rest) = readAttribute (key ++ rest) := by
  obtain ⟨c, more, rfl, hStarts, hSolid⟩ := h.exists_cons
  refine ⟨c, more, rfl, hSolid, fun rest => ?_⟩
  have hHash : c ≠ '#' := by rintro rfl; cases hStarts
  have hDot : c ≠ '.' := by rintro rfl; cases hStarts
  rw [Arguments.readEntry, if_neg hHash, if_neg hDot, if_pos hStarts, List.cons_append]

/-- The value stands behind the first equals sign, with or without white space around that. -/
theorem readAttribute_equals {before : Text} (hBefore : Text.isBlankText before = true) (s : Text) :
    readAttribute (key ++ (before ++ '=' :: s)) = readValue key (Text.trimStart s) := by
  have hStop : ∀ c ∈ (before ++ '=' :: s).head?, isKeyChar c = false := by
    cases before with
    | nil => rintro _ ⟨⟩; rfl
    | cons d before =>
        rintro _ ⟨⟩
        exact isKeyChar_of_isBlank (List.all_eq_true.1 hBefore d (List.mem_cons_self ..))
  have hTrim : Text.trimStart (before ++ '=' :: s) = '=' :: s := by
    rw [Text.trimStart, List.dropWhile_append_of_pos (List.all_eq_true.1 hBefore)]
    exact Text.trimStart_cons rfl s
  simp only [readAttribute, Text.takeWhile_append_stop h.2 hStop,
    Text.dropWhile_append_stop h.2 hStop, hTrim]

/-- Without an equals sign behind the white space the key stands alone. -/
theorem readAttribute_bare {rest : Text} (hRest : ∀ c ∈ rest.head?, isBlank c = true)
    (hEquals : (Text.trimStart rest).head? ≠ some '=') :
    readAttribute (key ++ rest) = (some (.attribute key []), rest) := by
  have hStop : ∀ c ∈ rest.head?, isKeyChar c = false :=
    fun c hMem => isKeyChar_of_isBlank (hRest c hMem)
  simp only [readAttribute, Text.takeWhile_append_stop h.2 hStop,
    Text.dropWhile_append_stop h.2 hStop]
  split
  · next hTrim => exact absurd (by rw [hTrim]; rfl) hEquals
  · rfl

end IsKey

/-- An entry of an attribute list in one of the forms that it may be written in. There may be white space
before and after the equals sign of an attribute. -/
inductive WrittenEntry where
  | id (body : Text)
  | className (body : Text)
  | quoted (key before after : Text) (mark : Char) (value : Text)
  | unquoted (key before after value : Text)
  | bare (key : Text)

namespace WrittenEntry

def written : WrittenEntry → Text
  | .id body => '#' :: body
  | .className body => '.' :: body
  | .quoted key before after mark value =>
    key ++ (before ++ '=' :: (after ++ mark :: (value ++ [mark])))
  | .unquoted key before after value => key ++ (before ++ '=' :: (after ++ value))
  | .bare key => key

/-- The entry that is meant. A key alone has the empty value. -/
def entry : WrittenEntry → Entry
  | .id body => .id body
  | .className body => .className body
  | .quoted key _ _ _ value => .attribute key value
  | .unquoted key _ _ value => .attribute key value
  | .bare key => .attribute key []

/-- The parts of the entry are such as its form allows. -/
def IsValid : WrittenEntry → Prop
  | .id body | .className body => ∀ c ∈ body, isShorthandChar c = true
  | .quoted key before after mark value =>
    IsKey key ∧ Text.isBlankText before = true ∧ Text.isBlankText after = true ∧
      (mark = '"' ∨ mark = '\'') ∧ mark ∉ value
  | .unquoted key before after value =>
    IsKey key ∧ Text.isBlankText before = true ∧ Text.isBlankText after = true ∧ value ≠ [] ∧
      (∀ c ∈ value, isBlank c = false) ∧ ∀ c ∈ value.head?, c ≠ '"' ∧ c ≠ '\''
  | .bare key => IsKey key

instance : (entry : WrittenEntry) → Decidable entry.IsValid
  | .id body => List.decidableBAll _ body
  | .className body => List.decidableBAll _ body
  | .quoted key before after mark value =>
    inferInstanceAs (Decidable (IsKey key ∧ Text.isBlankText before = true ∧
      Text.isBlankText after = true ∧ (mark = '"' ∨ mark = '\'') ∧ mark ∉ value))
  | .unquoted key before after value =>
    have : Decidable (∀ c ∈ value, isBlank c = false) := List.decidableBAll _ value
    have : Decidable (∀ c ∈ value.head?, c ≠ '"' ∧ c ≠ '\'') := Option.decidableForallMem value.head?
    inferInstanceAs (Decidable (IsKey key ∧ Text.isBlankText before = true ∧
      Text.isBlankText after = true ∧ value ≠ [] ∧ (∀ c ∈ value, isBlank c = false) ∧
      ∀ c ∈ value.head?, c ≠ '"' ∧ c ≠ '\''))
  | .bare key => inferInstanceAs (Decidable (IsKey key))

def isShorthand : WrittenEntry → Bool
  | .id _ | .className _ => true
  | _ => false

/-- The other entry may follow this one without white space: anything may stand behind a closing quotation
mark, and a shorthand ends where the next one starts. -/
def mayTouch : WrittenEntry → WrittenEntry → Bool
  | .quoted .., _ => true
  | entry, next => entry.isShorthand && next.isShorthand

/-- The entry ends before the given rest of the list. -/
def EndsBefore : WrittenEntry → Text → Prop
  | .id _, rest | .className _, rest => ∀ c ∈ rest.head?, isShorthandChar c = false
  | .quoted .., _ => True
  | .unquoted .., rest => ∀ c ∈ rest.head?, isBlank c = true
  | .bare _, rest =>
    (∀ c ∈ rest.head?, isBlank c = true) ∧ (Text.trimStart rest).head? ≠ some '='

theorem endsBefore_nil (entry : WrittenEntry) : entry.EndsBefore [] := by
  cases entry with
  | quoted => trivial
  | bare => exact ⟨nofun, nofun⟩
  | _ => exact nofun

section Valid

variable {entry : WrittenEntry} (h : entry.IsValid)

include h

/-- A valid entry is read as it is meant, up to where it ends. -/
theorem IsValid.read {rest : Text} (hRest : entry.EndsBefore rest) :
    ∃ c more, entry.written ++ rest = c :: more ∧ isBlank c = false ∧
      readEntry c more = (some entry.entry, rest) := by
  cases entry with
  | id body =>
      refine ⟨'#', body ++ rest, rfl, rfl, ?_⟩
      rw [readEntry, if_pos rfl, Text.takeWhile_append_stop h hRest,
        Text.dropWhile_append_stop h hRest]
      rfl
  | className body =>
      refine ⟨'.', body ++ rest, rfl, rfl, ?_⟩
      rw [readEntry, if_neg (by decide), if_pos rfl, Text.takeWhile_append_stop h hRest,
        Text.dropWhile_append_stop h hRest]
      rfl
  | quoted key before after mark value =>
      obtain ⟨hKey, hBefore, hAfter, hMark, hFree⟩ := h
      obtain ⟨c, more, hCons, hSolid, hRead⟩ := hKey.readEntry
      refine ⟨c, more ++ (before ++ '=' :: (after ++ mark :: (value ++ mark :: rest))), ?_, hSolid, ?_⟩
      · simp [written, hCons]
      · have hMarkSolid : isBlank mark = false := by rcases hMark with rfl | rfl <;> rfl
        have hTrim : Text.trimStart (after ++ mark :: (value ++ mark :: rest)) =
            mark :: (value ++ mark :: rest) := by
          rw [Text.trimStart, List.dropWhile_append_of_pos (List.all_eq_true.1 hAfter)]
          exact Text.trimStart_cons hMarkSolid _
        rw [hRead, hKey.readAttribute_equals hBefore, hTrim, readValue_quoted key hMark hFree]
        rfl
  | unquoted key before after value =>
      obtain ⟨hKey, hBefore, hAfter, hNe, hSolidValue, hHead⟩ := h
      obtain ⟨c, more, hCons, hSolid, hRead⟩ := hKey.readEntry
      refine ⟨c, more ++ (before ++ '=' :: (after ++ (value ++ rest))), ?_, hSolid, ?_⟩
      · simp [written, hCons]
      · have hTrim : Text.trimStart (after ++ (value ++ rest)) = value ++ rest := by
          obtain ⟨d, tail, rfl⟩ := List.exists_cons_of_ne_nil hNe
          rw [Text.trimStart, List.dropWhile_append_of_pos (List.all_eq_true.1 hAfter)]
          exact Text.trimStart_cons (hSolidValue d (List.mem_cons_self ..)) _
        rw [hRead, hKey.readAttribute_equals hBefore, hTrim,
          readValue_unquoted key hNe hSolidValue hHead hRest]
        rfl
  | bare key =>
      obtain ⟨c, more, hCons, hSolid, hRead⟩ := IsKey.readEntry h
      refine ⟨c, more ++ rest, ?_, hSolid, ?_⟩
      · simp [written, hCons]
      · rw [hRead, IsKey.readAttribute_bare h hRest.1 hRest.2]
        rfl

/-- A valid entry starts with a character that is neither white space nor an equals sign. A shorthand
starts with one that ends the shorthand before it. -/
theorem IsValid.written_cons : ∃ c more, entry.written = c :: more ∧ isBlank c = false ∧ c ≠ '=' ∧
    (entry.isShorthand = true → isShorthandChar c = false) := by
  have hAttribute : ∀ key rest : Text, IsKey key → ∃ c more, key ++ rest = c :: more ∧
      isBlank c = false ∧ c ≠ '=' := by
    intro key rest hKey
    obtain ⟨c, more, rfl, hStarts, hSolid⟩ := hKey.exists_cons
    exact ⟨c, more ++ rest, rfl, hSolid, by rintro rfl; cases hStarts⟩
  cases entry with
  | id body => exact ⟨'#', body, rfl, rfl, by decide, fun _ => rfl⟩
  | className body => exact ⟨'.', body, rfl, rfl, by decide, fun _ => rfl⟩
  | quoted key before after mark value =>
      obtain ⟨c, more, hCons, hSolid, hEquals⟩ :=
        hAttribute key (before ++ '=' :: (after ++ mark :: (value ++ [mark]))) h.1
      exact ⟨c, more, hCons, hSolid, hEquals, nofun⟩
  | unquoted key before after value =>
      obtain ⟨c, more, hCons, hSolid, hEquals⟩ := hAttribute key (before ++ '=' :: (after ++ value)) h.1
      exact ⟨c, more, hCons, hSolid, hEquals, nofun⟩
  | bare key =>
      obtain ⟨c, more, hCons, hSolid, hEquals⟩ := hAttribute key [] h
      rw [List.append_nil] at hCons
      exact ⟨c, more, hCons, hSolid, hEquals, nofun⟩

/-- A valid entry does not end in white space. -/
theorem IsValid.endsSolid : entry.written.EndsSolid := by
  have hShorthand : ∀ (mark : Char) (body : Text), isBlank mark = false →
      (∀ c ∈ body, isShorthandChar c = true) → Text.EndsSolid (mark :: body) := by
    intro mark body hMark hBody
    refine Text.endsSolid_of_all (List.forall_mem_cons.2 ⟨hMark, fun c hMem => ?_⟩)
    exact isBlank_of_isShorthandChar (hBody c hMem)
  cases entry with
  | id body => exact hShorthand '#' body rfl h
  | className body => exact hShorthand '.' body rfl h
  | quoted key before after mark value =>
      obtain ⟨-, -, -, hMark, -⟩ := h
      have hLast : Text.EndsSolid [mark] :=
        Text.endsSolid_of_all (List.forall_mem_singleton.2 (by rcases hMark with rfl | rfl <;> rfl))
      have hEnd := hLast.append (List.cons_ne_nil _ _) (key ++ before ++ '=' :: (after ++ mark :: value))
      simpa [written] using hEnd
  | unquoted key before after value =>
      obtain ⟨-, -, -, hNe, hSolid, -⟩ := h
      have hEnd := (Text.endsSolid_of_all hSolid).append hNe (key ++ before ++ '=' :: after)
      simpa [written] using hEnd
  | bare key => exact Text.endsSolid_of_all fun c hMem => isBlank_of_isKeyChar (h.2 c hMem)

end Valid

/-- An entry ends before white space and another entry, and right before the other entry if the two may
touch. -/
theorem IsValid.endsBefore {entry next : WrittenEntry} (h : next.IsValid) {gap : Text}
    (hGap : Text.isBlankText gap = true) (hTouch : gap = [] → entry.mayTouch next = true)
    (rest : Text) : entry.EndsBefore (gap ++ (next.written ++ rest)) := by
  obtain ⟨c, more, hCons, hSolid, hEquals, hMark⟩ := h.written_cons
  rw [hCons]
  have hBlank : gap ≠ [] → ∀ d ∈ (gap ++ (c :: more ++ rest)).head?, isBlank d = true := by
    intro hNe
    obtain ⟨d, tail, rfl⟩ := List.exists_cons_of_ne_nil hNe
    rintro _ ⟨⟩
    exact List.all_eq_true.1 hGap d (List.mem_cons_self ..)
  have hApart : entry.mayTouch next = false → gap ≠ [] := by
    intro hFalse hNil
    rw [hTouch hNil] at hFalse
    cases hFalse
  have hShorthand : (∀ other, entry.mayTouch other = other.isShorthand) →
      ∀ d ∈ (gap ++ (c :: more ++ rest)).head?, isShorthandChar d = false := by
    intro hOnly
    cases gap with
    | nil =>
        rintro _ ⟨⟩
        exact hMark ((hOnly next).symm.trans (hTouch rfl))
    | cons d gap =>
        intro e hMem
        rw [isShorthandChar, hBlank (List.cons_ne_nil _ _) e hMem]
        rfl
  cases entry with
  | id body => exact hShorthand fun _ => rfl
  | className body => exact hShorthand fun _ => rfl
  | quoted => trivial
  | unquoted => exact hBlank (hApart rfl)
  | bare key =>
      refine ⟨hBlank (hApart rfl), ?_⟩
      rw [Text.trimStart, List.dropWhile_append_of_pos (List.all_eq_true.1 hGap)]
      rw [List.cons_append, List.dropWhile_cons_of_neg (by simp [hSolid])]
      exact fun hHead => hEquals (Option.some.inj hHead)

end WrittenEntry

/-- A text of entries one after the other, with white space between each two of them unless they may touch.
-/
inductive Writes : List WrittenEntry → Text → Prop
  | nil : Writes [] []
  | last {entry : WrittenEntry} (hValid : entry.IsValid) : Writes [entry] entry.written
  | cons {entry next : WrittenEntry} {more : List WrittenEntry} {gap rest : Text}
      (hValid : entry.IsValid) (hGap : Text.isBlankText gap = true)
      (hTouch : gap = [] → entry.mayTouch next = true) (hRest : Writes (next :: more) rest) :
      Writes (entry :: next :: more) (entry.written ++ (gap ++ rest))

namespace Writes

variable {list : List WrittenEntry} {s : Text}

/-- A text of entries starts with the first of them. -/
theorem exists_first {entry : WrittenEntry} {more : List WrittenEntry}
    (h : Writes (entry :: more) s) : entry.IsValid ∧ ∃ rest, s = entry.written ++ rest := by
  cases h with
  | last hValid => exact ⟨hValid, [], (List.append_nil _).symm⟩
  | cons hValid => exact ⟨hValid, _, rfl⟩

/-- Entries in valid forms are read one after the other, each as it is meant. -/
theorem entries_eq (h : Writes list s) : entries s = list.map WrittenEntry.entry := by
  have hRead : ∀ (entry : WrittenEntry) (rest : Text), entry.IsValid → entry.EndsBefore rest →
      entries (entry.written ++ rest) = entry.entry :: entries rest := by
    intro entry rest hValid hEnds
    obtain ⟨c, more, hCons, hSolid, hRead⟩ := hValid.read hEnds
    rw [entries_of_cons (by rw [hCons]; exact Text.trimStart_cons hSolid more), hRead]
    rfl
  have hNil : entries [] = [] := entries_of_nil rfl
  induction h with
  | nil => exact hNil
  | @last entry hValid =>
      have hAlone := hRead entry [] hValid entry.endsBefore_nil
      rwa [List.append_nil, hNil] at hAlone
  | @cons entry next more gap rest hValid hGap hTouch hRest ih =>
      obtain ⟨hNext, tail, rfl⟩ := hRest.exists_first
      rw [hRead entry _ hValid (hNext.endsBefore hGap hTouch tail), entries_append_blank hGap, ih]
      rfl

theorem startsSolid (h : Writes list s) : ∀ c ∈ s.head?, isBlank c = false := by
  cases list with
  | nil =>
      cases h
      exact nofun
  | cons entry more =>
      obtain ⟨hValid, rest, rfl⟩ := h.exists_first
      obtain ⟨c, tail, hCons, hSolid, -⟩ := hValid.written_cons
      rw [hCons]
      rintro _ ⟨⟩
      exact hSolid

theorem endsSolid (h : Writes list s) : s.EndsSolid := by
  induction h with
  | nil => exact nofun
  | last hValid => exact hValid.endsSolid
  | @cons entry next more gap rest hValid hGap hTouch hRest ih =>
      obtain ⟨hNext, tail, rfl⟩ := hRest.exists_first
      obtain ⟨c, body, hCons, -⟩ := hNext.written_cons
      rw [← List.append_assoc]
      exact ih.append (by simp [hCons]) _

/-- White space around the entries does not count. -/
theorem trim_eq (h : Writes list s) {before after : Text} (hBefore : Text.isBlankText before = true)
    (hAfter : Text.isBlankText after = true) : Text.trim (before ++ (s ++ after)) = s :=
  Text.trim_append h.startsSolid h.endsSolid hBefore hAfter

end Writes

end Arguments

end DirectiveMarkdown
