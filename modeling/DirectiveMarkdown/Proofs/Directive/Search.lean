import Mathlib
import DirectiveMarkdown.Proofs.Directive.LineGrammar
import DirectiveMarkdown.Proofs.Text.Offsets

/-! The search for directives in running text. It finds the leftmost colon that a directive can start
with, and the longest directive that is written there. Places in a text are byte offsets. -/
namespace DirectiveMarkdown

open InlineDirective

namespace WrittenDirective

/-- The directive can stand in running text: its name starts with an ASCII letter, and a label or an
attribute list follows the name. -/
structure IsInline (w : WrittenDirective) : Prop where
  letter : ∃ c ∈ w.name.head?, c.isAlpha = true
  delimited : w.label.isSome = true ∨ w.attributes.isSome = true

variable {w : WrittenDirective} {rest : Text}

/-- A directive in running text has a label or an attribute list, if only an empty one. -/
theorem IsInline.pieces_ne_nil (h : w.IsInline) : w.pieces ≠ [] := by
  rcases h.delimited with hSome | hSome <;>
    obtain ⟨content, hContent⟩ := Option.isSome_iff_exists.1 hSome <;>
    simp [pieces, delimit, hContent]

/-- What follows a directive in running text does not belong to it, unless it has no attribute list and
one follows. -/
theorem IsInline.endsBefore (h : w.IsInline)
    (hAttributes : w.attributes = none → ¬StartsDelimited '{' '}' rest) : w.EndsBefore rest :=
  endsBefore_of (fun hNone => absurd hNone h.pieces_ne_nil) hAttributes

/-- A directive in running text, or the longer one with the attribute list that follows it, ends before
something that does not belong to it. -/
theorem IsInline.exists_endsBefore (h : w.IsInline) (rest : Text) :
    ∃ (longest : WrittenDirective) (more : Text), longest.IsInline ∧ longest.EndsBefore more ∧
      w.written ++ rest = longest.written ++ more ∧
      Text.width w.written ≤ Text.width longest.written := by
  by_cases hMore : w.attributes = none ∧ StartsDelimited '{' '}' rest
  · obtain ⟨hNone, content, more, hBalanced, rfl⟩ := hMore
    have hContent : ∀ found ∈ some content, isBalanced '{' '}' 0 found = true := by
      simpa using hBalanced
    let longest : WrittenDirective :=
      { w with attributes := some content, attributes_balanced := hContent }
    have hInline : longest.IsInline := ⟨h.letter, .inr rfl⟩
    refine ⟨longest, more, hInline, hInline.endsBefore nofun, ?_, ?_⟩
    · simp [longest, written, pieces, hNone, delimit]
    · simp only [longest, written, pieces, hNone, delimit, List.append_nil, Text.width_append]
      omega
  · refine ⟨w, rest, h, h.endsBefore fun hNone hStarts => hMore ⟨hNone, hStarts⟩, rfl, ?_⟩
    exact Nat.le_refl _

/-- The directive after a colon is read up to what does not belong to it. -/
theorem IsInline.readAt? (h : w.IsInline) (hEnds : w.EndsBefore rest) :
    InlineDirective.readAt? (w.written ++ rest) = some (w.body, w.written, rest) := by
  obtain ⟨c, hHead, hAlpha⟩ := h.letter
  have hFirst : ((w.written ++ rest).head?.map Char.isAlpha).getD false = true := by
    simp [written, Option.mem_def.1 hHead, hAlpha]
  have hShorter : rest.length < (w.pieces ++ rest).length := by
    have hPieces := List.length_pos_iff.2 h.pieces_ne_nil
    rw [List.length_append]
    omega
  rw [InlineDirective.readAt?, if_pos hFirst, hEnds.readDirectiveBody?, Option.bind_some]
  dsimp only
  rw [if_pos hShorter]
  simp

/-- What is read after a colon is written there, and nothing after it belongs to it. -/
theorem exists_of_readAt? {s written after : Text} {body : DirectiveBody}
    (h : InlineDirective.readAt? s = some (body, written, after)) :
    ∃ w : WrittenDirective, w.IsInline ∧ w.EndsBefore after ∧ s = w.written ++ after ∧
      w.body = body ∧ w.written = written := by
  rw [InlineDirective.readAt?] at h
  split at h
  · next hFirst =>
      obtain ⟨⟨read, afterName, rest⟩, hRead, hFound⟩ := Option.bind_eq_some_iff.1 h
      dsimp only at hFound
      split at hFound
      · next hShorter =>
          cases hFound
          obtain ⟨w, hEnds, rfl, rfl, rfl⟩ := exists_of_readDirectiveBody? hRead
          refine ⟨w, ⟨?_, ?_⟩, hEnds, rfl, rfl, by simp⟩
          · obtain ⟨c, more, hName, -⟩ := exists_cons_of_isDirectiveName w.isName
            refine ⟨c, by simp [hName], ?_⟩
            simpa [written, hName] using hFirst
          · cases hLabel : w.label with
            | some content => exact .inl rfl
            | none =>
                cases hList : w.attributes with
                | some content => exact .inr rfl
                | none => simp [pieces, delimit, hLabel, hList] at hShorter
      · cases hFound
  · cases h

/-- Nothing is read after a colon exactly if no directive is written there. -/
theorem readAt?_eq_none_iff {s : Text} :
    InlineDirective.readAt? s = none ↔
      ∀ w : WrittenDirective, w.IsInline → ∀ rest, s ≠ w.written ++ rest := by
  constructor
  · rintro hNone w hInline rest rfl
    obtain ⟨longest, more, hLongest, hEnds, hEq, -⟩ := hInline.exists_endsBefore rest
    rw [hEq, hLongest.readAt? hEnds] at hNone
    cases hNone
  · intro h
    cases hRead : InlineDirective.readAt? s with
    | none => rfl
    | some read =>
        obtain ⟨body, written, after⟩ := read
        obtain ⟨w, hInline, -, hEq, -⟩ := exists_of_readAt? hRead
        exact absurd hEq (h w hInline after)

/-- What is written determines the directive. -/
theorem written_injective : Function.Injective written := by
  intro a b h
  have hEnds (w : WrittenDirective) : w.EndsBefore [] := w.endsBefore_of_isBlankText rfl
  exact ((hEnds a).unique (hEnds b) (by rw [h])).1

end WrittenDirective

namespace InlineDirective

section List

variable {previous : Option Char} {s : Text}

theorem getLast?_cons_or (c : Char) (before : Text) (previous : Option Char) :
    (c :: before).getLast?.or previous = before.getLast?.or (some c) := by
  cases h : before.getLast? <;> simp [List.getLast?_cons, h]

/-- If no directive starts a text, then nothing can be read after a colon in it that may start one, or
the colon stands further right. -/
theorem readAt?_eq_none_or_right {c : Char} {before rest : Text}
    (hNone : (if c = ':' ∧ mayFollow previous = true then readAt? s else none) = none)
    (hText : c :: s = before ++ ':' :: rest) (hFollow : mayFollow (before.getLast?.or previous) = true) :
    readAt? rest = none ∨ ∃ more, before = c :: more ∧ s = more ++ ':' :: rest ∧
      mayFollow (more.getLast?.or (some c)) = true := by
  cases before with
  | nil =>
      obtain ⟨rfl, rfl⟩ := List.cons.inj hText
      rw [if_pos ⟨rfl, hFollow⟩] at hNone
      exact .inl hNone
  | cons d more =>
      obtain ⟨rfl, hRest⟩ := List.cons.inj hText
      rw [getLast?_cons_or] at hFollow
      exact .inr ⟨more, rfl, hRest, hFollow⟩

/-- If nothing is found, nothing can be read after any colon that may start a directive. -/
theorem readAt?_of_find?_eq_none (h : find? previous s = none) {before rest : Text}
    (hText : s = before ++ ':' :: rest) (hFollow : mayFollow (before.getLast?.or previous) = true) :
    readAt? rest = none := by
  induction s generalizing previous before with
  | nil => simp at hText
  | cons c s ih =>
      unfold find? at h
      split at h
      · cases h
      · next hNone =>
          rcases readAt?_eq_none_or_right hNone hText hFollow with hRead | ⟨more, -, hRest, hMay⟩
          · exact hRead
          · exact ih (Option.map_eq_none_iff.1 h) hRest hMay

/-- What is found starts with a colon that may start a directive, and is read after it. Nothing can be
read after a colon further left. -/
theorem exists_of_find? {found : InlineDirective} (h : find? previous s = some found) :
    ∃ written, found.written = ':' :: written ∧
      s = found.before ++ ':' :: (written ++ found.after) ∧
      mayFollow (found.before.getLast?.or previous) = true ∧
      readAt? (written ++ found.after) = some (found.body, written, found.after) ∧
      ∀ before rest : Text, s = before ++ ':' :: rest → before.length < found.before.length →
        mayFollow (before.getLast?.or previous) = true → readAt? rest = none := by
  induction s generalizing previous found with
  | nil => cases h
  | cons c s ih =>
      unfold find? at h
      split at h
      · next body written after hRead =>
          cases h
          split at hRead
          · next hStart =>
              obtain ⟨rfl, hFollow⟩ := hStart
              obtain ⟨w, -, -, rfl, -, rfl⟩ := WrittenDirective.exists_of_readAt? hRead
              exact ⟨_, rfl, rfl, hFollow, hRead, fun _ _ _ hLess => absurd hLess (Nat.not_lt_zero _)⟩
          · cases hRead
      · next hNone =>
          obtain ⟨more, hMore, rfl⟩ := Option.map_eq_some_iff.1 h
          obtain ⟨written, hWritten, rfl, hFollow, hRead, hLeft⟩ := ih hMore
          refine ⟨written, hWritten, rfl, ?_, hRead, ?_⟩
          · rw [getLast?_cons_or]
            exact hFollow
          · intro before rest hText hLess hMay
            rcases readAt?_eq_none_or_right hNone hText hMay with hNothing | ⟨more, rfl, hRest, hAfter⟩
            · exact hNothing
            · exact hLeft more rest hRest (by simpa using hLess) hAfter

end List

/-- A directive in a text: what it is, and the byte offsets of its colon and of what follows it. -/
@[ext]
structure Located where
  body : DirectiveBody
  start : Nat
  stop : Nat

/-- The place of a directive that is found in the text after a byte offset. -/
def locate (offset : Nat) (found : InlineDirective) : Located where
  body := found.body
  start := offset + Text.width found.before
  stop := offset + Text.width found.before + Text.width found.written

/-- The first directive of a text at or after a byte offset. The character before the offset counts. -/
def locate? (s : Text) (offset : Nat) : Option Located :=
  (Text.splitAtByte? s offset).bind fun (before, rest) =>
    (find? before.getLast? rest).map (locate offset)

/-- The places of directives of which each is found in the text after the one before it. -/
def locateAll : Nat → List InlineDirective → List Located
  | _, [] => []
  | offset, found :: more => locate offset found :: locateAll (locate offset found).stop more

/-- A directive is written at a byte offset of the text, from its colon on, and the colon follows neither
a letter or numeral nor another colon. -/
structure StandsAt (w : WrittenDirective) (s : Text) (start : Nat) : Prop where
  inline : w.IsInline
  place : ∃ before after : Text, s = before ++ ':' :: (w.written ++ after) ∧
    Text.width before = start ∧ mayFollow before.getLast? = true

/-- What is located is the longest directive at the leftmost place at or after the offset, and goes from
its colon up to its last closing delimiter. -/
structure IsFirst (located : Located) (w : WrittenDirective) (s : Text) (offset : Nat) : Prop where
  stands : StandsAt w s located.start
  body : located.body = w.body
  stop : located.stop = located.start + Text.width (':' :: w.written)
  longest : ∀ other, StandsAt other s located.start →
    Text.width other.written ≤ Text.width w.written
  least : offset ≤ located.start
  leftmost : ∀ start other, offset ≤ start → StandsAt other s start → located.start ≤ start

/-- There is one such place only. -/
theorem IsFirst.unique {located other : Located} {w v : WrittenDirective} {s : Text} {offset : Nat}
    (h : IsFirst located w s offset) (hOther : IsFirst other v s offset) : located = other := by
  have hStart : located.start = other.start :=
    Nat.le_antisymm (h.leftmost _ _ hOther.least hOther.stands)
      (hOther.leftmost _ _ h.least h.stands)
  have hWidth : Text.width w.written = Text.width v.written :=
    Nat.le_antisymm (hOther.longest w (hStart ▸ h.stands)) (h.longest v (hStart ▸ hOther.stands))
  obtain ⟨before, after, hText, hBefore, -⟩ := h.stands.place
  obtain ⟨otherBefore, otherAfter, hOtherText, hOtherBefore, -⟩ := hOther.stands.place
  obtain ⟨-, hRest⟩ := Text.append_inj_of_width_eq (hText.symm.trans hOtherText)
    (by rw [hBefore, hOtherBefore, hStart])
  obtain ⟨hWritten, -⟩ := Text.append_inj_of_width_eq (List.cons.inj hRest).2 hWidth
  obtain rfl := WrittenDirective.written_injective hWritten
  exact Located.ext (h.body.trans hOther.body.symm) hStart (by rw [h.stop, hOther.stop, hStart])

section Search

variable {s before rest : Text} {offset : Nat}

/-- A search from a byte offset is one in the text behind the cut. -/
theorem locate?_of_cut (hCut : Text.splitAtByte? s offset = some (before, rest)) :
    locate? s offset = (find? before.getLast? rest).map (locate offset) := by
  rw [locate?, hCut]
  rfl

/-- A place at or after a cut is one in the text after the cut. -/
theorem StandsAt.exists_after {w : WrittenDirective} {start : Nat} (h : StandsAt w s start)
    (hCut : Text.splitAtByte? s offset = some (before, rest)) (hLe : offset ≤ start) :
    ∃ between after : Text, rest = between ++ ':' :: (w.written ++ after) ∧
      start = offset + Text.width between ∧
      mayFollow (between.getLast?.or before.getLast?) = true := by
  obtain ⟨rfl, rfl⟩ := Text.eq_of_splitAtByte? hCut
  obtain ⟨upTo, after, hText, rfl, hFollow⟩ := h.place
  obtain ⟨between, rfl, rfl⟩ := Text.exists_append_of_width_le hText hLe
  rw [List.getLast?_append] at hFollow
  exact ⟨between, after, rfl, Text.width_append .., hFollow⟩

/-- If nothing is found after a cut, no directive is written there. -/
theorem not_standsAt_of_find?_eq_none (hCut : Text.splitAtByte? s offset = some (before, rest))
    (h : find? before.getLast? rest = none) {start : Nat} (hLe : offset ≤ start)
    (w : WrittenDirective) : ¬StandsAt w s start := by
  intro hStands
  obtain ⟨between, after, hRest, -, hFollow⟩ := hStands.exists_after hCut hLe
  have hNone := readAt?_of_find?_eq_none h hRest hFollow
  exact WrittenDirective.readAt?_eq_none_iff.1 hNone w hStands.inline after rfl

/-- What is found after a cut is the first directive there. -/
theorem isFirst_of_find? (hCut : Text.splitAtByte? s offset = some (before, rest))
    {found : InlineDirective} (h : find? before.getLast? rest = some found) :
    ∃ w, IsFirst (locate offset found) w s offset := by
  obtain ⟨hText, hOffset⟩ := Text.eq_of_splitAtByte? hCut
  obtain ⟨written, hWritten, hRest, hFollow, hRead, hLeft⟩ := exists_of_find? h
  obtain ⟨w, hInline, hEnds, -, hBody, rfl⟩ := WrittenDirective.exists_of_readAt? hRead
  have hStart : (locate offset found).start = Text.width (before ++ found.before) := by
    rw [Text.width_append, hOffset, locate]
  refine ⟨w, ⟨hInline, before ++ found.before, found.after, ?_, hStart.symm, ?_⟩, hBody.symm, ?_, ?_,
    Nat.le_add_right .., ?_⟩
  · rw [hText, hRest, List.append_assoc]
  · rw [List.getLast?_append]
    exact hFollow
  · rw [locate, hWritten]
  · intro other hOther
    obtain ⟨between, after, hBetween, hSame, -⟩ := hOther.exists_after hCut (Nat.le_add_right ..)
    have hWidth : Text.width between = Text.width found.before := Nat.add_left_cancel hSame.symm
    obtain ⟨-, hTail⟩ := Text.append_inj_of_width_eq (hBetween.symm.trans hRest) hWidth
    obtain ⟨longest, more, -, hLongest, hEq, hLe⟩ := hOther.inline.exists_endsBefore after
    obtain ⟨rfl, -⟩ := hLongest.unique hEnds (hEq.symm.trans (List.cons.inj hTail).2)
    exact hLe
  · intro start other hLe hOther
    obtain ⟨between, after, hBetween, rfl, hMay⟩ := hOther.exists_after hCut hLe
    refine Nat.le_of_not_lt fun hLess => ?_
    have hWidth : Text.width between < Text.width found.before := Nat.lt_of_add_lt_add_left hLess
    obtain ⟨more, hBefore, -⟩ :=
      Text.exists_append_of_width_le (hBetween.symm.trans hRest) (Nat.le_of_lt hWidth)
    have hShorter : between.length < found.before.length := by
      cases more with
      | nil => simp [hBefore] at hWidth
      | cons c more => simp [hBefore]
    have hNone := hLeft between _ hBetween hShorter hMay
    exact WrittenDirective.readAt?_eq_none_iff.1 hNone other hOther.inline after rfl

/-- The text can be cut before and after what is found. -/
theorem splitAtByte?_locate (hCut : Text.splitAtByte? s offset = some (before, rest))
    {found : InlineDirective} (h : find? before.getLast? rest = some found) :
    Text.splitAtByte? s (locate offset found).start =
        some (before ++ found.before, found.written ++ found.after) ∧
      Text.splitAtByte? s (locate offset found).stop =
        some (before ++ found.before ++ found.written, found.after) := by
  obtain ⟨hText, hOffset⟩ := Text.eq_of_splitAtByte? hCut
  obtain ⟨written, hWritten, hRest, -⟩ := exists_of_find? h
  have hStart : s = (before ++ found.before) ++ (found.written ++ found.after) := by
    rw [hText, hRest, hWritten]
    simp
  have hStop : s = (before ++ found.before ++ found.written) ++ found.after := by
    rw [hStart]
    simp
  constructor
  · rw [hStart, ← Text.splitAtByte?_width]
    congr 1
    rw [locate, ← hOffset, Text.width_append]
  · rw [hStop, ← Text.splitAtByte?_width]
    congr 1
    rw [locate, ← hOffset, Text.width_append, Text.width_append]

/-- What is found takes up some of the text. -/
theorem length_after_lt {previous : Option Char} {found : InlineDirective}
    (h : find? previous rest = some found) : found.after.length < rest.length := by
  obtain ⟨written, -, hRest, -⟩ := exists_of_find? h
  rw [hRest, List.length_append, List.length_cons, List.length_append]
  omega

end Search

/-- Directives found one after the other in a text: each search starts where the last directive ends,
until one finds nothing. -/
inductive Searches (s : Text) : Nat → List Located → Prop where
  | none {offset : Nat} (h : locate? s offset = .none) : Searches s offset []
  | found {offset : Nat} {located : Located} {more : List Located}
      (h : locate? s offset = some located) (rest : Searches s located.stop more) :
      Searches s offset (located :: more)

/-- Searching again and again comes to an end, and finds what the repeated search of the text after the
offset finds. -/
theorem searches_locateAll {s before rest : Text} {fuel offset : Nat}
    (hCut : Text.splitAtByte? s offset = some (before, rest)) (hFuel : rest.length ≤ fuel) :
    Searches s offset (locateAll offset (findAllUpTo fuel before.getLast? rest)) := by
  induction fuel generalizing before rest offset with
  | zero =>
      obtain rfl : rest = [] := List.length_eq_zero_iff.1 (Nat.le_zero.1 hFuel)
      exact .none (locate?_of_cut hCut)
  | succ fuel ih =>
      cases hFound : find? before.getLast? rest with
      | none =>
          rw [findAllUpTo, hFound]
          refine .none ?_
          rw [locate?_of_cut hCut, hFound]
          rfl
      | some found =>
          obtain ⟨written, hWritten, -⟩ := exists_of_find? hFound
          obtain ⟨-, hNext⟩ := splitAtByte?_locate hCut hFound
          have hLast : (before ++ found.before ++ found.written).getLast? =
              found.written.getLast? := by
            rw [List.getLast?_append, hWritten]
            simp [List.getLast?_cons]
          have hShorter := length_after_lt hFound
          have hRest := ih hNext (by omega)
          rw [hLast] at hRest
          rw [findAllUpTo, hFound]
          refine .found ?_ hRest
          rw [locate?_of_cut hCut, hFound]
          rfl

/-- What is located lies at the offset or behind it, and takes at least one byte. -/
theorem lt_of_locate? {s : Text} {offset : Nat} {located : Located}
    (h : locate? s offset = some located) :
    offset ≤ located.start ∧ located.start < located.stop := by
  obtain ⟨⟨before, rest⟩, hCut, hLocated⟩ := Option.bind_eq_some_iff.1 h
  obtain ⟨found, hFound, rfl⟩ := Option.map_eq_some_iff.1 hLocated
  obtain ⟨w, hFirst⟩ := isFirst_of_find? hCut hFound
  have hColon : 0 < ':'.utf8Size := Char.utf8Size_pos _
  refine ⟨hFirst.least, ?_⟩
  rw [hFirst.stop, Text.width_cons]
  omega

/-- The search gives one answer only. -/
theorem Searches.unique {s : Text} {offset : Nat} {all other : List Located}
    (h : Searches s offset all) (hOther : Searches s offset other) : all = other := by
  induction h generalizing other with
  | none hNone =>
      cases hOther with
      | none => rfl
      | found hFound =>
          rw [hNone] at hFound
          cases hFound
  | found hFound _ ih =>
      cases hOther with
      | none hNone =>
          rw [hFound] at hNone
          cases hNone
      | found hSame hRest =>
          rw [hFound] at hSame
          cases hSame
          rw [ih hRest]

/-- Each of the directives found takes up some of the text, and lies after those before it. -/
theorem Searches.ordered {s : Text} {offset : Nat} {all : List Located} (h : Searches s offset all) :
    (∀ located ∈ all, offset ≤ located.start ∧ located.start < located.stop) ∧
      all.Pairwise fun a b => a.stop ≤ b.start := by
  induction h with
  | none => exact ⟨List.forall_mem_nil _, .nil⟩
  | found hFound _ ih =>
      obtain ⟨hLeast, hLess⟩ := lt_of_locate? hFound
      obtain ⟨hRest, hPairwise⟩ := ih
      refine ⟨List.forall_mem_cons.2 ⟨⟨hLeast, hLess⟩, fun located hMem => ?_⟩,
        List.pairwise_cons.2 ⟨fun located hMem => (hRest located hMem).1, hPairwise⟩⟩
      obtain ⟨hNext, hOwn⟩ := hRest located hMem
      exact ⟨by omega, hOwn⟩

/-- The search from an offset at which the text can be cut finds the longest directive at the leftmost
colon at or after the offset that a directive can start with, and nothing exactly if there is no such
colon. A directive starts with its colon and ends after its last closing delimiter, and the text can be
cut at both ends. Searching again from the end of each directive comes to an end: it finds directives
that lie one after the other, and these are all that is found in the text after the offset. -/
theorem locate?_first {s before rest : Text} {offset : Nat}
    (hCut : Text.splitAtByte? s offset = some (before, rest)) :
    (locate? s offset = none ↔ ∀ start w, offset ≤ start → ¬StandsAt w s start) ∧
    (∀ located, locate? s offset = some located ↔ ∃ w, IsFirst located w s offset) ∧
    (∀ located, locate? s offset = some located →
      offset ≤ located.start ∧ located.start < located.stop ∧
        (Text.splitAtByte? s located.start).isSome = true ∧
        (Text.splitAtByte? s located.stop).isSome = true) ∧
    (∀ all : List Located, Searches s offset all ↔
      all = locateAll offset (findAll before.getLast? rest)) ∧
    ∀ all : List Located, Searches s offset all →
      (∀ located ∈ all, offset ≤ located.start ∧ located.start < located.stop) ∧
        all.Pairwise fun a b => a.stop ≤ b.start := by
  have hLocate := locate?_of_cut hCut
  have hSearches := searches_locateAll hCut (Nat.le_refl rest.length)
  refine ⟨⟨?_, ?_⟩, fun located => ⟨?_, ?_⟩, fun located h => ?_, fun all => ⟨fun h => ?_, ?_⟩,
    fun all h => h.ordered⟩
  · intro hNone start w hLe
    rw [hLocate, Option.map_eq_none_iff] at hNone
    exact not_standsAt_of_find?_eq_none hCut hNone hLe w
  · intro hStands
    rw [hLocate, Option.map_eq_none_iff]
    cases hFound : find? before.getLast? rest with
    | none => rfl
    | some found =>
        obtain ⟨w, hFirst⟩ := isFirst_of_find? hCut hFound
        exact absurd hFirst.stands (hStands _ w hFirst.least)
  · intro hSome
    rw [hLocate] at hSome
    obtain ⟨found, hFound, rfl⟩ := Option.map_eq_some_iff.1 hSome
    exact isFirst_of_find? hCut hFound
  · rintro ⟨w, hFirst⟩
    rw [hLocate]
    cases hFound : find? before.getLast? rest with
    | none => exact absurd hFirst.stands (not_standsAt_of_find?_eq_none hCut hFound hFirst.least w)
    | some found =>
        obtain ⟨v, hOther⟩ := isFirst_of_find? hCut hFound
        rw [Option.map_some, hFirst.unique hOther]
  · obtain ⟨hLeast, hLess⟩ := lt_of_locate? h
    rw [hLocate] at h
    obtain ⟨found, hFound, rfl⟩ := Option.map_eq_some_iff.1 h
    obtain ⟨hStart, hStop⟩ := splitAtByte?_locate hCut hFound
    exact ⟨hLeast, hLess, by simp [hStart], by simp [hStop]⟩
  · exact h.unique hSearches
  · rintro rfl
    exact hSearches

/-- A colon right after the offset is no start if a letter stands before the offset, and neither is one
after a letter further right. -/
theorem locate?_first_letter :
    Text.splitAtByte? (text "z:x[0] :a[é]:b{k} c:d[2]") 1 =
        some (['z'], text ":x[0] :a[é]:b{k} c:d[2]") ∧
      ∃ all, Searches (text "z:x[0] :a[é]:b{k} c:d[2]") 1 all ∧
        all.Pairwise (fun a b => a.stop ≤ b.start) ∧
        all.map (fun found => (found.start, found.stop)) = [(7, 13), (13, 18)] := by
  have hCut : Text.splitAtByte? (text "z:x[0] :a[é]:b{k} c:d[2]") 1 =
      some (['z'], text ":x[0] :a[é]:b{k} c:d[2]") := by decide
  have hPlaces : (locateAll 1 (findAll (some 'z') (text ":x[0] :a[é]:b{k} c:d[2]"))).map
      (fun found => (found.start, found.stop)) = [(7, 13), (13, 18)] := by cbv
  obtain ⟨-, -, -, hSearches, hOrdered⟩ := locate?_first hCut
  have hAll := (hSearches _).2 rfl
  exact ⟨hCut, _, hAll, (hOrdered _ hAll).2, hPlaces⟩

end InlineDirective

end DirectiveMarkdown
