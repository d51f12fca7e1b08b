import DirectiveMarkdown.Document.Expansion
import DirectiveMarkdown.Proofs.Directive.Search
import DirectiveMarkdown.Proofs.Directive.Slices

/-! The search for directives in running text by byte offsets. It goes from colon to colon, and from the
end of a directive to the next one, and cuts the text at each of these places. -/
namespace DirectiveMarkdown

open Text

namespace InlineDirective

/-- The directive that starts with the colon at an offset, if there is one. -/
def candidateBytes (s : Text) (start : Nat) : Except Panic (Option Located) := do
  let before ← sliceTo s start
  if mayFollow before.getLast? then
    let rest ← sliceFrom s (start + 1)
    if (rest.head?.map Char.isAlpha).getD false then
      let read ← directiveBodyBytes rest
      return read.bind fun read =>
        if width read.1.name < read.2 then some ⟨read.1, start, start + 1 + read.2⟩ else none
    else return none
  else return none

/-- At a colon the byte offsets lead to the directive that the character reader finds there. -/
theorem candidateBytes_eq (before rest : Text) :
    candidateBytes (before ++ ':' :: rest) (width before) =
      .ok ((if mayFollow before.getLast? then readAt? rest else none).map fun read =>
        ⟨read.1, width before, width before + width (':' :: read.2.1)⟩) := by
  have hFrom := sliceFrom_width (before ++ [':']) rest
  have hColon : width (before ++ [':']) = width before + 1 := width_append ..
  rw [hColon, List.append_assoc, List.singleton_append] at hFrom
  rw [candidateBytes, sliceTo_width, Panic.ok_bind, hFrom, Panic.ok_bind, readAt?]
  split
  · split
    · obtain ⟨hNone, hBytes⟩ | ⟨body, pieces, after, hSome, hText, hBytes⟩ :=
        exists_directiveBodyBytes rest
      · rw [hNone, hBytes]
        rfl
      · rw [hSome, hBytes, Panic.ok_bind, Option.bind_some, Option.bind_some]
        dsimp only
        cases pieces with
        | nil => rw [if_neg (by simp), if_neg (by simp)]; rfl
        | cons c pieces =>
            have hWritten : rest.take (rest.length - after.length) = body.name ++ c :: pieces := by
              rw [hText, ← List.append_assoc, List.length_append, Nat.add_sub_cancel]
              exact List.take_left
            have hColons : width before + 1 + (width body.name + width (c :: pieces)) =
                width before + width (':' :: (body.name ++ c :: pieces)) := by
              rw [width_cons ':', width_append, Nat.add_assoc]
              rfl
            have hName : width body.name < width body.name + width (c :: pieces) := by
              have hSize := c.utf8Size_pos
              rw [width_cons]
              omega
            rw [if_pos hName, if_pos (by simp), hWritten, hColons]
            rfl
    · rfl
  · rfl

/-- The search goes on behind its offset. -/
theorem lt_of_sliceFrom {s rest : Text} {search offset : Nat} (hRest : sliceFrom s search = .ok rest)
    (hOffset : offsetOf? (· == ':') rest = some offset) : search + offset < width s := by
  rw [sliceFrom] at hRest
  split at hRest
  · next cut hCut =>
      cases hRest
      obtain ⟨rfl, rfl⟩ := eq_of_splitAtByte? hCut
      obtain ⟨before, c, after, hText, rfl, -⟩ := exists_of_offsetOf? hOffset
      have hSize := c.utf8Size_pos
      rw [hText, width_append, width_append, width_cons]
      omega
  · cases hRest

def findBytes (s : Text) (search : Nat) : Except Panic (Option Located) :=
  match hRest : sliceFrom s search with
  | .error panic => .error panic
  | .ok rest =>
    match hOffset : offsetOf? (· == ':') rest with
    | none => .ok none
    | some offset => do
      have := lt_of_sliceFrom hRest hOffset
      match ← candidateBytes s (search + offset) with
      | some located => return some located
      | none => findBytes s (search + offset + 1)
termination_by width s - search

/-- Text without a colon is passed over by the search. -/
theorem find?_append {passed : Text} (hPassed : ':' ∉ passed) (previous : Option Char) (rest : Text) :
    find? previous (passed ++ rest) =
      (find? (passed.getLast?.or previous) rest).map fun found =>
        { found with before := passed ++ found.before } := by
  induction passed generalizing previous with
  | nil => simp
  | cons c passed ih =>
      rw [List.mem_cons, not_or] at hPassed
      rw [List.cons_append, find?, if_neg (by simp [Ne.symm hPassed.1]), ih hPassed.2, Option.map_map,
        getLast?_cons_or]
      rfl

/-- What comes before the text that is searched only moves the places. -/
theorem locate_append (offset : Nat) (passed : Text) (found : InlineDirective) :
    locate offset { found with before := passed ++ found.before } =
      locate (offset + width passed) found := by
  simp [locate, Nat.add_assoc]

/-- The search goes to the next colon and, if no directive starts there, behind it. -/
theorem findBytes_colon {before passed : Text} (hPassed : ':' ∉ passed) (after : Text) :
    findBytes (before ++ (passed ++ ':' :: after)) (width before) =
      match if mayFollow (before ++ passed).getLast? then readAt? after else none with
      | some read => .ok (some ⟨read.1, width (before ++ passed),
          width (before ++ passed) + width (':' :: read.2.1)⟩)
      | none => findBytes (before ++ passed ++ [':'] ++ after) (width (before ++ passed ++ [':'])) := by
  have hOffset : offsetOf? (· == ':') (passed ++ ':' :: after) = some (width passed) :=
    offsetOf?_append (fun d hMem => beq_eq_false_iff_ne.2 (ne_of_mem_of_not_mem hMem hPassed)) rfl after
  have hText : before ++ (passed ++ ':' :: after) = before ++ passed ++ ':' :: after := by simp
  have hStart : width (before ++ passed ++ [':']) = width (before ++ passed) + 1 := width_append ..
  rw [findBytes]
  split
  · next hRest => rw [sliceFrom_width] at hRest; cases hRest
  · next hRest =>
      rw [sliceFrom_width] at hRest
      cases hRest
      split
      · next hNone => rw [hOffset] at hNone; cases hNone
      · next hSome =>
          rw [hOffset] at hSome
          cases hSome
          dsimp only
          rw [hText, ← width_append, candidateBytes_eq, Panic.ok_bind, hStart, List.append_assoc _ [':']]
          cases if mayFollow (before ++ passed).getLast? = true then readAt? after else none <;> rfl

theorem findBytes_of_not_mem {rest : Text} (h : ':' ∉ rest) (before : Text) :
    findBytes (before ++ rest) (width before) = .ok none := by
  rw [findBytes]
  split
  · next hRest => rw [sliceFrom_width] at hRest; cases hRest
  · next hRest =>
      rw [sliceFrom_width] at hRest
      cases hRest
      split
      · rfl
      · next hSome =>
          obtain ⟨passed, c, after, rfl, -, hColon, -⟩ := exists_of_offsetOf? hSome
          rw [eq_of_beq hColon] at h
          simp at h

/-- From an offset at which the text can be cut, the search finds the directive that is found in the text
behind the offset. A colon at which no directive starts becomes the character before the rest. -/
theorem findBytes_eq (before rest : Text) :
    findBytes (before ++ rest) (width before) =
      .ok ((find? before.getLast? rest).map (locate (width before))) := by
  induction hLength : rest.length using Nat.strong_induction_on generalizing before rest with
  | _ length ih =>
      by_cases hColon : ':' ∈ rest
      · obtain ⟨passed, after, rfl, hPassed⟩ := List.eq_append_cons_of_mem hColon
        have hShorter : after.length < length := by
          rw [← hLength, List.length_append, List.length_cons]
          omega
        rw [findBytes_colon hPassed, find?_append hPassed, ← List.getLast?_append, find?]
        simp only [true_and]
        cases if mayFollow (before ++ passed).getLast? = true then readAt? after else none with
        | some read => simp [locate]
        | none =>
            have hMore := ih after.length hShorter (before ++ passed ++ [':']) after rfl
            rw [List.getLast?_append] at hMore
            dsimp only
            rw [hMore, Option.map_map, Option.map_map]
            refine congrArg (fun place => Except.ok (Option.map place _)) (funext fun found => ?_)
            have hPlace := locate_append (width before) (passed ++ [':']) found
            rw [← width_append, ← List.append_assoc, List.append_assoc passed] at hPlace
            exact hPlace.symm
      · have hFind := find?_append hColon before.getLast? []
        rw [List.append_nil] at hFind
        rw [findBytes_of_not_mem hColon, hFind]
        rfl

/-- A directive that is found takes up some of the text behind the offset. -/
theorem lt_of_findBytes {s : Text} {cursor : Nat} {located : Located}
    (h : findBytes s cursor = .ok (some located)) :
    cursor < located.stop ∧ located.stop ≤ width s := by
  cases hCut : splitAtByte? s cursor with
  | none =>
      rw [findBytes] at h
      split at h
      · cases h
      · next hRest =>
          rw [sliceFrom, hCut] at hRest
          cases hRest
  | some cut =>
      obtain ⟨before, rest⟩ := cut
      obtain ⟨rfl, rfl⟩ := eq_of_splitAtByte? hCut
      rw [findBytes_eq] at h
      obtain ⟨found, hFound, rfl⟩ := Option.map_eq_some_iff.1 (Except.ok.inj h)
      have hLocate := locate?_of_cut hCut
      rw [hFound, Option.map_some] at hLocate
      obtain ⟨hLeast, hLess⟩ := lt_of_locate? hLocate
      obtain ⟨hText, hStop⟩ := eq_of_splitAtByte? (splitAtByte?_locate hCut hFound).2
      refine ⟨by omega, ?_⟩
      rw [hText, width_append, hStop]
      exact Nat.le_add_right ..

end InlineDirective

open InlineDirective

/-- The text between two offsets as a node, unless they are the same. -/
def pieceBytes (s : Text) (start stop : Nat) : Except Panic (List Node) :=
  if start < stop then do
    let piece ← sliceBetween s start stop
    return [.ofText piece]
  else return []

def tailBytes (s : Text) (start : Nat) : Except Panic (List Node) :=
  if start < width s then do
    let rest ← sliceFrom s start
    return [.ofText rest]
  else return []

/-- The nodes for the text behind an offset: directives, and the text between them. -/
def splitTextBytes (label : Text → List Node) (s : Text) (cursor : Nat) :
    Except Panic (List Node) :=
  match h : findBytes s cursor with
  | .error panic => .error panic
  | .ok none => tailBytes s cursor
  | .ok (some located) => do
    have := lt_of_findBytes h
    let piece ← pieceBytes s cursor located.start
    let more ← splitTextBytes label s located.stop
    return piece ++ directiveNode label located.body :: more
termination_by width s - cursor

theorem pieceBytes_eq (before piece after : Text) :
    pieceBytes (before ++ piece ++ after) (width before) (width before + width piece) =
      .ok (textPiece piece) := by
  rw [pieceBytes, sliceBetween_width]
  cases piece with
  | nil => exact if_neg (Nat.lt_irrefl _)
  | cons c piece => exact if_pos (Nat.lt_add_of_pos_right (width_pos_iff.2 (List.cons_ne_nil c piece)))

theorem tailBytes_eq (before rest : Text) :
    tailBytes (before ++ rest) (width before) = .ok (textPiece rest) := by
  rw [tailBytes, sliceFrom_width, width_append]
  cases rest with
  | nil => exact if_neg (Nat.lt_irrefl _)
  | cons c rest => exact if_pos (Nat.lt_add_of_pos_right (width_pos_iff.2 (List.cons_ne_nil c rest)))

/-- A text without directives is one node. -/
theorem splitTextBytes_of_none {label : Text → List Node} {before rest : Text}
    (h : find? before.getLast? rest = none) :
    splitTextBytes label (before ++ rest) (width before) = .ok (textPiece rest) := by
  rw [splitTextBytes]
  split
  · next hFind => rw [findBytes_eq, h] at hFind; cases hFind
  · exact tailBytes_eq before rest
  · next hFind => rw [findBytes_eq, h] at hFind; cases hFind

/-- A text is divided around its first directive, and then behind it. -/
theorem splitTextBytes_of_some {label : Text → List Node} {before rest : Text}
    {found : InlineDirective} (h : find? before.getLast? rest = some found) :
    splitTextBytes label (before ++ rest) (width before) =
      (splitTextBytes label (before ++ found.before ++ found.written ++ found.after)
        (width (before ++ found.before ++ found.written)) >>= fun more =>
          .ok (textPiece found.before ++ directiveNode label found.body :: more)) := by
  obtain ⟨written, hWritten, hRest, -⟩ := exists_of_find? h
  have hText : before ++ rest = before ++ found.before ++ found.written ++ found.after := by
    simp [hRest, hWritten]
  have hStop : (locate (width before) found).stop =
      width (before ++ found.before ++ found.written) := by
    rw [width_append, width_append]
    rfl
  rw [splitTextBytes]
  split
  · next hFind => rw [findBytes_eq, h] at hFind; cases hFind
  · next hFind => rw [findBytes_eq, h] at hFind; cases hFind
  · next hFind =>
      rw [findBytes_eq, h] at hFind
      cases hFind
      dsimp only
      have hPiece := pieceBytes_eq before found.before (found.written ++ found.after)
      rw [← List.append_assoc, ← hText] at hPiece
      rw [locate] at hStop ⊢
      dsimp only at hStop ⊢
      rw [hPiece, hStop, ← hText]
      rfl

/-- The pieces of the text behind an offset at which it can be cut. -/
theorem splitTextBytes_eq (label : Text → List Node) (before rest : Text) {fuel : Nat}
    (hFuel : rest.length ≤ fuel) :
    splitTextBytes label (before ++ rest) (width before) =
      .ok (splitTextUpTo label fuel before.getLast? rest) := by
  induction fuel generalizing before rest with
  | zero =>
      obtain rfl := List.length_eq_zero_iff.1 (Nat.le_zero.1 hFuel)
      exact splitTextBytes_of_none rfl
  | succ fuel ih =>
      rw [splitTextUpTo]
      cases hFind : find? before.getLast? rest with
      | none => exact splitTextBytes_of_none hFind
      | some found =>
          obtain ⟨written, hWritten, -⟩ := exists_of_find? hFind
          have hShorter := length_after_lt hFind
          have hLast : (before ++ found.before ++ found.written).getLast? = found.written.getLast? := by
            rw [List.getLast?_append, hWritten]
            simp [List.getLast?_cons]
          rw [splitTextBytes_of_some hFind, ih _ found.after (by omega), hLast]
          rfl

end DirectiveMarkdown
