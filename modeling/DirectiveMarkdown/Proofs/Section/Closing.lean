import DirectiveMarkdown.Proofs.Directive.Parts
import DirectiveMarkdown.Proofs.Section.Conservation
import DirectiveMarkdown.Proofs.Section.Within

/-! Closing lines against the rule that they close the innermost open container that was opened with
no more colons, with all that is open inside it. Only the innermost container is looked at, so a
closing line that is too short for it stays in the Markdown, even if it would close a container
around it. The division is the one by the rule exactly for the sources in which this never happens. -/
namespace DirectiveMarkdown

/-- A line that holds a directive is not white space alone. -/
theorem BlockLine.not_isBlankText_of_read? {line : Text} {directive : BlockLine}
    (h : BlockLine.read? line = some directive) : Text.isBlankText line = false := by
  cases hBlank : Text.isBlankText line with
  | false => rfl
  | true =>
      have hColons : ((Text.trimEnd (line.drop (line.takeWhile (· == ' ')).length)).takeWhile
          (· == ':')) = [] := by
        rw [List.eq_nil_iff_forall_not_mem]
        intro c hMem
        have hColon : c = ':' := by simpa using List.all_eq_true.1 List.all_takeWhile c hMem
        have hLine : c ∈ line := (List.drop_sublist _ _).mem
          ((trimEnd_sublist _).mem ((List.takeWhile_sublist _).mem hMem))
        have hIsBlank := List.all_eq_true.1 hBlank c hLine
        rw [hColon] at hIsBlank
        cases hIsBlank
      unfold read? at h
      simp only [hColons] at h
      split at h <;> cases h

/-- A run of Markdown with one more line is not this run and a mark after it. -/
theorem Piece.ofRun_append_ne {line : Text} (hLine : Text.isBlankText line = false)
    (run more : Text) (mark : Mark) (others following : List Piece) :
    ofRun (run ++ (line ++ more)) ++ others ≠ ofRun run ++ .mark mark :: following := by
  have hLonger : Text.isBlankText (run ++ (line ++ more)) = false := by
    rw [Text.isBlankText] at hLine ⊢
    simp [hLine]
  have hLine' : line ≠ [] := by
    rintro rfl
    cases hLine
  unfold ofRun
  rw [hLonger]
  cases Text.isBlankText run with
  | true => simp
  | false => simp [hLine']

namespace Reading

/-- What has been read is kept, and the pending Markdown goes into the next run. -/
theorem exists_finish_foldl_next (reading : Reading) (lines : List (Option Mark × Text)) :
    ∃ more others, (lines.foldl next reading).finish =
      reading.pieces ++ (Piece.ofRun (reading.pending ++ more) ++ others) := by
  induction lines generalizing reading with
  | nil => exact ⟨[], [], by simp [finish]⟩
  | cons entry rest ih =>
      obtain ⟨_ | mark, line⟩ := entry
      · obtain ⟨more, others, hRest⟩ := ih (reading.next (none, line))
        refine ⟨line ++ more, others, ?_⟩
        rw [List.foldl_cons, hRest, ← List.append_assoc reading.pending]
        rfl
      · obtain ⟨more, others, hRest⟩ := ih (reading.next (some mark, line))
        refine ⟨[], .mark mark :: (Piece.ofRun more ++ others), ?_⟩
        rw [List.foldl_cons, hRest]
        simp [next]

/-- Reading a line never takes back what was read before. -/
theorem exists_pieces_next (reading : Reading) (entry : Option Mark × Text) :
    ∃ more, (reading.next entry).pieces = reading.pieces ++ more := by
  obtain ⟨_ | mark, line⟩ := entry
  · exact ⟨[], (List.append_nil _).symm⟩
  · exact ⟨_, List.append_assoc ..⟩

end Reading

namespace OpenSections

def colons (state : OpenSections) : List Nat := opened state.top state.outer

/-- Closes the innermost container that was opened with no more colons, and before it all that are
open inside it. -/
def closeThrough? (colons : Nat) (top : OpenSection) : List OpenSection → Option OpenSections
  | [] => none
  | parent :: outer =>
    let closed := { parent with content := top.close :: parent.content }
    if top.colons ≤ colons then some ⟨closed, outer⟩ else closeThrough? colons closed outer

/-- Takes a line by the rule for closing lines. One that closes nothing is Markdown. -/
def nextMatching (state : OpenSections) (entry : Option BlockLine × Text) : OpenSections :=
  match entry.1 with
  | some (.closing colons) =>
    (closeThrough? colons state.top state.outer).getD (state.addLine entry.2)
  | _ => state.next entry

/-- Of the open containers the innermost is closed first: it was opened with no more colons than the
closing line has, if any of them was. -/
def ClosesInnermost (state : OpenSections) (closing : Nat) : Prop :=
  (∃ n ∈ state.colons, n ≤ closing) → ∃ n ∈ state.colons.head?, n ≤ closing

theorem opened_cons (top parent : OpenSection) (outer : List OpenSection) (content : List Section) :
    opened top (parent :: outer) = top.colons :: opened { parent with content } outer :=
  congrArg (top.colons :: ·) (opened_congr (by rfl) outer)

/-- A closing line closes something exactly if some open container has no more colons. -/
theorem closeThrough?_isSome_iff {closing : Nat} {top : OpenSection} {outer : List OpenSection} :
    (closeThrough? closing top outer).isSome ↔ ∃ n ∈ opened top outer, n ≤ closing := by
  induction outer generalizing top with
  | nil => simp [closeThrough?, opened]
  | cons parent outer ih =>
      rw [closeThrough?, opened_cons top parent outer (top.close :: parent.content)]
      by_cases hTop : top.colons ≤ closing
      · simp [hTop]
      · simp only [hTop, if_false, ih, List.mem_cons, exists_eq_or_imp, false_or]

/-- What stays open by the rule are the containers around the one that is closed last. -/
theorem colons_of_closeThrough? {closing : Nat} {top : OpenSection} {outer : List OpenSection}
    {closed : OpenSections} (h : closeThrough? closing top outer = some closed) :
    closed.colons = ((opened top outer).dropWhile (closing < ·)).tail := by
  induction outer generalizing top with
  | nil => cases h
  | cons parent outer ih =>
      rw [closeThrough?] at h
      rw [opened_cons top parent outer (top.close :: parent.content)]
      split at h
      · next hTop =>
          cases h
          simp [colons, hTop]
      · next hTop =>
          rw [List.dropWhile_cons_of_pos (by simpa using hTop)]
          exact ih h

/-- What the rule closes is read as the pending Markdown and one closing after the other. -/
theorem Settled.closeThrough? {closing : Nat} {top : OpenSection} {outer : List OpenSection}
    {closed : OpenSections} (h : Settled ⟨top, outer⟩)
    (hClosed : OpenSections.closeThrough? closing top outer = some closed) :
    closed.Settled ∧ ∃ closings, closed.reading.pieces =
      (reading ⟨top, outer⟩).pieces ++ (Piece.ofRun top.pending ++ .mark .closing :: closings) := by
  induction outer generalizing top with
  | nil => cases hClosed
  | cons parent outer ih =>
      have hReading := reading_close h
      rw [OpenSections.closeThrough?] at hClosed
      split at hClosed
      · cases hClosed
        refine ⟨h.close, [], ?_⟩
        rw [hReading, ← List.append_assoc]
        rfl
      · obtain ⟨hSettled, closings, hPieces⟩ := ih h.close hClosed
        refine ⟨hSettled, .mark .closing :: closings, ?_⟩
        have hPending := h.pending parent (List.mem_cons_self ..)
        rw [hPieces, hReading]
        simp [Reading.next, reading, hPending]

variable {state : OpenSections}

/-- A closing line is Markdown by the rule exactly if every open container has more colons. -/
theorem nextMatching_eq_addLine_iff (state : OpenSections) (closing : Nat) (line : Text) :
    state.nextMatching (some (.closing closing), line) = state.addLine line ↔
      ¬ ∃ n ∈ state.colons, n ≤ closing := by
  rw [colons, ← closeThrough?_isSome_iff, Option.not_isSome_iff_eq_none]
  cases hClosed : closeThrough? closing state.top state.outer with
  | none => simp [nextMatching, hClosed]
  | some closed =>
      obtain ⟨n, hMem, -⟩ := closeThrough?_isSome_iff.1 (Option.isSome_of_eq_some hClosed)
      refine iff_of_false (fun hSame => ?_) (by simp)
      have hAdded : closed = state.addLine line := by simpa [nextMatching, hClosed] using hSame
      have hColons : closed.colons = opened state.top state.outer := by
        rw [hAdded]
        exact opened_congr (by rfl) _
      have hLength := congrArg List.length ((colons_of_closeThrough? hClosed).symm.trans hColons)
      have hLe : ((opened state.top state.outer).dropWhile (closing < ·)).length ≤
          (opened state.top state.outer).length := (List.dropWhile_sublist _).length_le
      have hPos := List.length_pos_of_mem hMem
      rw [List.length_tail] at hLength
      omega

/-- By the rule the innermost container with no more colons is closed, with all inside it. -/
theorem colons_nextMatching {closing : Nat} (h : ∃ n ∈ state.colons, n ≤ closing) (line : Text) :
    (state.nextMatching (some (.closing closing), line)).colons =
      (state.colons.dropWhile (closing < ·)).tail := by
  obtain ⟨closed, hClosed⟩ := Option.isSome_iff_exists.1 (closeThrough?_isSome_iff.2 h)
  have hMatching : state.nextMatching (some (.closing closing), line) = closed := by
    simp [nextMatching, hClosed]
  rw [hMatching]
  exact colons_of_closeThrough? hClosed

/-- Where the innermost container is the one to be closed, the rule is followed. -/
theorem next_eq_nextMatching {closing : Nat} (h : state.ClosesInnermost closing) (line : Text) :
    state.next (some (.closing closing), line) = state.nextMatching (some (.closing closing), line) := by
  obtain ⟨top, _ | ⟨parent, outer⟩⟩ := state
  · simp [next, nextMatching, closeThrough?]
  · by_cases hTop : top.colons ≤ closing
    · simp [next, nextMatching, closeThrough?, closeTop, hTop]
    · have hNone : closeThrough? closing top (parent :: outer) = none := by
        rw [← Option.not_isSome_iff_eq_none, closeThrough?_isSome_iff]
        intro hFits
        obtain ⟨n, hHead, hLe⟩ := h hFits
        cases hHead
        exact hTop hLe
      simp [next, nextMatching, hNone, hTop]

/-- Where another container than the innermost would have to be closed first, the line becomes
Markdown. -/
theorem next_of_not_closesInnermost {closing : Nat} (h : ¬ state.ClosesInnermost closing)
    (line : Text) :
    state.next (some (.closing closing), line) = state.addLine line ∧
      ∃ closed, closeThrough? closing state.top state.outer = some closed := by
  obtain ⟨hFits, hHead⟩ := Classical.not_imp.1 h
  constructor
  · obtain ⟨top, _ | ⟨parent, outer⟩⟩ := state
    · rfl
    · have hTop : ¬ top.colons ≤ closing := by simpa [colons, opened] using hHead
      simp [next, hTop]
  · exact Option.isSome_iff_exists.1 (closeThrough?_isSome_iff.2 hFits)

/-- At a closing line the rule says the same exactly if it closes the innermost container first. -/
theorem next_eq_nextMatching_iff (state : OpenSections) (closing : Nat) (line : Text) :
    state.next (some (.closing closing), line) = state.nextMatching (some (.closing closing), line) ↔
      state.ClosesInnermost closing := by
  refine ⟨fun hSame => ?_, fun h => next_eq_nextMatching h line⟩
  refine Classical.byContradiction fun hOther => ?_
  rw [(next_of_not_closesInnermost hOther line).1] at hSame
  exact (nextMatching_eq_addLine_iff state closing line).1 hSame.symm (Classical.not_imp.1 hOther).1

/-- By the rule too, what has been read is kept. -/
theorem Settled.nextMatching (h : state.Settled) (entry : Option BlockLine × Text) :
    (state.nextMatching entry).Settled ∧
      ∃ more, (state.nextMatching entry).reading.pieces = state.reading.pieces ++ more := by
  have hNext := h.next entry
  have hKept : (state.next entry).Settled ∧
      ∃ more, (state.next entry).reading.pieces = state.reading.pieces ++ more := by
    refine ⟨hNext.1, ?_⟩
    rw [hNext.2.2]
    exact Reading.exists_pieces_next ..
  unfold OpenSections.nextMatching
  split
  · next closing hClosing =>
      obtain ⟨top, outer⟩ := state
      cases hClosed : OpenSections.closeThrough? closing top outer with
      | none => exact ⟨h.addLine entry.2, [], by simp [reading_addLine, Reading.next]⟩
      | some closed =>
          obtain ⟨hSettled, closings, hPieces⟩ := h.closeThrough? hClosed
          exact ⟨hSettled, _, hPieces⟩
  · exact hKept

/-- Dividing by the rule keeps what was read, and reads on behind it. -/
theorem Settled.foldl_nextMatching (h : state.Settled) (entries : List (Option BlockLine × Text)) :
    (entries.foldl OpenSections.nextMatching state).Settled ∧
      ∃ more, (entries.foldl OpenSections.nextMatching state).reading.pieces =
        state.reading.pieces ++ more := by
  induction entries generalizing state with
  | nil => exact ⟨h, [], by simp⟩
  | cons entry rest ih =>
      obtain ⟨hNext, more, hPieces⟩ := h.nextMatching entry
      obtain ⟨hSettled, others, hRest⟩ := ih hNext
      refine ⟨hSettled, more ++ others, ?_⟩
      rw [List.foldl_cons, hRest, hPieces, List.append_assoc]

/-- A line that is taken as Markdown is in the run that is pending. -/
theorem Settled.exists_pieces_of_addLine (h : state.Settled) (line : Text)
    (rest : List (Option BlockLine × Text)) :
    ∃ more others, Section.piecesAll (rest.foldl OpenSections.next (state.addLine line)).finish =
      state.reading.pieces ++ (Piece.ofRun (state.top.pending ++ (line ++ more)) ++ others) := by
  obtain ⟨hSettled, hReading⟩ := (h.addLine line).foldl_next rest
  obtain ⟨more, others, hFinish⟩ := Reading.exists_finish_foldl_next (state.addLine line).reading
    (markLines (opened (state.addLine line).top (state.addLine line).outer) rest)
  have hPieces := hSettled.finish.2
  rw [hReading, hFinish, reading_addLine] at hPieces
  simp only [Reading.next, List.append_assoc] at hPieces
  exact ⟨more, _, hPieces⟩

/-- A line that closes containers ends the run that is pending. -/
theorem Settled.exists_pieces_of_closeThrough? (h : state.Settled) {closing : Nat}
    {closed : OpenSections}
    (hClosed : OpenSections.closeThrough? closing state.top state.outer = some closed)
    (rest : List (Option BlockLine × Text)) :
    ∃ others, Section.piecesAll (rest.foldl OpenSections.nextMatching closed).finish =
      state.reading.pieces ++ (Piece.ofRun state.top.pending ++ .mark .closing :: others) := by
  obtain ⟨hSettledClosed, closings, hClosings⟩ := h.closeThrough? hClosed
  obtain ⟨hSettled, more, hMore⟩ := hSettledClosed.foldl_nextMatching rest
  have hPieces := hSettled.finish.2
  rw [Reading.finish, hMore, hClosings] at hPieces
  simp only [List.append_assoc, List.cons_append] at hPieces
  exact ⟨_, hPieces⟩

/-- After a closing line at which the rule says something else, no further lines lead to the same
sections: there is Markdown with the line on one side and a closing in its place on the other. -/
theorem Settled.finish_ne (h : state.Settled) {closing : Nat} {line : Text}
    (hLine : Text.isBlankText line = false) (hClosing : ¬ state.ClosesInnermost closing)
    (rest : List (Option BlockLine × Text)) :
    (rest.foldl OpenSections.next (state.next (some (.closing closing), line))).finish ≠
      (rest.foldl OpenSections.nextMatching
        (state.nextMatching (some (.closing closing), line))).finish := by
  obtain ⟨hNext, closed, hClosed⟩ := next_of_not_closesInnermost hClosing line
  have hMatching : state.nextMatching (some (.closing closing), line) = closed := by
    simp [OpenSections.nextMatching, hClosed]
  obtain ⟨more, others, hLineKept⟩ := h.exists_pieces_of_addLine line rest
  obtain ⟨following, hLineCloses⟩ := h.exists_pieces_of_closeThrough? hClosed rest
  rw [hNext, hMatching]
  intro hSame
  rw [hSame, hLineCloses] at hLineKept
  exact Piece.ofRun_append_ne hLine _ _ _ _ _ (List.append_cancel_left hLineKept).symm

/-- At every closing line the rule closes the innermost container first. -/
def AlwaysClosesInnermost (state : OpenSections) (entries : List (Option BlockLine × Text)) : Prop :=
  ∀ before closing line after, entries = before ++ (some (.closing closing), line) :: after →
    (before.foldl next state).ClosesInnermost closing

theorem alwaysClosesInnermost_cons {entry : Option BlockLine × Text}
    {rest : List (Option BlockLine × Text)} :
    state.AlwaysClosesInnermost (entry :: rest) ↔
      (∀ closing, entry.1 = some (.closing closing) → state.ClosesInnermost closing) ∧
        (state.next entry).AlwaysClosesInnermost rest := by
  constructor
  · intro h
    refine ⟨fun closing hEntry => ?_, fun before closing line after hRest => ?_⟩
    · exact h [] closing entry.2 rest (by rw [← hEntry]; rfl)
    · exact h (entry :: before) closing line after (congrArg (entry :: ·) hRest)
  · rintro ⟨hEntry, hRest⟩ before closing line after hEntries
    rcases List.cons_eq_append_iff.1 hEntries with ⟨rfl, hHead⟩ | ⟨before, rfl, hTail⟩
    · cases hHead
      exact hEntry closing rfl
    · exact hRest before closing line after hTail

/-- Lines are divided by the rule exactly if at every closing line it closes the innermost container
first. -/
theorem Settled.finish_eq_iff (h : state.Settled) {entries : List (Option BlockLine × Text)}
    (hEntries : ∀ entry ∈ entries, entry.1.isSome → Text.isBlankText entry.2 = false) :
    (entries.foldl OpenSections.next state).finish =
        (entries.foldl OpenSections.nextMatching state).finish ↔
      state.AlwaysClosesInnermost entries := by
  induction entries generalizing state with
  | nil => simp [AlwaysClosesInnermost]
  | cons entry rest ih =>
      rw [alwaysClosesInnermost_cons, List.foldl_cons, List.foldl_cons]
      by_cases hEntry : ∀ closing, entry.1 = some (.closing closing) → state.ClosesInnermost closing
      · have hSame : state.next entry = state.nextMatching entry := by
          obtain ⟨_ | (_ | _ | closing), line⟩ := entry
          · rfl
          · rfl
          · rfl
          · exact next_eq_nextMatching (hEntry closing rfl) line
        rw [← hSame, ih (h.next entry).1 fun other hMem => hEntries other (List.mem_cons_of_mem _ hMem)]
        exact (and_iff_right hEntry).symm
      · refine iff_of_false ?_ fun hAll => hEntry hAll.1
        obtain ⟨directive, line⟩ := entry
        simp only [Classical.not_forall] at hEntry
        obtain ⟨closing, rfl, hOther⟩ := hEntry
        exact h.finish_ne (hEntries _ (List.mem_cons_self ..) rfl) hOther rest

end OpenSections

/-- A line of a scan that holds a directive is not white space alone. -/
theorem not_isBlankText_of_mem_scanLines {scanner : LineScanner} {lines : List Text}
    {entry : Option BlockLine × Text} (hMem : entry ∈ scanLines scanner lines)
    (hSome : entry.1.isSome) : Text.isBlankText entry.2 = false := by
  obtain ⟨directive, hDirective⟩ := Option.isSome_iff_exists.1 hSome
  exact BlockLine.not_isBlankText_of_read? (read?_of_mem_scanLines hMem hDirective)

namespace Section

/-- Divides a source by the rule for closing lines. -/
def splitMatching (source : Text) : List Section :=
  ((scanLines {} (Text.lines source)).foldl OpenSections.nextMatching ⟨.document, []⟩).finish

/-- By the rule a closing line is Markdown exactly if every open container has more colons, and else
closes the innermost that has not, with all inside it. It does so in fact exactly if of the open
containers the innermost has no more colons, or all have more. A source is divided by the rule
exactly if this is so at each of its closing lines. -/
theorem split_eq_splitMatching_iff (source : Text) :
    (∀ before closing line after,
      scanLines {} (Text.lines source) = before ++ (some (.closing closing), line) :: after →
      let state := before.foldl OpenSections.next ⟨.document, []⟩
      let entry := (some (.closing closing), line)
      (state.nextMatching entry = state.addLine line ↔ ¬ ∃ n ∈ state.colons, n ≤ closing) ∧
        ((∃ n ∈ state.colons, n ≤ closing) →
          (state.nextMatching entry).colons = (state.colons.dropWhile (closing < ·)).tail) ∧
        (state.next entry = state.nextMatching entry ↔ state.ClosesInnermost closing)) ∧
      (split source = splitMatching source ↔
        OpenSections.AlwaysClosesInnermost ⟨.document, []⟩ (scanLines {} (Text.lines source))) := by
  have hDocument : OpenSections.Settled ⟨.document, []⟩ :=
    ⟨⟨trivial, rfl⟩, List.forall_mem_nil _, List.forall_mem_nil _⟩
  constructor
  · intro before closing line after _ state entry
    refine ⟨state.nextMatching_eq_addLine_iff closing line, fun hFits => ?_, ?_⟩
    · exact OpenSections.colons_nextMatching hFits line
    · exact state.next_eq_nextMatching_iff closing line
  · exact hDocument.finish_eq_iff fun entry hMem => not_isBlankText_of_mem_scanLines hMem

/-- A closing line that is too short for the innermost container, but not for the one around it. -/
theorem split_ne_splitMatching_nested : ¬ ∀ source, split source = splitMatching source := by
  intro hAll
  have hLength := congrArg List.length (hAll ":::a\n::::b\nx\n:::\ny\n".toList)
  revert hLength
  decide

end Section

end DirectiveMarkdown
