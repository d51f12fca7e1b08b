import DirectiveMarkdown.Proofs.Section.Scanner

/-! What the division of a source keeps. Every line either is Markdown or has a mark that says what
it does to the containers that are open. The sections, read in document order, are the runs of
Markdown between the marks, those of white space alone apart, and the marks themselves. -/
namespace DirectiveMarkdown

/-- What a line is that is not Markdown: a leaf, or the opening or closing of a container. -/
inductive Mark where
  | leaf (directive : DirectiveBody)
  | opening (directive : DirectiveBody)
  | closing

namespace Mark

/-- The mark of a line, and the containers that are open after it. A container is given by the
colons that opened it, the innermost first. A closing line has no mark if no container is open or
if the innermost was opened with more colons. -/
def next (opened : List Nat) : Option BlockLine → Option Mark × List Nat
  | some (.leaf directive) => (some (.leaf directive), opened)
  | some (.opening colons directive) => (some (.opening directive), colons :: opened)
  | some (.closing colons) =>
    match opened with
    | [] => (none, [])
    | innermost :: outer =>
      if innermost ≤ colons then (some .closing, outer) else (none, innermost :: outer)
  | none => (none, opened)

def isClosing : Mark → Bool
  | closing => true
  | leaf _ | opening _ => false

end Mark

/-- Lines with their marks, given the containers that are open before them. -/
def markLines (opened : List Nat) : List (Option BlockLine × Text) → List (Option Mark × Text)
  | [] => []
  | (directive, line) :: rest =>
    ((Mark.next opened directive).1, line) :: markLines (Mark.next opened directive).2 rest

def markedLines (source : Text) : List (Option Mark × Text) :=
  markLines [] (scanLines {} (Text.lines source))

/-- The Markdown before, between and after the marks. -/
def markdownRuns (lines : List (Option Mark × Text)) : List Text :=
  (lines.splitOnP fun line => line.1.isSome).map fun run => (run.map Prod.snd).flatten

/-- A line of Markdown belongs to the run that comes after it. -/
theorem markdownRuns_cons_none (line : Text) (rest : List (Option Mark × Text)) :
    markdownRuns ((none, line) :: rest) = (markdownRuns rest).modifyHead (line ++ ·) := by
  simp only [markdownRuns, List.splitOnP_cons_eq_if_modifyHead, Option.isSome_none,
    Bool.false_eq_true, if_false]
  cases List.splitOnP (fun line : Option Mark × Text => line.1.isSome) rest <;> simp

theorem markdownRuns_cons_some (mark : Mark) (line : Text) (rest : List (Option Mark × Text)) :
    markdownRuns ((some mark, line) :: rest) = [] :: markdownRuns rest := by
  simp [markdownRuns, List.splitOnP_cons_eq_if_modifyHead]

theorem modifyHead_nil_append (runs : List Text) : runs.modifyHead ([] ++ ·) = runs := by
  cases runs <;> rfl

theorem map_snd_markLines (opened : List Nat) (entries : List (Option BlockLine × Text)) :
    (markLines opened entries).map Prod.snd = entries.map Prod.snd := by
  induction entries generalizing opened with
  | nil => rfl
  | cons entry rest ih => exact congrArg (entry.2 :: ·) (ih _)

/-- A step of reading sections in document order. -/
inductive Piece where
  | markdown (source : Text)
  | mark (line : Mark)

namespace Piece

def markdown? : Piece → Option Text
  | markdown source => some source
  | mark _ => none

def mark? : Piece → Option Mark
  | markdown _ => none
  | mark line => some line

/-- A run of Markdown as it is kept: not at all if it is white space alone. -/
def ofRun (run : Text) : List Piece := if Text.isBlankText run then [] else [markdown run]

@[simp] theorem ofRun_nil : ofRun [] = [] := rfl

/-- A run is kept unless it is white space alone. -/
theorem filterMap_markdown?_ofRun (run : Text) :
    (ofRun run).filterMap markdown? = [run].filter fun run => !Text.isBlankText run := by
  cases h : Text.isBlankText run <;> simp [ofRun, markdown?, h]

theorem filterMap_mark?_ofRun (run : Text) : (ofRun run).filterMap mark? = [] := by
  cases h : Text.isBlankText run <;> simp [ofRun, mark?, h]

end Piece

/-- How far lines with marks have been read: the pieces so far, and the run of Markdown since. -/
structure Reading where
  pieces : List Piece
  pending : Text

namespace Reading

def next (reading : Reading) : Option Mark × Text → Reading
  | (none, line) => { reading with pending := reading.pending ++ line }
  | (some mark, _) => ⟨reading.pieces ++ Piece.ofRun reading.pending ++ [.mark mark], []⟩

/-- All pieces, the last run included. -/
def finish (reading : Reading) : List Piece := reading.pieces ++ Piece.ofRun reading.pending

/-- The Markdown that is read is that of the runs. -/
theorem markdown_foldl_next (reading : Reading) (lines : List (Option Mark × Text)) :
    (lines.foldl next reading).finish.filterMap Piece.markdown? =
      reading.pieces.filterMap Piece.markdown? ++
        ((markdownRuns lines).modifyHead (reading.pending ++ ·)).filter
          fun run => !Text.isBlankText run := by
  induction lines generalizing reading with
  | nil => simp [finish, markdownRuns, Piece.filterMap_markdown?_ofRun]
  | cons entry rest ih =>
      obtain ⟨_ | mark, line⟩ := entry
      · rw [List.foldl_cons, ih, markdownRuns_cons_none, List.modifyHead_modifyHead]
        simp only [next, List.append_assoc, Function.comp_def]
      · have hMark : [Piece.mark mark].filterMap Piece.markdown? = [] := rfl
        rw [List.foldl_cons, ih, markdownRuns_cons_some]
        simp only [next, List.filterMap_append, Piece.filterMap_markdown?_ofRun,
          modifyHead_nil_append]
        rw [hMark, List.append_nil, List.append_assoc, ← List.filter_append]
        simp

/-- The marks that are read are those of the lines. -/
theorem mark_foldl_next (reading : Reading) (lines : List (Option Mark × Text)) :
    (lines.foldl next reading).finish.filterMap Piece.mark? =
      reading.pieces.filterMap Piece.mark? ++ lines.filterMap Prod.fst := by
  induction lines generalizing reading with
  | nil => simp [finish, Piece.filterMap_mark?_ofRun]
  | cons entry rest ih =>
      obtain ⟨_ | mark, line⟩ := entry
      · rw [List.foldl_cons, ih]
        rfl
      · have hMark : [Piece.mark mark].filterMap Piece.mark? = [mark] := rfl
        rw [List.foldl_cons, ih]
        simp [next, Piece.filterMap_mark?_ofRun, hMark]

end Reading

namespace Section

mutual

/-- A section read in document order, with what it contains. -/
def pieces : Section → List Piece
  | .markdown source => [.markdown source]
  | .leaf directive => [.mark (.leaf directive)]
  | .container directive content =>
    .mark (.opening directive) :: (piecesAll content ++ [.mark .closing])

def piecesAll : List Section → List Piece
  | [] => []
  | piece :: rest => piece.pieces ++ piecesAll rest

end

def isMarkdown : Section → Bool
  | .markdown _ => true
  | .leaf _ | .container _ _ => false

mutual

/-- No Markdown in the section is white space alone or follows on other Markdown. -/
def Tidy : Section → Prop
  | .markdown source => Text.isBlankText source = false
  | .leaf _ => True
  | .container _ content => TidyAll content

/-- No Markdown in the sections is white space alone or follows on other Markdown. -/
def TidyAll : List Section → Prop
  | [] => True
  | piece :: rest =>
    piece.Tidy ∧ TidyAll rest ∧ (piece.isMarkdown = true → rest.head?.any isMarkdown = false)

end

@[simp] theorem piecesAll_append (a b : List Section) :
    piecesAll (a ++ b) = piecesAll a ++ piecesAll b := by
  induction a with
  | nil => rfl
  | cons piece rest ih => simp [piecesAll, ih]

/-- The last section is read after the others. -/
theorem piecesAll_reverse_cons (piece : Section) (content : List Section) :
    piecesAll (piece :: content).reverse = piecesAll content.reverse ++ piece.pieces := by
  simp [piecesAll]

/-- One more section at the end is tidy unless it is Markdown after Markdown. -/
theorem tidyAll_reverse_cons (piece : Section) (content : List Section) :
    TidyAll (piece :: content).reverse ↔
      TidyAll content.reverse ∧ piece.Tidy ∧
        (piece.isMarkdown = true → content.head?.any isMarkdown = false) := by
  have hConcat : ∀ before : List Section, TidyAll (before ++ [piece]) ↔
      TidyAll before ∧ piece.Tidy ∧
        (piece.isMarkdown = true → before.getLast?.any isMarkdown = false) := by
    intro before
    induction before with
    | nil => simp [TidyAll]
    | cons first rest ih =>
        cases rest with
        | nil => cases first <;> cases piece <;> simp [TidyAll, isMarkdown]
        | cons second rest =>
            rw [List.cons_append, TidyAll, ih, TidyAll, List.getLast?_cons_cons]
            simp only [List.cons_append, List.head?_cons, Option.any_some]
            constructor
            · rintro ⟨hFirst, ⟨hRest, hPiece, hLast⟩, hAdjacent⟩
              exact ⟨⟨hFirst, hRest, hAdjacent⟩, hPiece, hLast⟩
            · rintro ⟨⟨hFirst, hRest, hAdjacent⟩, hPiece, hLast⟩
              exact ⟨hFirst, ⟨hRest, hPiece, hLast⟩, hAdjacent⟩
  rw [List.reverse_cons, hConcat, List.getLast?_reverse]

end Section

namespace OpenSection

/-- The finished content is tidy and ends in no Markdown, so that more may follow. -/
structure IsTidy (frame : OpenSection) : Prop where
  content : Section.TidyAll frame.content.reverse
  last : frame.content.head?.any Section.isMarkdown = false

theorem pieces_flush (frame : OpenSection) :
    Section.piecesAll frame.flush.content.reverse =
      Section.piecesAll frame.content.reverse ++ Piece.ofRun frame.pending := by
  unfold flush Piece.ofRun
  split
  · simp
  · exact Section.piecesAll_reverse_cons _ _

@[simp] theorem flush_pending (frame : OpenSection) : frame.flush.pending = [] := by
  unfold flush
  split <;> rfl

theorem IsTidy.flush {frame : OpenSection} (h : frame.IsTidy) :
    Section.TidyAll frame.flush.content.reverse := by
  unfold OpenSection.flush
  split
  · exact h.content
  · next hNotBlank =>
      exact (Section.tidyAll_reverse_cons _ _).2
        ⟨h.content, by simpa [Section.Tidy] using hNotBlank, fun _ => h.last⟩

/-- After a directive more Markdown may follow. -/
theorem isTidy_cons {frame : OpenSection} {piece : Section}
    (hContent : Section.TidyAll frame.content.reverse) (hPiece : piece.Tidy)
    (hDirective : piece.isMarkdown = false) :
    IsTidy { frame with content := piece :: frame.content } where
  content := (Section.tidyAll_reverse_cons _ _).2
    ⟨hContent, hPiece, fun h => by rw [hDirective] at h; cases h⟩
  last := hDirective

end OpenSection

namespace OpenSections

/-- What has been read up to the pending Markdown of the innermost container. -/
def trail (top : OpenSection) : List OpenSection → List Piece
  | [] => Section.piecesAll top.content.reverse
  | parent :: outer =>
    trail parent outer ++ .mark (.opening top.directive) :: Section.piecesAll top.content.reverse

/-- The colons of the open containers, innermost first. -/
def opened (top : OpenSection) : List OpenSection → List Nat
  | [] => []
  | parent :: outer => top.colons :: opened parent outer

/-- Only the innermost container has pending Markdown, and all that is finished is tidy. -/
structure Settled (state : OpenSections) : Prop where
  top : state.top.IsTidy
  pending : ∀ frame ∈ state.outer, frame.pending = []
  content : ∀ frame ∈ state.outer, Section.TidyAll frame.content.reverse

theorem trail_cons_content (frame : OpenSection) (piece : Section) (outer : List OpenSection) :
    trail { frame with content := piece :: frame.content } outer =
      trail frame outer ++ piece.pieces := by
  cases outer with
  | nil => exact Section.piecesAll_reverse_cons _ _
  | cons parent outer => simp [trail, Section.piecesAll]

theorem trail_flush (frame : OpenSection) (outer : List OpenSection) :
    trail frame.flush outer = trail frame outer ++ Piece.ofRun frame.pending := by
  have hDirective : frame.flush.directive = frame.directive := by
    unfold OpenSection.flush
    split <;> rfl
  cases outer with
  | nil => exact OpenSection.pieces_flush frame
  | cons parent outer =>
      rw [trail, trail, OpenSection.pieces_flush, hDirective, List.append_assoc, List.cons_append]

/-- Of an open container only its colons count. -/
theorem opened_congr {a b : OpenSection} (h : a.colons = b.colons) (outer : List OpenSection) :
    opened a outer = opened b outer := by
  cases outer with
  | nil => rfl
  | cons parent outer => rw [opened, opened, h]

/-- The containers of a state, read in document order. -/
def reading (state : OpenSections) : Reading := ⟨trail state.top state.outer, state.top.pending⟩

variable {state : OpenSections}

theorem Settled.addLine (h : state.Settled) (line : Text) : (state.addLine line).Settled :=
  ⟨⟨h.top.content, h.top.last⟩, h.pending, h.content⟩

/-- A line of Markdown is read as one without a mark. -/
theorem reading_addLine (state : OpenSections) (line : Text) :
    (state.addLine line).reading = state.reading.next (none, line) := by
  obtain ⟨top, _ | ⟨parent, outer⟩⟩ := state <;> rfl

theorem Settled.pushLeaf (h : state.Settled) (directive : DirectiveBody) :
    Settled { state with top := state.top.push (.leaf directive) } :=
  ⟨OpenSection.isTidy_cons h.top.flush trivial rfl, h.pending, h.content⟩

/-- A leaf is read behind the Markdown before it. -/
theorem reading_pushLeaf (state : OpenSections) (directive : DirectiveBody) :
    reading { state with top := state.top.push (.leaf directive) } =
      state.reading.next (some (.leaf directive), []) := by
  have hPending : (state.top.push (.leaf directive)).pending = [] := state.top.flush_pending
  have hTrail : trail (state.top.push (.leaf directive)) state.outer =
      trail state.top state.outer ++ Piece.ofRun state.top.pending ++
        [.mark (.leaf directive)] := by
    rw [← trail_flush]
    exact trail_cons_content ..
  rw [reading, hPending, hTrail]
  rfl

/-- A container is opened empty, behind the Markdown before it. -/
theorem Settled.openContainer (h : state.Settled) (colons : Nat) (directive : DirectiveBody) :
    Settled ⟨{ colons, directive }, state.top.flush :: state.outer⟩ where
  top := ⟨trivial, rfl⟩
  pending := by
    intro frame hMem
    rcases List.mem_cons.1 hMem with rfl | hMem
    · exact state.top.flush_pending
    · exact h.pending frame hMem
  content := by
    intro frame hMem
    rcases List.mem_cons.1 hMem with rfl | hMem
    · exact h.top.flush
    · exact h.content frame hMem

/-- The opening of a container is read before its content. -/
theorem reading_openContainer (state : OpenSections) (colons : Nat) (directive : DirectiveBody) :
    reading ⟨{ colons, directive }, state.top.flush :: state.outer⟩ =
      state.reading.next (some (.opening directive), []) := by
  have hTrail : trail { colons, directive } (state.top.flush :: state.outer) =
      trail state.top state.outer ++ Piece.ofRun state.top.pending ++
        [.mark (.opening directive)] := by
    rw [trail, trail_flush]
    rfl
  rw [reading, hTrail]
  rfl

variable {top parent : OpenSection} {outer : List OpenSection}

/-- A container is closed with all its Markdown ended. -/
theorem Settled.close (h : Settled ⟨top, parent :: outer⟩) :
    Settled ⟨{ parent with content := top.close :: parent.content }, outer⟩ where
  top := OpenSection.isTidy_cons (h.content parent (List.mem_cons_self ..)) h.top.flush rfl
  pending frame hMem := h.pending frame (List.mem_cons_of_mem _ hMem)
  content frame hMem := h.content frame (List.mem_cons_of_mem _ hMem)

theorem trail_close (top parent : OpenSection) (outer : List OpenSection) :
    trail { parent with content := top.close :: parent.content } outer =
      trail top (parent :: outer) ++ Piece.ofRun top.pending ++ [.mark .closing] := by
  rw [trail_cons_content, trail, OpenSection.close, Section.pieces, OpenSection.sections,
    OpenSection.pieces_flush]
  simp

/-- The closing of a container is read behind its content. -/
theorem reading_close (h : Settled ⟨top, parent :: outer⟩) :
    reading ⟨{ parent with content := top.close :: parent.content }, outer⟩ =
      (reading ⟨top, parent :: outer⟩).next (some .closing, []) := by
  have hPending := h.pending parent (List.mem_cons_self ..)
  rw [reading, trail_close]
  simp only [hPending]
  rfl

/-- A line does to the open containers what its mark says. -/
theorem Settled.next (h : state.Settled) (entry : Option BlockLine × Text) :
    (state.next entry).Settled ∧
      opened (state.next entry).top (state.next entry).outer =
        (Mark.next (opened state.top state.outer) entry.1).2 ∧
      (state.next entry).reading =
        state.reading.next ((Mark.next (opened state.top state.outer) entry.1).1, entry.2) := by
  obtain ⟨directive, line⟩ := entry
  have hOpened : opened (state.addLine line).top (state.addLine line).outer =
      opened state.top state.outer := opened_congr (by rfl) _
  have hAddLine := And.intro (h.addLine line) (And.intro hOpened (reading_addLine state line))
  cases directive with
  | none => exact hAddLine
  | some directive =>
      cases directive with
      | leaf directive =>
          refine ⟨h.pushLeaf directive, opened_congr ?_ _, reading_pushLeaf state directive⟩
          simp only [OpenSections.next, OpenSection.push, OpenSection.flush]
          split <;> rfl
      | opening colons directive =>
          refine ⟨h.openContainer colons directive, ?_, reading_openContainer state colons directive⟩
          refine congrArg (colons :: ·) (opened_congr ?_ _)
          unfold OpenSection.flush
          split <;> rfl
      | closing colons =>
          obtain ⟨top, _ | ⟨parent, outer⟩⟩ := state
          · exact hAddLine
          · by_cases hCloses : top.colons ≤ colons
            · have hNext : OpenSections.next ⟨top, parent :: outer⟩ (some (.closing colons), line) =
                  ⟨{ parent with content := top.close :: parent.content }, outer⟩ := by
                simp [OpenSections.next, closeTop, hCloses]
              rw [hNext, opened, Mark.next, if_pos hCloses]
              exact ⟨h.close, opened_congr (by rfl) _, reading_close h⟩
            · have hNext : OpenSections.next ⟨top, parent :: outer⟩ (some (.closing colons), line) =
                  OpenSections.addLine ⟨top, parent :: outer⟩ line := by
                simp [OpenSections.next, hCloses]
              rw [hNext]
              simpa only [opened, Mark.next, if_neg hCloses] using hAddLine

/-- Lines do to the open containers what their marks say. -/
theorem Settled.foldl_next (h : state.Settled) (entries : List (Option BlockLine × Text)) :
    (entries.foldl OpenSections.next state).Settled ∧
      (entries.foldl OpenSections.next state).reading =
        (markLines (opened state.top state.outer) entries).foldl Reading.next state.reading := by
  induction entries generalizing state with
  | nil => exact ⟨h, rfl⟩
  | cons entry rest ih =>
      obtain ⟨hNext, hOpened, hReading⟩ := h.next entry
      obtain ⟨hSettled, hRest⟩ := ih hNext
      refine ⟨hSettled, ?_⟩
      rw [List.foldl_cons, hRest, hOpened, hReading]
      rfl

/-- At the end the pending Markdown is kept and the open containers are closed. -/
theorem Settled.finish (h : state.Settled) :
    Section.TidyAll state.finish ∧
      Section.piecesAll state.finish =
        state.reading.finish ++ List.replicate state.outer.length (.mark .closing) := by
  obtain ⟨top, outer⟩ := state
  induction outer generalizing top with
  | nil =>
      refine ⟨h.top.flush, ?_⟩
      rw [OpenSections.finish, closeAll, OpenSection.sections, OpenSection.pieces_flush]
      simp [Reading.finish, reading, trail]
  | cons parent outer ih =>
      obtain ⟨hTidy, hPieces⟩ := ih { parent with content := top.close :: parent.content } h.close
      refine ⟨hTidy, ?_⟩
      rw [OpenSections.finish, closeAll]
      refine hPieces.trans ?_
      rw [reading_close h]
      simp [Reading.finish, Reading.next, List.replicate_succ]

end OpenSections

/-- A source is read in document order up to the closing of what is open at its end. -/
theorem Section.pieces_split (source : Text) :
    TidyAll (split source) ∧ ∃ unclosed, piecesAll (split source) =
      ((markedLines source).foldl Reading.next ⟨[], []⟩).finish ++
        List.replicate unclosed (.mark .closing) := by
  have hDocument : OpenSections.Settled ⟨.document, []⟩ := by
    constructor
    · exact ⟨trivial, rfl⟩
    · simp
    · simp
  obtain ⟨hSettled, hReading⟩ := hDocument.foldl_next (scanLines {} (Text.lines source))
  obtain ⟨hTidy, hPieces⟩ := hSettled.finish
  rw [hReading] at hPieces
  exact ⟨hTidy, _, hPieces⟩

/-- The leaves and the containers in document order are those of the marked lines. -/
theorem Section.marks_split (source : Text) :
    ((piecesAll (split source)).filterMap Piece.mark?).filter (fun mark => !mark.isClosing) =
      ((markedLines source).filterMap Prod.fst).filter (fun mark => !mark.isClosing) := by
  obtain ⟨-, unclosed, hPieces⟩ := pieces_split source
  have hClosings : (List.replicate unclosed (Piece.mark .closing)).filterMap Piece.mark? =
      List.replicate unclosed .closing := List.filterMap_replicate_of_some rfl
  rw [hPieces, List.filterMap_append, Reading.mark_foldl_next, hClosings]
  simp [Mark.isClosing]

/-- Nothing of a source is lost, doubled or moved. Its lines are Markdown or have a mark. The
sections in document order are what the lines are in theirs, up to the closing of what is open at
the end: their Markdown is the runs between the marks except those of white space alone, and their
leaves and containers are those of the marked lines. In no content Markdown is blank or follows on
Markdown. -/
theorem Section.split_conserves (source : Text) :
    (markedLines source).map Prod.snd = Text.lines source ∧
      ((markedLines source).map Prod.snd).flatten = source ∧
      (∃ unclosed, piecesAll (split source) =
        ((markedLines source).foldl Reading.next ⟨[], []⟩).finish ++
          List.replicate unclosed (.mark .closing)) ∧
      (piecesAll (split source)).filterMap Piece.markdown? =
        (markdownRuns (markedLines source)).filter (fun run => !Text.isBlankText run) ∧
      ((piecesAll (split source)).filterMap Piece.mark?).filter (fun mark => !mark.isClosing) =
        ((markedLines source).filterMap Prod.fst).filter (fun mark => !mark.isClosing) ∧
      TidyAll (split source) := by
  have hLines : (markedLines source).map Prod.snd = Text.lines source := by
    rw [markedLines, map_snd_markLines, map_snd_scanLines]
  obtain ⟨hTidy, unclosed, hPieces⟩ := pieces_split source
  refine ⟨hLines, by rw [hLines, Text.flatten_lines], ⟨unclosed, hPieces⟩, ?_, marks_split source,
    hTidy⟩
  have hClosings :
      (List.replicate unclosed (Piece.mark .closing)).filterMap Piece.markdown? = [] :=
    List.filterMap_replicate_of_none rfl
  rw [hPieces, List.filterMap_append, Reading.markdown_foldl_next, modifyHead_nil_append, hClosings]
  simp

end DirectiveMarkdown
