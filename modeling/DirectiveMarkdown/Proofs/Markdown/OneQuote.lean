import DirectiveMarkdown.Markdown.Event
import DirectiveMarkdown.Proofs.Markdown.Containers
import DirectiveMarkdown.Proofs.Markdown.LineSteps
import DirectiveMarkdown.Proofs.Markdown.SourceLines

/-! Markdown has a text with the marker of a block quote in front of every line as one block quote.
The first line opens the quote, and no later line closes it: each continues at least the outermost
container, and a container is closed only if it is not continued or is an empty item. -/
namespace DirectiveMarkdown.Markdown

namespace Structure

/-- The outermost open container is a block quote from the start of the document, with `depth` more
inside it, and nothing stands before it. `empty` tells that the last line opened an item and put
nothing into it. -/
structure InQuote (depth : Nat) (empty : Bool) (state : Structure) : Prop where
  blocks : state.blocks = []
  emptyItem : state.emptyItem = empty
  frames : ∃ inner blocks, state.frames = inner ++ [.quote 0 blocks] ∧ inner.length = depth

variable {state : Structure} {depth : Nat} {empty : Bool}

theorem InQuote.add (h : state.InQuote depth empty) (block : Block Text) :
    (state.add block).InQuote depth empty := by
  obtain ⟨hBlocks, hEmpty, inner, outermost, hFrames, hDepth⟩ := h
  unfold Structure.add
  rw [hFrames]
  cases inner with
  | nil => exact ⟨hBlocks, hEmpty, [], _, rfl, hDepth⟩
  | cons frame inner => cases frame <;> exact ⟨hBlocks, hEmpty, _ :: inner, _, rfl, hDepth⟩

theorem InQuote.closeLeaf (h : state.InQuote depth empty) :
    state.closeLeaf.InQuote depth empty := by
  have hRest : ∀ definitions, InQuote depth empty { state with leaf := .none, definitions } :=
    fun _ => ⟨h.blocks, h.emptyItem, h.frames⟩
  unfold Structure.closeLeaf
  split
  · exact hRest _
  · dsimp only
    split
    · exact hRest _
    · exact (hRest _).add _
  · exact (hRest _).add _
  · exact (hRest _).add _
  · exact (hRest _).add _
  · exact (hRest _).add _

theorem InQuote.finishWaiting (h : state.InQuote depth empty) :
    state.finishWaiting.InQuote depth empty := by
  have hRest : InQuote depth empty { state with waiting := none } :=
    ⟨h.blocks, h.emptyItem, h.frames⟩
  unfold Structure.finishWaiting
  split
  · exact h
  · exact hRest.add _

/-- Room for a block is made inside the quote. -/
theorem InQuote.beginBlock (h : state.InQuote depth empty) :
    state.beginBlock.InQuote depth empty := by
  have hState := h.finishWaiting
  unfold Structure.beginBlock
  dsimp only
  split
  · split
    · next hItem =>
        obtain ⟨hBlocks, hEmpty, inner, outermost, hFrames, hDepth⟩ := hState
        rw [hItem] at hFrames
        cases inner with
        | nil => cases hFrames
        | cons frame inner =>
            cases hFrames
            exact ⟨hBlocks, hEmpty, _ :: inner, outermost, rfl, hDepth⟩
    · exact ⟨hState.blocks, hState.emptyItem, hState.frames⟩
  · exact hState

/-- A container inside the outermost one is closed. -/
theorem InQuote.closeInnermost (h : state.InQuote (depth + 1) empty) (stop : Nat) :
    (state.closeInnermost stop).InQuote depth empty := by
  obtain ⟨hBlocks, hEmpty, inner, outermost, hFrames, hDepth⟩ := h.finishWaiting
  unfold Structure.closeInnermost
  dsimp only
  rw [hFrames]
  cases inner with
  | nil => cases hDepth
  | cons frame inner =>
      have hInner : inner.length = depth := Nat.succ.inj hDepth
      cases frame with
      | quote start blocks =>
          refine InQuote.add ?_ _
          exact ⟨hBlocks, hEmpty, inner, outermost, rfl, hInner⟩
      | item list start indent task blocks => exact ⟨hBlocks, hEmpty, inner, outermost, rfl, hInner⟩

/-- The open containers are the quote and those inside it. -/
theorem InQuote.length_frames (h : state.InQuote depth empty) :
    state.frames.length = depth + 1 := by
  obtain ⟨inner, outermost, hFrames, hDepth⟩ := h.frames
  rw [hFrames, List.length_append, hDepth]
  rfl

/-- The outermost container stays open if at least one is to. -/
theorem InQuote.closeTo (h : state.InQuote depth empty) {count : Nat} (hCount : 1 ≤ count)
    (stop fuel : Nat) : ∃ depth, (closeTo count stop fuel state).InQuote depth empty := by
  induction fuel generalizing state depth with
  | zero => exact ⟨depth, h⟩
  | succ fuel ih =>
      unfold Structure.closeTo
      split
      · next hMany =>
          rw [h.length_frames] at hMany
          obtain ⟨depth, rfl⟩ := Nat.exists_eq_succ_of_ne_zero (show depth ≠ 0 by omega)
          exact ih (h.closeInnermost stop)
      · exact ⟨depth, h⟩

theorem waiting_finishWaiting (state : Structure) : state.finishWaiting.waiting = none := by
  have hAdd : ∀ (state : Structure) (block : Block Text),
      (state.add block).waiting = state.waiting := by
    intro state block
    unfold Structure.add
    split <;> rfl
  unfold Structure.finishWaiting
  split
  · next hNone => exact hNone
  · exact hAdd _ _

/-- The quote itself is closed, and is all that there is. -/
theorem InQuote.closeInnermost_zero (h : state.InQuote 0 empty) (stop : Nat) :
    (state.closeInnermost stop).frames = [] ∧ (state.closeInnermost stop).waiting = none ∧
      ∃ blocks, (state.closeInnermost stop).blocks = [.quote ⟨0, stop⟩ blocks] := by
  obtain ⟨hBlocks, -, inner, outermost, hFrames, hDepth⟩ := h.finishWaiting
  obtain rfl := List.eq_nil_of_length_eq_zero hDepth
  have hClosed : state.closeInnermost stop =
      { state.finishWaiting with frames := [], blocks := [.quote ⟨0, stop⟩ outermost.reverse] } := by
    unfold Structure.closeInnermost
    dsimp only
    rw [hFrames, List.nil_append]
    dsimp only
    rw [Structure.add, hBlocks]
  rw [hClosed]
  exact ⟨rfl, state.waiting_finishWaiting, _, rfl⟩

/-- At the end all containers are closed, the quote last. -/
theorem InQuote.closeTo_zero (h : state.InQuote depth empty) (stop : Nat) {fuel : Nat}
    (hFuel : depth < fuel) :
    (Structure.closeTo 0 stop fuel state).waiting = none ∧
      ∃ blocks, (Structure.closeTo 0 stop fuel state).blocks = [.quote ⟨0, stop⟩ blocks] := by
  induction fuel generalizing state depth with
  | zero => exact absurd hFuel (Nat.not_lt_zero _)
  | succ fuel ih =>
      have hSome : state.frames.length > 0 := by
        rw [h.length_frames]
        exact Nat.succ_pos _
      rw [Structure.closeTo, if_pos hSome]
      cases depth with
      | succ depth => exact ih (h.closeInnermost stop) (Nat.lt_of_succ_lt_succ hFuel)
      | zero =>
          obtain ⟨hFrames, hClosed⟩ := h.closeInnermost_zero stop
          have hEnd : Structure.closeTo 0 stop fuel (state.closeInnermost stop) =
              state.closeInnermost stop := by
            cases fuel with
            | zero => rfl
            | succ fuel =>
                rw [Structure.closeTo, hFrames]
                exact if_neg (Nat.lt_irrefl 0)
          rw [hEnd]
          exact hClosed

/-- Closing containers but for the outermost leaves the quote open. -/
theorem InQuote.closeUnmatched (h : state.InQuote depth empty) {count : Nat} (hCount : 1 ≤ count)
    (stop : Nat) : ∃ depth, (state.closeUnmatched count stop).InQuote depth empty :=
  h.closeLeaf.closeTo hCount stop _

/-- At the end of the source the quote is the only block. -/
theorem InQuote.finish (h : state.InQuote depth empty) (stop : Nat) :
    ∃ blocks, (state.finish stop).blocks = [.quote ⟨0, stop⟩ blocks] := by
  have hFuel : depth < state.frames.length := by
    rw [h.length_frames]
    exact Nat.lt_succ_self _
  obtain ⟨hWaiting, hClosed⟩ := h.closeLeaf.closeTo_zero stop hFuel
  have hFinish : state.finish stop = state.closeUnmatched 0 stop := by
    unfold Structure.finish Structure.finishWaiting
    rw [Structure.closeUnmatched, hWaiting]
  rw [hFinish]
  exact hClosed

/-- The same between two lines: an empty item stands inside the quote. -/
def RestsInQuote (state : Structure) : Prop :=
  ∃ depth empty, state.InQuote depth empty ∧ (empty = true → 0 < depth)

/-- A container is opened inside the quote. -/
theorem InQuote.push (h : state.InQuote depth empty) (frame : Frame) {blank : Bool} :
    InQuote (depth + 1) empty { state with blank, frames := frame :: state.frames } := by
  obtain ⟨inner, outermost, hFrames, hDepth⟩ := h.frames
  refine ⟨h.blocks, h.emptyItem, frame :: inner, outermost, ?_, congrArg Nat.succ hDepth⟩
  rw [hFrames]
  rfl

theorem InQuote.openOne {next : Structure} (h : state.InQuote depth empty)
    (hNext : state.OpensOne next) : next.InQuote (depth + 1) empty := by
  cases hNext with
  | quote start => exact h.beginBlock.push _
  | newList mark first start indent task => exact h.beginBlock.push _
  | nextItem hWaiting tight start indent task =>
      have hOpened : InQuote depth empty { state with waiting := none } :=
        ⟨h.blocks, h.emptyItem, h.frames⟩
      exact hOpened.push _

/-- Containers are opened inside the quote, and so is an empty item. -/
theorem InQuote.opens {last : Structure} (h : state.InQuote depth false)
    (hOpens : state.Opens last) : last.RestsInQuote := by
  induction hOpens generalizing depth with
  | refl state => exact ⟨depth, false, h, nofun⟩
  | emptyItem hNext =>
      have hNext := h.openOne hNext
      exact ⟨depth + 1, true, ⟨hNext.blocks, rfl, hNext.frames⟩, fun _ => Nat.succ_pos _⟩
  | head hNext _ ih => exact ih (h.openOne hNext)

/-- All containers that a line starts with are opened inside the quote. -/
theorem InQuote.openContainers (gfm : Bool) (line : SourceLine) (fuel : Nat)
    (h : state.InQuote depth false) (cursor : Cursor) :
    (Structure.openContainers gfm line fuel state cursor).1.RestsInQuote :=
  h.opens (opens_openContainers gfm line fuel state cursor).1

/-- A blank line leaves the containers as they are. -/
theorem RestsInQuote.blankLine (h : state.RestsInQuote) : state.blankLine.RestsInQuote := by
  obtain ⟨depth, empty, h, hInside⟩ := h
  unfold Structure.blankLine
  split <;> exact ⟨depth, empty, ⟨h.blocks, h.emptyItem, h.frames⟩, hInside⟩

theorem InQuote.withLeaf (h : state.InQuote depth empty) (leaf : Leaf) :
    InQuote depth empty { state with leaf } :=
  ⟨h.blocks, h.emptyItem, h.frames⟩

theorem InQuote.openLeaf (h : state.InQuote depth empty) (line : SourceLine) (cursor : Cursor) :
    (Structure.openLeaf line state cursor).InQuote depth empty := by
  have hState := h.beginBlock
  have hOpens := opensLeaf_openLeaf line state cursor
  generalize Structure.openLeaf line state cursor = next at hOpens
  cases hOpens with
  | thematicBreak => exact hState.add _
  | heading => exact hState.add _
  | htmlEnd => exact (hState.withLeaf _).closeLeaf
  | _ => exact hState.withLeaf _

/-- What a line does after it has opened its containers, it does inside the quote. -/
theorem restsInQuote_newLine {gfm : Bool} {line : SourceLine} {count : Nat} {cursor : Cursor}
    (hOpened : (Structure.openContainers gfm line (line.content.length + 1)
      { state.closeUnmatched count line.start with emptyItem := false } cursor).1.RestsInQuote) :
    (Structure.newLine gfm line count cursor state).RestsInQuote := by
  unfold Structure.newLine
  dsimp only
  split
  · exact hOpened
  · split
    · exact hOpened.blankLine
    · obtain ⟨depth, empty, hOpened, hInside⟩ := hOpened
      exact ⟨depth, empty, hOpened.openLeaf line _, hInside⟩

/-- A line that continues the quote leaves it open. -/
theorem InQuote.newLine (gfm : Bool) (line : SourceLine) {count : Nat} (hCount : 1 ≤ count)
    (h : state.InQuote depth empty) (cursor : Cursor) :
    (Structure.newLine gfm line count cursor state).RestsInQuote := by
  obtain ⟨depth, hClosed⟩ := h.closeUnmatched hCount line.start
  have hState : InQuote depth false
      { state.closeUnmatched count line.start with emptyItem := false } :=
    ⟨hClosed.blocks, rfl, hClosed.frames⟩
  exact restsInQuote_newLine (hState.openContainers gfm line _ cursor)

/-- A line with the mark of a quote continues the outermost container. -/
theorem InQuote.continued (h : state.InQuote depth empty) (rest : Text) :
    ∃ count cursor, continued state.frames.reverse ⟨0, 0, '>' :: rest⟩ = (count + 1, cursor) := by
  obtain ⟨inner, outermost, hFrames, -⟩ := h.frames
  rw [hFrames, List.reverse_append]
  exact ⟨_, _, rfl⟩

/-- A line with the mark of a quote leaves the quote open. -/
theorem RestsInQuote.step (gfm : Bool) {line : SourceLine} (hLine : line.content.head? = some '>')
    (h : state.RestsInQuote) : (Structure.step gfm state line).RestsInQuote := by
  obtain ⟨depth, empty, h, hInside⟩ := h
  obtain ⟨rest, hContent⟩ := List.head?_eq_some_iff.1 hLine
  obtain ⟨more, cursor, hContinued⟩ := h.continued rest
  have hRests : ∀ {next : Structure}, next.InQuote depth empty → next.RestsInQuote :=
    fun hNext => ⟨depth, empty, hNext, hInside⟩
  have hCount : 1 ≤ if (state.emptyItem && cursor.isBlank &&
      more + 1 == state.frames.length) = true then more + 1 - 1 else more + 1 := by
    split
    · next hEmpty =>
        simp only [Bool.and_eq_true, beq_iff_eq, h.emptyItem, h.length_frames] at hEmpty
        have hDepth := hInside hEmpty.1.1
        omega
    · exact Nat.le_add_left ..
  rw [← hContent] at hContinued
  have hTakes := takesLine_step gfm hContinued
  generalize (if (state.emptyItem && cursor.isBlank && more + 1 == state.frames.length) = true then
    more + 1 - 1 else more + 1) = count at hCount hTakes
  generalize Structure.step gfm state line = next at hTakes
  cases hTakes with
  | newLine => exact h.newLine gfm line hCount cursor
  | table => exact hRests ((h.withLeaf _).closeLeaf.beginBlock.withLeaf _)
  | heading =>
      have hTaken : ∀ definitions, InQuote depth empty { state with leaf := .none, definitions } :=
        fun _ => ⟨h.blocks, h.emptyItem, h.frames⟩
      exact hRests ((hTaken _).add _)
  | fenceEnd => exact hRests h.closeLeaf
  | indented => exact hRests ⟨h.blocks, h.emptyItem, h.frames⟩
  | htmlEnd => exact hRests (h.withLeaf _).closeLeaf
  | _ => exact hRests (h.withLeaf _)

/-- Lines with the mark of a quote leave the quote open. -/
theorem RestsInQuote.foldl_step (gfm : Bool) {lines : List SourceLine}
    (hLines : ∀ line ∈ lines, line.content.head? = some '>') (h : state.RestsInQuote) :
    (lines.foldl (Structure.step gfm) state).RestsInQuote := by
  induction lines generalizing state with
  | nil => exact h
  | cons line rest ih =>
      obtain ⟨hLine, hRest⟩ := List.forall_mem_cons.1 hLines
      exact ih hRest (h.step gfm hLine)

/-- The first line opens the quote. -/
theorem restsInQuote_step_new (gfm : Bool) {line : SourceLine} (hStart : line.start = 0)
    (hLine : line.content.head? = some '>') : (Structure.step gfm {} line).RestsInQuote := by
  obtain ⟨start, content, ended⟩ := line
  obtain ⟨rest, rfl⟩ := List.head?_eq_some_iff.1 hLine
  cases hStart
  have hQuote : InQuote 0 false
      { frames := [.quote (0 + ((rest.length + 1) - (rest.length + 1))) []] } := by
    rw [Nat.sub_self]
    exact ⟨rfl, rfl, [], [], rfl, rfl⟩
  have hOpened : (Structure.openContainers gfm ⟨0, '>' :: rest, ended⟩ (rest.length + 2) {}
      ⟨0, 0, '>' :: rest⟩).1.RestsInQuote :=
    hQuote.openContainers gfm ⟨0, '>' :: rest, ended⟩ (rest.length + 1) (Cursor.skip 1 ⟨0, 1, rest⟩).2
  have hNew : (Structure.newLine gfm ⟨0, '>' :: rest, ended⟩ 0 ⟨0, 0, '>' :: rest⟩ {}).RestsInQuote :=
    restsInQuote_newLine hOpened
  exact hNew

end Structure

/-- The lines of a quote start with its mark, for Markdown as well. -/
theorem head?_of_mem_sourceLines {content : Text} (hReturn : '\r' ∉ content) :
    ∀ written ∈ sourceLines (quoted content), written.content.head? = some '>' := by
  have hDivision : ∀ line ∈ Text.lines (quoted content), '\r' ∉ line := fun line hLine hMem =>
    return_not_mem_quoted hReturn (Text.mem_of_mem_lines hLine hMem)
  have hSource := exists_of_mem_sourceLinesFrom (Text.areLines_lines _) hDivision 0
  rw [Text.flatten_lines, lines_quoted] at hSource
  intro written hMem
  obtain ⟨line, hLine, hContent⟩ := hSource written hMem
  obtain ⟨more, rfl⟩ : ∃ more, line = '>' :: more := by
    obtain hLine | hLine := hLine <;> obtain ⟨inner, -, hEq⟩ := List.mem_map.1 hLine
    · exact ⟨_, hEq.symm⟩
    · cases line with
      | nil => cases hEq
      | cons c line => exact ⟨line, congrArg (· :: line) (List.cons.inj hEq).1.symm⟩
  rw [hContent]
  rfl

/-- Markdown has a text with the marker of a quote in front of every line as one quote. -/
theorem exists_structureOf_quoted (gfm : Bool) {content : Text} (hNe : content ≠ [])
    (hReturn : '\r' ∉ content) :
    ∃ inner, (structureOf gfm (quoted content)).1 = [.quote ⟨0, (quoted content).length⟩ inner] := by
  have hLines := head?_of_mem_sourceLines hReturn
  obtain ⟨first, rest, hSource, hStart⟩ := exists_sourceLines (quoted_ne_nil hNe)
  rw [hSource] at hLines
  obtain ⟨hFirst, hRest⟩ := List.forall_mem_cons.1 hLines
  have hNew := Structure.restsInQuote_step_new gfm hStart hFirst
  obtain ⟨depth, empty, hAll, -⟩ := hNew.foldl_step gfm hRest
  obtain ⟨inner, hBlocks⟩ := hAll.finish (quoted content).length
  refine ⟨inner, ?_⟩
  rw [structureOf, hSource, List.foldl_cons]
  dsimp only
  rw [hBlocks]
  rfl

end DirectiveMarkdown.Markdown
