import DirectiveMarkdown.Proofs.Markdown.Containers
import DirectiveMarkdown.Proofs.Markdown.AlphabetLines
import DirectiveMarkdown.Proofs.Markdown.LineSteps

/-! Blocks of text over an alphabet. The lines that a block keeps are over the alphabet, and no line
starts an HTML block unless angle brackets belong to it. The state between two lines carries this from
line to line. -/
namespace DirectiveMarkdown.Markdown

variable {a : Alphabet}

def Item.blocks {α : Type} : Item α → List (Block α)
  | .mk _ _ blocks => blocks

/-- The code and the raw HTML of the block are over the alphabet, and its content satisfies `q`. -/
inductive Block.Over (a : Alphabet) {α : Type} (q : α → Prop) : Block α → Prop
  | paragraph {content : α} (h : q content) : Over a q (.paragraph content)
  | plain {content : α} (h : q content) : Over a q (.plain content)
  | heading (level : HeadingLevel) {content : α} (h : q content) : Over a q (.heading level content)
  | thematicBreak : Over a q .thematicBreak
  | code (info : Option Text) {value : Text} (h : value.Over a) : Over a q (.code info value)
  | html {value : Text} (hOpens : a.holds '<' = true) (h : value.Over a) : Over a q (.html value)
  | quote (span : Span) {blocks : List (Block α)} (h : ∀ block ∈ blocks, Over a q block) :
    Over a q (.quote span blocks)
  | list (first : Option Nat) {items : List (Item α)}
    (h : ∀ item ∈ items, ∀ block ∈ item.blocks, Over a q block) : Over a q (.list first items)
  | table (columns : List Alignment) {header : List α} {rows : List (List α)}
    (hHeader : ∀ cell ∈ header, q cell) (hRows : ∀ row ∈ rows, ∀ cell ∈ row, q cell) :
    Over a q (.table columns header rows)

def OpenList.Over (a : Alphabet) (list : OpenList) : Prop :=
  ∀ item ∈ list.items, ∀ block ∈ item.blocks, block.Over a (Text.Over a)

def Frame.Over (a : Alphabet) : Frame → Prop
  | .quote _ blocks => ∀ block ∈ blocks, block.Over a (Text.Over a)
  | .item list _ _ _ blocks => list.Over a ∧ ∀ block ∈ blocks, block.Over a (Text.Over a)

def Leaf.Over (a : Alphabet) : Leaf → Prop
  | .none => True
  | .paragraph lines | .fenced _ _ lines | .indented lines => ∀ line ∈ lines, line.Over a
  | .html _ lines => a.holds '<' = true ∧ ∀ line ∈ lines, line.Over a
  | .table _ header rows =>
    (∀ cell ∈ header, cell.Over a) ∧ ∀ row ∈ rows, ∀ cell ∈ row, cell.Over a

/-- All that was written up to a line is over the alphabet. -/
structure Structure.Over (a : Alphabet) (state : Structure) : Prop where
  blocks : ∀ block ∈ state.blocks, block.Over a (Text.Over a)
  frames : ∀ frame ∈ state.frames, frame.Over a
  waiting : ∀ list ∈ state.waiting, list.Over a
  leaf : state.leaf.Over a

/-- Tightening a block changes no text in it. -/
theorem Block.Over.tighten {block : Block Text} (h : block.Over a (Text.Over a)) :
    block.tighten.Over a (Text.Over a) := by
  cases h with
  | paragraph h => exact .plain h
  | plain h => exact .plain h
  | heading level h => exact .heading level h
  | thematicBreak => exact .thematicBreak
  | code info h => exact .code info h
  | html hOpens h => exact .html hOpens h
  | quote span h => exact .quote span h
  | list first h => exact .list first h
  | table columns hHeader hRows => exact .table columns hHeader hRows

theorem OpenList.Over.finish {list : OpenList} (h : list.Over a) :
    list.finish.Over a (Text.Over a) := by
  refine .list _ ?_
  split
  · refine List.forall_mem_map.2 fun item hMem => ?_
    obtain ⟨span, task, blocks⟩ := item
    have hItem := h _ (List.mem_reverse.1 hMem)
    exact List.forall_mem_map.2 fun block hBlock => (hItem block hBlock).tighten
  · exact fun item hMem => h item (List.mem_reverse.1 hMem)

namespace Structure

variable {state : Structure} {cursor : Cursor}

theorem Over.withLeaf (h : state.Over a) {leaf : Leaf} (hLeaf : leaf.Over a) :
    Over a { state with leaf } :=
  ⟨h.blocks, h.frames, h.waiting, hLeaf⟩

theorem Over.withFrames (h : state.Over a) {frames : List Frame}
    (hFrames : ∀ frame ∈ frames, frame.Over a) : Over a { state with frames } :=
  ⟨h.blocks, hFrames, h.waiting, h.leaf⟩

theorem Over.withoutWaiting (h : state.Over a) : Over a { state with waiting := none } :=
  ⟨h.blocks, h.frames, fun list hMem => absurd hMem (Option.not_mem_none list), h.leaf⟩

theorem Over.of_frames (h : state.Over a) {frame : Frame} {outer : List Frame}
    (hFrames : state.frames = frame :: outer) : frame.Over a ∧ ∀ other ∈ outer, other.Over a := by
  have hAll := h.frames
  rw [hFrames] at hAll
  exact List.forall_mem_cons.1 hAll

theorem Over.add (h : state.Over a) {block : Block Text} (hBlock : block.Over a (Text.Over a)) :
    (state.add block).Over a := by
  unfold Structure.add
  split
  · exact ⟨List.forall_mem_cons.2 ⟨hBlock, h.blocks⟩, h.frames, h.waiting, h.leaf⟩
  · next hFrames =>
      obtain ⟨hFrame, hOuter⟩ := h.of_frames hFrames
      exact h.withFrames (List.forall_mem_cons.2 ⟨List.forall_mem_cons.2 ⟨hBlock, hFrame⟩, hOuter⟩)
  · next hFrames =>
      obtain ⟨⟨hList, hFrame⟩, hOuter⟩ := h.of_frames hFrames
      exact h.withFrames
        (List.forall_mem_cons.2 ⟨⟨hList, List.forall_mem_cons.2 ⟨hBlock, hFrame⟩⟩, hOuter⟩)

/-- Ending a leaf adds no characters: its lines are its own. -/
theorem Over.closeLeaf (h : state.Over a) : state.closeLeaf.Over a := by
  have hRest : Over a { state with leaf := .none } := h.withLeaf trivial
  have hLeaf := h.leaf
  unfold Structure.closeLeaf
  split
  · exact hRest
  · next lines hLines =>
      rw [hLines] at hLeaf
      have hContent := (over_joinLines hLeaf).sublist
        (leadingDefinitions_sublist lines.length (joinLines lines))
      have hDefined : ∀ definitions, Over a { state with leaf := .none, definitions } := fun _ =>
        ⟨h.blocks, h.frames, h.waiting, trivial⟩
      dsimp only
      split
      · exact hDefined _
      · exact (hDefined _).add (.paragraph hContent)
  · next hLines =>
      rw [hLines] at hLeaf
      exact hRest.add (.code _ (over_flatten hLeaf))
  · next hLines =>
      rw [hLines] at hLeaf
      exact hRest.add (.code _ (over_flatten fun line hMem =>
        hLeaf line ((List.dropWhile_sublist _).mem hMem)))
  · next hLines =>
      rw [hLines] at hLeaf
      exact hRest.add (.html hLeaf.1 (over_flatten hLeaf.2))
  · next hLines =>
      rw [hLines] at hLeaf
      obtain ⟨hHeader, hRows⟩ := hLeaf
      exact hRest.add (.table _ hHeader fun row hMem => hRows row (List.mem_reverse.1 hMem))

theorem Over.finishWaiting (h : state.Over a) : state.finishWaiting.Over a := by
  unfold Structure.finishWaiting
  split
  · exact h
  · next list hList =>
      exact h.withoutWaiting.add (h.waiting list hList).finish

theorem Over.beginBlock (h : state.Over a) : state.beginBlock.Over a := by
  have hState := h.finishWaiting
  unfold Structure.beginBlock
  dsimp only
  split
  · split
    · next hFrames =>
        obtain ⟨⟨hList, hFrame⟩, hOuter⟩ := hState.of_frames hFrames
        exact ⟨hState.blocks, List.forall_mem_cons.2 ⟨⟨hList, hFrame⟩, hOuter⟩, hState.waiting,
          hState.leaf⟩
    · exact ⟨hState.blocks, hState.frames, hState.waiting, hState.leaf⟩
  · exact hState

/-- Closing a container moves its content, but changes none of it. -/
theorem Over.closeInnermost (h : state.Over a) (stop : Nat) : (state.closeInnermost stop).Over a := by
  have hState := h.finishWaiting
  unfold Structure.closeInnermost
  dsimp only
  split
  · exact hState
  · next hFrames =>
      obtain ⟨hFrame, hOuter⟩ := hState.of_frames hFrames
      exact (hState.withFrames hOuter).add
        (.quote _ fun block hMem => hFrame block (List.mem_reverse.1 hMem))
  · next list start indent task blocks outer hFrames =>
      obtain ⟨⟨hList, hFrame⟩, hOuter⟩ := hState.of_frames hFrames
      refine ⟨hState.blocks, hOuter, ?_, hState.leaf⟩
      intro waiting hMem
      cases hMem
      exact List.forall_mem_cons.2
        ⟨fun block hMem => hFrame block (List.mem_reverse.1 hMem), hList⟩

theorem Over.closeTo (h : state.Over a) (count stop fuel : Nat) :
    (closeTo count stop fuel state).Over a := by
  fun_induction Structure.closeTo count stop fuel state with
  | case1 => exact h
  | case2 fuel state _ ih => exact ih (h.closeInnermost stop)
  | case3 => exact h

theorem Over.closeUnmatched (h : state.Over a) (count stop : Nat) :
    (state.closeUnmatched count stop).Over a :=
  h.closeLeaf.closeTo count stop _

end Structure

namespace Structure

variable {state : Structure} {cursor : Cursor}

/-- A new container brings no text. -/
theorem Over.openOne {next : Structure} (h : state.Over a) (hNext : state.OpensOne next) :
    next.Over a := by
  have hBegun := h.beginBlock
  have hEmpty : ∀ block ∈ [], Block.Over a (Text.Over a) block := List.forall_mem_nil _
  cases hNext with
  | quote start => exact hBegun.withFrames (List.forall_mem_cons.2 ⟨hEmpty, hBegun.frames⟩)
  | newList mark first start indent task =>
      exact ⟨hBegun.blocks,
        List.forall_mem_cons.2 ⟨⟨List.forall_mem_nil _, hEmpty⟩, hBegun.frames⟩, hBegun.waiting,
        hBegun.leaf⟩
  | @nextItem list hWaiting tight start indent task =>
      have hList : list.Over a := h.waiting list hWaiting
      have hRest := h.withoutWaiting
      exact ⟨hRest.blocks, List.forall_mem_cons.2 ⟨⟨hList, hEmpty⟩, hRest.frames⟩, hRest.waiting,
        hRest.leaf⟩

theorem Over.opens {last : Structure} (h : state.Over a) (hOpens : state.Opens last) : last.Over a := by
  induction hOpens with
  | refl => exact h
  | emptyItem hNext =>
      have hNext := h.openOne hNext
      exact ⟨hNext.blocks, hNext.frames, hNext.waiting, hNext.leaf⟩
  | head hNext _ ih => exact ih (h.openOne hNext)

theorem Over.blankLine (h : state.Over a) : state.blankLine.Over a := by
  unfold Structure.blankLine
  split
  · exact ⟨h.blocks, h.frames, h.waiting, h.leaf⟩
  · exact ⟨h.blocks, h.frames, h.waiting, h.leaf⟩

theorem Over.openLeaf (line : SourceLine) (h : state.Over a) (hCursor : cursor.rest.Over a) :
    (openLeaf line state cursor).Over a := by
  have hState := h.beginBlock
  have hInner := Cursor.over_skip 4 hCursor
  have hOpens := opensLeaf_openLeaf line state cursor
  generalize Structure.openLeaf line state cursor = next at hOpens
  have hHtmlStart {rest : Text} (ending : HtmlEnd) (hBody : (cursor.skip 4).2.rest = '<' :: rest) :
      Leaf.Over a (.html ending
        [withEnding line (List.replicate (cursor.skip 4).1 ' ' ++ (cursor.skip 4).2.rest)]) := by
    have hWritten := over_withEnding line
      ((Text.over_replicate (cursor.skip 4).1 a.space).append hInner)
    exact ⟨hInner '<' (hBody ▸ List.mem_cons_self ..), List.forall_mem_singleton.2 hWritten⟩
  cases hOpens with
  | indented =>
      exact hState.withLeaf
        (List.forall_mem_singleton.2 (over_withEnding line (Cursor.over_remainder hInner)))
  | thematicBreak => exact hState.add .thematicBreak
  | heading hHeading => exact hState.add (.heading _ (hInner.sublist (atxHeading?_sublist hHeading)))
  | fenced => exact hState.withLeaf (List.forall_mem_nil _)
  | html ending hBody => exact hState.withLeaf (hHtmlStart ending hBody)
  | htmlEnd ending hBody => exact (hState.withLeaf (hHtmlStart ending hBody)).closeLeaf
  | paragraph => exact hState.withLeaf (List.forall_mem_singleton.2 hInner)

/-- A line that no leaf takes may close and open containers, and adds no other characters than its
own. -/
theorem Over.newLine (gfm : Bool) (line : SourceLine) (count : Nat) (h : state.Over a)
    (hCursor : cursor.rest.Over a) : (newLine gfm line count cursor state).Over a := by
  have hClosed := h.closeUnmatched count line.start
  have hState : Over a { state.closeUnmatched count line.start with emptyItem := false } :=
    ⟨hClosed.blocks, hClosed.frames, hClosed.waiting, hClosed.leaf⟩
  obtain ⟨hOpens, hRest⟩ := opens_openContainers gfm line (line.content.length + 1)
    { state.closeUnmatched count line.start with emptyItem := false } cursor
  have hOpened := hState.opens hOpens
  have hRest := hCursor.sublist hRest
  unfold Structure.newLine
  dsimp only
  split
  · exact hOpened
  · split
    · exact hOpened.blankLine
    · exact hOpened.openLeaf line hRest

/-- One line keeps the state over the alphabet. -/
theorem Over.step (gfm : Bool) {line : SourceLine} (h : state.Over a) (hLine : line.content.Over a) :
    (step gfm state line).Over a := by
  obtain ⟨count, cursor, hRest, hTakes⟩ := exists_takesLine_step gfm state line
  generalize Structure.step gfm state line = next at hTakes
  have hCursor := hLine.sublist hRest
  have hLeaf := h.leaf
  have hOneMoreLine (columns : Nat) {lines : List Text} (hLines : ∀ line ∈ lines, line.Over a) :
      ∀ written ∈ withEnding line (cursor.skip columns).2.remainder :: lines, Text.Over a written :=
    List.forall_mem_cons.2
      ⟨over_withEnding line (Cursor.over_remainder (Cursor.over_skip columns hCursor)), hLines⟩
  have hHtml {ending : HtmlEnd} {lines : List Text} (hOpen : Leaf.Over a (.html ending lines)) :
      Leaf.Over a (.html ending (withEnding line cursor.remainder :: lines)) :=
    ⟨hOpen.1, List.forall_mem_cons.2
      ⟨over_withEnding line (Cursor.over_remainder hCursor), hOpen.2⟩⟩
  cases hTakes with
  | newLine => exact h.newLine gfm line count hCursor
  | paragraph hOpen =>
      rw [hOpen] at hLeaf
      exact h.withLeaf (List.forall_mem_cons.2 ⟨Cursor.over_remainder hCursor, hLeaf⟩)
  | @table lines header columns hOpen hTable =>
      rw [hOpen] at hLeaf
      have hLines : ∀ line ∈ lines, line.Over a := hLeaf
      have hBefore : Over a { state with leaf := .paragraph lines.tail } :=
        h.withLeaf fun line hMem => hLines line (List.mem_of_mem_tail hMem)
      have hHeader : ∀ cell ∈ header, cell.Over a := by
        obtain ⟨first, rest, rfl, hCells⟩ := tableStart?_sublist hTable
        exact fun cell hMem => (hLines first (List.mem_cons_self ..)).sublist
          ((List.sublist_flatten_of_mem hMem).trans hCells)
      exact hBefore.closeLeaf.beginBlock.withLeaf ⟨hHeader, List.forall_mem_nil _⟩
  | @heading lines hOpen level =>
      rw [hOpen] at hLeaf
      have hContent := (over_joinLines hLeaf).sublist
        (leadingDefinitions_sublist lines.length (joinLines lines))
      have hTaken : ∀ definitions, Over a { state with leaf := .none, definitions } := fun _ =>
        ⟨h.blocks, h.frames, h.waiting, trivial⟩
      exact (hTaken _).add (.heading _ hContent)
  | @fenced marker indent lines hOpen =>
      rw [hOpen] at hLeaf
      exact h.withLeaf (hOneMoreLine indent hLeaf)
  | fenceEnd => exact h.closeLeaf
  | indented hOpen =>
      rw [hOpen] at hLeaf
      exact ⟨h.blocks, h.frames, h.waiting, hOneMoreLine 4 hLeaf⟩
  | html hOpen =>
      rw [hOpen] at hLeaf
      exact h.withLeaf (hHtml hLeaf)
  | htmlEnd hOpen =>
      rw [hOpen] at hLeaf
      exact (h.withLeaf (hHtml hLeaf)).closeLeaf
  | @row columns header rows hOpen =>
      rw [hOpen] at hLeaf
      have hCells := over_fitCells columns.length (over_tableCells (Cursor.over_body hCursor))
      exact h.withLeaf ⟨hLeaf.1, List.forall_mem_cons.2 ⟨hCells, hLeaf.2⟩⟩

/-- Lines over the alphabet keep all that is written over it. -/
theorem Over.foldl_step (gfm : Bool) {lines : List SourceLine}
    (hLines : ∀ line ∈ lines, line.content.Over a) (h : state.Over a) :
    (lines.foldl (Structure.step gfm) state).Over a := by
  induction lines generalizing state with
  | nil => exact h
  | cons line rest ih =>
      obtain ⟨hLine, hRest⟩ := List.forall_mem_cons.1 hLines
      exact ih hRest (h.step gfm hLine)

end Structure

/-- The blocks of text over an alphabet are over it. -/
theorem over_structureOf (gfm : Bool) {source : Text} (h : source.Over a) :
    ∀ block ∈ (structureOf gfm source).1, block.Over a (Text.Over a) := by
  have hLines := over_sourceLinesFrom 0 0 (List.forall_mem_nil _) h
  have hEmpty : Structure.Over a {} :=
    ⟨List.forall_mem_nil _, List.forall_mem_nil _,
      fun list hMem => absurd hMem (Option.not_mem_none list), trivial⟩
  have hFinished :=
    ((hEmpty.foldl_step gfm hLines).closeUnmatched 0 source.length).finishWaiting
  exact fun block hMem => hFinished.blocks block (List.mem_reverse.1 hMem)

end DirectiveMarkdown.Markdown
