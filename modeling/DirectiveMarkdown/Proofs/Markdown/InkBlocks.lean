import DirectiveMarkdown.Proofs.Markdown.Containers
import DirectiveMarkdown.Proofs.Markdown.InkInlines
import DirectiveMarkdown.Proofs.Markdown.LineSteps
import DirectiveMarkdown.Proofs.Markdown.SourceLines

/-! The ink of blocks. Each line that the state takes adds at most its own ink to what is written in the
blocks of the state, wherever the line ends up. So the text in a document has no more ink than the
source. -/
namespace DirectiveMarkdown.Markdown

open Text

mutual

/-- The ink of the content and the code that is written in a block. -/
def Block.ink : Block Text → Nat
  | .paragraph content | .plain content | .heading _ content => content.ink
  | .thematicBreak | .html _ => 0
  | .code _ value => value.ink
  | .quote _ blocks => Block.allInk blocks
  | .list _ items => Item.allInk items
  | .table _ header rows => total Text.ink header + total (total Text.ink) rows

def Block.allInk : List (Block Text) → Nat
  | [] => 0
  | block :: rest => block.ink + Block.allInk rest

def Item.ink : Item Text → Nat
  | .mk _ _ blocks => Block.allInk blocks

def Item.allInk : List (Item Text) → Nat
  | [] => 0
  | item :: rest => item.ink + Item.allInk rest

end

theorem Block.allInk_eq (blocks : List (Block Text)) :
    Block.allInk blocks = total Block.ink blocks := by
  induction blocks with
  | nil => rfl
  | cons block rest ih => rw [Block.allInk, ih, total_cons]

theorem Item.allInk_eq (items : List (Item Text)) : Item.allInk items = total Item.ink items := by
  induction items with
  | nil => rfl
  | cons item rest ih => rw [Item.allInk, ih, total_cons]

@[simp] theorem Item.ink_mk (span : Span) (task : Option Bool) (blocks : List (Block Text)) :
    (Item.mk span task blocks).ink = total Block.ink blocks := by
  rw [Item.ink, Block.allInk_eq]

@[simp] theorem Block.ink_quote (span : Span) (blocks : List (Block Text)) :
    (Block.quote span blocks).ink = total Block.ink blocks := by
  rw [Block.ink, Block.allInk_eq]

@[simp] theorem Block.ink_list (first : Option Nat) (items : List (Item Text)) :
    (Block.list first items).ink = total Item.ink items := by
  rw [Block.ink, Item.allInk_eq]

def OpenList.ink (list : OpenList) : Nat := total Item.ink list.items

def Frame.ink : Frame → Nat
  | .quote _ blocks => total Block.ink blocks
  | .item list _ _ _ blocks => list.ink + total Block.ink blocks

/-- The ink of the lines of the leaf, if they are content or code. -/
def Leaf.ink : Leaf → Nat
  | .none | .html _ _ => 0
  | .paragraph lines | .fenced _ _ lines | .indented lines => total Text.ink lines
  | .table _ header rows => total Text.ink header + total (total Text.ink) rows

def Structure.ink (state : Structure) : Nat :=
  total Block.ink state.blocks + total Frame.ink state.frames +
    (state.waiting.map OpenList.ink).getD 0 + state.leaf.ink

/-- A paragraph that stands directly in its item has the same ink. -/
theorem Block.ink_tighten (block : Block Text) : block.tighten.ink = block.ink := by
  cases block <;> rfl

theorem Item.ink_tighten (item : Item Text) : item.tighten.ink = item.ink := by
  obtain ⟨span, task, blocks⟩ := item
  rw [Item.tighten, Item.ink_mk, Item.ink_mk, total_map_of_eq Block.ink Block.ink_tighten]

theorem OpenList.ink_finish (list : OpenList) : list.finish.ink = list.ink := by
  unfold OpenList.finish OpenList.ink
  dsimp only
  rw [Block.ink_list]
  split
  · rw [total_map_of_eq Item.ink Item.ink_tighten, total_reverse]
  · exact total_reverse ..

theorem total_replicate_nil (n : Nat) : total Text.ink (List.replicate n []) = 0 := by
  induction n with
  | zero => rfl
  | succ n ih => rw [List.replicate_succ, total_cons, ih]; rfl

theorem ink_withEnding (line : SourceLine) (content : Text) :
    (Structure.withEnding line content).ink = content.ink := by
  unfold Structure.withEnding
  split
  · exact ink_append ..
  · rfl

/-- The spaces that stand for columns of a tab have no ink. -/
theorem ink_remainder (cursor : Cursor) : cursor.remainder.ink = cursor.rest.ink := by
  rw [Cursor.remainder, ink_append, ink_replicate_space, Nat.zero_add]

theorem ink_joinLines (lines : List Text) : (joinLines lines).ink = total Text.ink lines := by
  rw [joinLines, ink_join_newline, total_reverse]

/-- Of the lines of a paragraph the definitions at its start are no content. -/
theorem ink_leadingDefinitions_le (fuel : Nat) (lines : List Text) :
    (leadingDefinitions fuel (joinLines lines)).2.ink ≤ total Text.ink lines := by
  rw [← ink_joinLines]
  exact ink_mono (leadingDefinitions_sublist fuel _)

theorem total_tableCells_le (line : Text) : total Text.ink (tableCells line) ≤ line.ink := by
  rw [← ink_flatten]
  exact ink_mono (flatten_tableCells_sublist line)

/-- Filling a row up or cutting it off adds no ink. -/
theorem total_fitCells_le (columns : Nat) (line : Text) :
    total Text.ink (fitCells columns (tableCells line)) ≤ line.ink := by
  have hTaken := total_le_of_sublist Text.ink (List.take_sublist columns (tableCells line))
  rw [fitCells, total_append, total_replicate_nil, Nat.add_zero]
  exact Nat.le_trans hTaken (total_tableCells_le line)

namespace Structure

variable {state : Structure} {cursor : Cursor}

theorem ink_add (state : Structure) (block : Block Text) :
    (state.add block).ink = state.ink + block.ink := by
  unfold Structure.add
  split
  · unfold Structure.ink
    dsimp only
    rw [total_cons]
    omega
  · next hFrames =>
      unfold Structure.ink
      dsimp only
      rw [hFrames, total_cons, total_cons, Frame.ink, Frame.ink, total_cons]
      omega
  · next hFrames =>
      unfold Structure.ink
      dsimp only
      rw [hFrames, total_cons, total_cons, Frame.ink, Frame.ink, total_cons]
      omega

/-- Ending a leaf adds no ink, and drops that of definitions. -/
theorem ink_closeLeaf_le (state : Structure) : state.closeLeaf.ink ≤ state.ink := by
  have hRest : Structure.ink { state with leaf := .none } + state.leaf.ink = state.ink := rfl
  unfold Structure.closeLeaf
  split
  · exact Nat.le.intro hRest
  · next lines hLines =>
      rw [hLines, Leaf.ink] at hRest
      have hContent := ink_leadingDefinitions_le lines.length lines
      have hDefined : ∀ definitions, Structure.ink { state with leaf := .none, definitions } =
          Structure.ink { state with leaf := .none } := fun _ => rfl
      dsimp only
      split
      · rw [hDefined]
        exact Nat.le.intro hRest
      · rw [ink_add, hDefined, Block.ink]
        omega
  · next hLines =>
      rw [hLines, Leaf.ink] at hRest
      exact Nat.le_of_eq (by rw [ink_add, Block.ink, ink_flatten, total_reverse, hRest])
  · next lines hLines =>
      rw [hLines, Leaf.ink] at hRest
      have hKept := total_le_of_sublist Text.ink (List.dropWhile_sublist (l := lines) fun line =>
        line.all isAsciiBlank)
      rw [ink_add, Block.ink, ink_flatten, total_reverse]
      omega
  · rw [ink_add, Block.ink]
    exact Nat.le.intro hRest
  · next hLines =>
      rw [hLines, Leaf.ink] at hRest
      exact Nat.le_of_eq (by rw [ink_add, Block.ink, total_reverse, hRest])

/-- The ink of a waiting list counts beside that of the rest. -/
theorem ink_withoutWaiting {list : OpenList} (h : state.waiting = some list) :
    list.ink + Structure.ink { state with waiting := none } = state.ink := by
  unfold Structure.ink
  dsimp only
  rw [h, Option.map_none, Option.map_some, Option.getD_none, Option.getD_some]
  omega

theorem ink_withFrame (state : Structure) (frame : Frame) :
    Structure.ink { state with frames := frame :: state.frames } = frame.ink + state.ink := by
  unfold Structure.ink
  dsimp only
  rw [total_cons]
  omega

/-- A new leaf takes the place of what the leaf before had. -/
theorem ink_withLeaf_le (state : Structure) (leaf : Leaf) :
    Structure.ink { state with leaf } ≤ state.ink + leaf.ink := by
  unfold Structure.ink
  dsimp only
  omega

theorem ink_finishWaiting (state : Structure) : state.finishWaiting.ink = state.ink := by
  unfold Structure.finishWaiting
  split
  · rfl
  · next list hList => rw [ink_add, list.ink_finish, Nat.add_comm, ink_withoutWaiting hList]

theorem ink_beginBlock (state : Structure) : state.beginBlock.ink = state.ink := by
  have hState := ink_finishWaiting state
  unfold Structure.beginBlock
  dsimp only
  split
  · split
    · next hFrames =>
        rw [← hState]
        unfold Structure.ink
        dsimp only
        rw [hFrames]
        rfl
    · exact hState
  · exact hState

/-- Closing a container moves its ink into the one around it. -/
theorem ink_closeInnermost_le (state : Structure) (stop : Nat) :
    (state.closeInnermost stop).ink ≤ state.ink := by
  have hState := ink_finishWaiting state
  unfold Structure.closeInnermost
  dsimp only
  split
  · exact Nat.le_of_eq hState
  · next hFrames =>
      rw [ink_add, Block.ink_quote, total_reverse, ← hState]
      unfold Structure.ink
      dsimp only
      rw [hFrames, total_cons, Frame.ink]
      omega
  · next hFrames =>
      rw [← hState]
      unfold Structure.ink
      dsimp only
      rw [hFrames, total_cons, Frame.ink, Option.map_some, Option.getD_some, OpenList.ink,
        OpenList.ink]
      dsimp only
      rw [total_cons, Item.ink_mk, total_reverse]
      omega

theorem ink_closeTo_le (count stop fuel : Nat) (state : Structure) :
    (closeTo count stop fuel state).ink ≤ state.ink := by
  fun_induction Structure.closeTo count stop fuel state with
  | case1 => exact Nat.le_refl _
  | case2 fuel state _ ih => exact Nat.le_trans ih (ink_closeInnermost_le state stop)
  | case3 => exact Nat.le_refl _

theorem ink_closeUnmatched_le (state : Structure) (count stop : Nat) :
    (state.closeUnmatched count stop).ink ≤ state.ink :=
  Nat.le_trans (ink_closeTo_le count stop _ _) (ink_closeLeaf_le state)

theorem ink_blankLine (state : Structure) : state.blankLine.ink = state.ink := by
  unfold Structure.blankLine
  split <;> rfl

theorem ink_openLeaf_le (line : SourceLine) (state : Structure) (cursor : Cursor) :
    (openLeaf line state cursor).ink ≤ state.ink + cursor.rest.ink := by
  have hState := ink_beginBlock state
  have hInner := ink_mono (Cursor.skip_sublist 4 cursor)
  have hLeaf (leaf : Leaf) (hLe : leaf.ink ≤ cursor.rest.ink) :
      Structure.ink { state.beginBlock with leaf } ≤ state.ink + cursor.rest.ink :=
    Nat.le_trans (ink_withLeaf_le state.beginBlock leaf) (Nat.add_le_add (Nat.le_of_eq hState) hLe)
  have hOpens := opensLeaf_openLeaf line state cursor
  generalize Structure.openLeaf line state cursor = next at hOpens
  cases hOpens with
  | indented =>
      refine hLeaf _ ?_
      rw [Leaf.ink, total_cons, total_nil, ink_withEnding, ink_remainder]
      exact hInner
  | thematicBreak =>
      rw [ink_add, Block.ink, hState]
      exact Nat.le_add_right ..
  | heading hHeading =>
      have hContent := ink_mono (atxHeading?_sublist hHeading)
      rw [ink_add, Block.ink]
      omega
  | fenced => exact hLeaf _ (Nat.zero_le _)
  | html => exact hLeaf _ (Nat.zero_le _)
  | htmlEnd => exact Nat.le_trans (ink_closeLeaf_le _) (hLeaf _ (Nat.zero_le _))
  | paragraph =>
      refine hLeaf _ ?_
      rw [Leaf.ink, total_cons, total_nil]
      exact hInner

theorem OpensOne.ink_eq {next : Structure} (hNext : state.OpensOne next) : next.ink = state.ink := by
  cases hNext with
  | quote start =>
      have hFrame := ink_withFrame state.beginBlock (.quote start [])
      rw [Frame.ink, total_nil, Nat.zero_add, ink_beginBlock] at hFrame
      exact hFrame
  | newList mark first start indent task =>
      have hFrame := ink_withFrame state.beginBlock
        (.item ⟨mark, first, true, []⟩ start indent task [])
      rw [Frame.ink, total_nil, OpenList.ink, total_nil, Nat.zero_add, ink_beginBlock] at hFrame
      exact hFrame
  | @nextItem list hWaiting tight start indent task =>
      have hFrame := ink_withFrame { state with waiting := none }
        (.item { list with tight } start indent task [])
      have hList : OpenList.ink { list with tight } = list.ink := rfl
      rw [Frame.ink, total_nil, Nat.add_zero, hList, ink_withoutWaiting hWaiting] at hFrame
      exact hFrame

/-- Markers of containers have no ink once they are taken off. -/
theorem Opens.ink_eq {last : Structure} (hOpens : state.Opens last) : last.ink = state.ink := by
  induction hOpens with
  | refl => rfl
  | emptyItem hNext => exact hNext.ink_eq
  | head hNext _ ih => rw [ih, hNext.ink_eq]

/-- A line that no leaf takes adds at most its own ink. -/
theorem ink_newLine_le (gfm : Bool) (line : SourceLine) (count : Nat) (cursor : Cursor)
    (state : Structure) :
    (newLine gfm line count cursor state).ink ≤ state.ink + cursor.rest.ink := by
  obtain ⟨hOpens, hRest⟩ := opens_openContainers gfm line (line.content.length + 1)
    { state.closeUnmatched count line.start with emptyItem := false } cursor
  have hState := Nat.le_trans (Nat.le_of_eq hOpens.ink_eq)
    (ink_closeUnmatched_le state count line.start)
  have hRest := ink_mono hRest
  unfold Structure.newLine
  dsimp only
  split
  · exact Nat.le_trans hState (Nat.le_add_right ..)
  · split
    · rw [ink_blankLine]
      exact Nat.le_trans hState (Nat.le_add_right ..)
    · exact Nat.le_trans (ink_openLeaf_le line _ _) (Nat.add_le_add hState hRest)

/-- A line adds at most its own ink. -/
theorem ink_step_le (gfm : Bool) (state : Structure) (line : SourceLine) :
    (step gfm state line).ink ≤ state.ink + line.content.ink := by
  obtain ⟨count, cursor, hRest, hTakes⟩ := exists_takesLine_step gfm state line
  generalize Structure.step gfm state line = next at hTakes
  have hCursor := ink_mono hRest
  have hWithLeaf (leaf : Leaf) : Structure.ink { state with leaf } =
      Structure.ink { state with leaf := .none } + leaf.ink := rfl
  have hSelf : Structure.ink { state with leaf := .none } + state.leaf.ink = state.ink := rfl
  have hOneMoreLine (columns : Nat) (lines : List Text) :
      total Text.ink (withEnding line (cursor.skip columns).2.remainder :: lines) ≤
        total Text.ink lines + line.content.ink := by
    have hSkip := ink_mono (Cursor.skip_sublist columns cursor)
    rw [total_cons, ink_withEnding, ink_remainder]
    omega
  have hLeaf (leaf : Leaf) (hLe : leaf.ink ≤ state.leaf.ink + line.content.ink) :
      Structure.ink { state with leaf } ≤ state.ink + line.content.ink := by
    rw [hWithLeaf]
    omega
  cases hTakes with
  | newLine =>
      exact Nat.le_trans (ink_newLine_le gfm line count cursor state) (Nat.add_le_add_left hCursor _)
  | paragraph hOpen =>
      refine hLeaf _ ?_
      rw [hOpen, Leaf.ink, Leaf.ink, total_cons, ink_remainder]
      omega
  | @table lines header columns hOpen hTable =>
      have hHeader : total Text.ink header + total Text.ink lines.tail ≤ total Text.ink lines := by
        obtain ⟨first, rest, rfl, hCells⟩ := tableStart?_sublist hTable
        have hCells := ink_mono hCells
        rw [ink_flatten] at hCells
        rw [List.tail_cons, total_cons]
        omega
      have hBefore := ink_closeLeaf_le { state with leaf := .paragraph lines.tail }
      rw [← ink_beginBlock, hWithLeaf, Leaf.ink] at hBefore
      rw [hOpen, Leaf.ink] at hSelf
      refine Nat.le_trans (ink_withLeaf_le _ _) ?_
      rw [Leaf.ink, total_nil]
      omega
  | @heading lines hOpen level =>
      have hContent := ink_leadingDefinitions_le lines.length lines
      have hTaken (definitions : Definitions) :
          Structure.ink { state with leaf := .none, definitions } =
            Structure.ink { state with leaf := .none } := rfl
      rw [hOpen, Leaf.ink] at hSelf
      rw [ink_add, hTaken, Block.ink]
      omega
  | @fenced marker indent lines hOpen =>
      refine hLeaf _ ?_
      rw [hOpen]
      exact hOneMoreLine indent lines
  | fenceEnd => exact Nat.le_trans (ink_closeLeaf_le state) (Nat.le_add_right ..)
  | @indented lines hOpen =>
      have hCode := hLeaf (.indented (withEnding line (cursor.skip 4).2.remainder :: lines))
      rw [hOpen] at hCode
      exact hCode (hOneMoreLine 4 lines)
  | html => exact hLeaf _ (Nat.zero_le _)
  | htmlEnd => exact Nat.le_trans (ink_closeLeaf_le _) (hLeaf _ (Nat.zero_le _))
  | @row columns header rows hOpen =>
      have hCells := total_fitCells_le columns.length cursor.body
      have hBody := ink_mono (List.dropWhile_sublist (l := cursor.rest) isInlineBlank)
      refine hLeaf _ ?_
      rw [hOpen, Leaf.ink, Leaf.ink, total_cons]
      unfold Cursor.body at hCells
      unfold Cursor.body
      omega

/-- Lines add at most their own ink. -/
theorem ink_foldl_step_le (gfm : Bool) (lines : List SourceLine) (state : Structure) :
    (lines.foldl (Structure.step gfm) state).ink ≤
      state.ink + total (fun line => line.content.ink) lines := by
  induction lines generalizing state with
  | nil => exact Nat.le_refl _
  | cons line rest ih =>
      rw [List.foldl_cons, total_cons, ← Nat.add_assoc]
      exact Nat.le_trans (ih _) (Nat.add_le_add_right (ink_step_le gfm state line) _)

end Structure

/-- Reading turns no white space into ink. -/
theorem ink_readCharacter (c : Char) : Text.ink [readCharacter c] ≤ Text.ink [c] := by
  unfold readCharacter
  split
  · next hNull =>
      rw [hNull]
      decide
  · exact Nat.le_refl _

/-- The lines have no more ink than the source. -/
theorem total_sourceLinesFrom_le (start offset : Nat) (line source : Text) :
    total (fun line => line.content.ink) (sourceLinesFrom start offset line source) ≤
      line.ink + source.ink := by
  fun_induction sourceLinesFrom start offset line source with
  | case1 => exact Nat.zero_le _
  | case2 start offset line =>
      rw [total_cons, ink_reverse, total_nil]
      exact Nat.le_add_right ..
  | case3 start offset line rest ih =>
      have hRest := ink_mono ((List.sublist_cons_self '\n' rest).cons '\r')
      rw [total_cons, ink_reverse]
      rw [ink_nil] at ih
      omega
  | case4 start offset line c rest _ _ ih =>
      have hRest := ink_mono (List.sublist_cons_self c rest)
      rw [total_cons, ink_reverse]
      rw [ink_nil] at ih
      omega
  | case5 start offset line c rest _ _ ih =>
      have hChar := ink_readCharacter c
      have hLine := ink_append [readCharacter c] line
      have hRest := ink_append [c] rest
      rw [List.singleton_append] at hLine hRest
      omega

/-- The content and the code of the blocks has no more ink than the source. -/
theorem total_structureOf_le (gfm : Bool) (source : Text) :
    total Block.ink (structureOf gfm source).1 ≤ source.ink := by
  have hLines := total_sourceLinesFrom_le 0 0 [] source
  have hState := Structure.ink_foldl_step_le gfm (sourceLines source) {}
  have hClosed := Structure.ink_closeUnmatched_le
    ((sourceLines source).foldl (Structure.step gfm) {}) 0 source.length
  rw [← Structure.ink_finishWaiting] at hClosed
  have hEmpty : Structure.ink {} = 0 := rfl
  have hBlocks : ∀ state : Structure, total Block.ink state.blocks ≤ state.ink := by
    intro state
    unfold Structure.ink
    omega
  unfold structureOf
  dsimp only
  rw [total_reverse]
  refine Nat.le_trans (hBlocks _) (Nat.le_trans hClosed ?_)
  rw [ink_nil] at hLines
  unfold sourceLines at hState ⊢
  omega

end DirectiveMarkdown.Markdown
