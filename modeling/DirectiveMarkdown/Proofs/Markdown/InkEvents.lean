import DirectiveMarkdown.Proofs.Markdown.InkBlocks

/-! The ink of the events of a document. Text stands in the events of a block once, as it is read from
the content of the block. -/
namespace DirectiveMarkdown.Markdown

section Events

variable {f : Text → List Inline}

/-- The events of cells have at most the ink of the cells, if inline reading adds none. -/
theorem total_cellEvents_le (hf : ∀ content, total Inline.ink (f content) ≤ content.ink)
    (cells : List Text) :
    total Event.ink (cellEvents (cells.map f)) ≤ total Text.ink cells := by
  induction cells with
  | nil => exact Nat.le_refl _
  | cons cell rest ih =>
      have hCell := hf cell
      have hCons : cellEvents ((cell :: rest).map f) =
          Tag.tableCell.around (Inline.allEvents (f cell)) ++ cellEvents (rest.map f) := rfl
      rw [hCons, total_append, Event.total_around, Inline.total_allEvents, total_cons]
      omega

theorem total_rowEvents_le (hf : ∀ content, total Inline.ink (f content) ≤ content.ink)
    (rows : List (List Text)) :
    total Event.ink ((rows.map (List.map f)).flatMap fun row => Tag.tableRow.around (cellEvents row)) ≤
      total (total Text.ink) rows := by
  induction rows with
  | nil => exact Nat.le_refl _
  | cons row rest ih =>
      have hRow := total_cellEvents_le hf row
      rw [List.map_cons, List.flatMap_cons, total_append, Event.total_around, total_cons]
      omega

mutual

/-- The events of a block have no more ink than the block, if the inline content of a text has no more
than the text. -/
theorem Block.total_events_le (hf : ∀ content, total Inline.ink (f content) ≤ content.ink)
    (block : Block Text) : total Event.ink (block.map f).events ≤ block.ink := by
  match block with
  | .paragraph content | .heading level content =>
      rw [Block.map, Block.events, Event.total_around, Inline.total_allEvents]
      exact hf content
  | .plain content =>
      rw [Block.map, Block.events, Inline.total_allEvents]
      exact hf content
  | .thematicBreak => exact Nat.le_refl _
  | .code info value =>
      rw [Block.map, Block.events, Event.total_around, Block.ink]
      split
      · exact Nat.zero_le _
      · exact Nat.le_of_eq (by rw [total_cons, total_nil, Event.ink_text, Nat.add_zero])
  | .html value =>
      rw [Block.map, Block.events, Event.total_around]
      exact Nat.le_refl _
  | .quote span blocks =>
      rw [Block.map, Block.events, Event.total_around, Block.ink]
      exact Block.total_allEvents_le hf blocks
  | .list first items =>
      rw [Block.map, Block.events, Event.total_around, Block.ink]
      exact Item.total_allEvents_le hf items
  | .table columns header rows =>
      have hHeader := total_cellEvents_le hf header
      have hRows := total_rowEvents_le hf rows
      rw [Block.map, Block.events, Event.total_around, total_append, Event.total_around, Block.ink]
      exact Nat.add_le_add hHeader hRows

/-- The events of blocks have at most the ink of the blocks, if inline reading adds none. -/
theorem Block.total_allEvents_le (hf : ∀ content, total Inline.ink (f content) ≤ content.ink)
    (blocks : List (Block Text)) :
    total Event.ink (Block.allEvents (Block.mapAll f blocks)) ≤ Block.allInk blocks := by
  match blocks with
  | [] => exact Nat.le_refl _
  | block :: rest =>
      rw [Block.mapAll, Block.allEvents, total_append, Block.allInk]
      exact Nat.add_le_add (Block.total_events_le hf block) (Block.total_allEvents_le hf rest)

/-- A check box has no ink, so the events of an item have at most that of its blocks. -/
theorem Item.total_events_le (hf : ∀ content, total Inline.ink (f content) ≤ content.ink)
    (item : Item Text) : total Event.ink (item.map f).events ≤ item.ink := by
  match item with
  | .mk span none blocks =>
      rw [Item.map, Item.events, Event.total_around, Item.ink]
      exact Block.total_allEvents_le hf blocks
  | .mk span (some checked) blocks =>
      rw [Item.map, Item.events, Event.total_around, Item.ink]
      exact Nat.le_trans (Nat.le_of_eq (Nat.zero_add _)) (Block.total_allEvents_le hf blocks)

theorem Item.total_allEvents_le (hf : ∀ content, total Inline.ink (f content) ≤ content.ink)
    (items : List (Item Text)) :
    total Event.ink (Item.allEvents (Item.mapAll f items)) ≤ Item.allInk items := by
  match items with
  | [] => exact Nat.le_refl _
  | item :: rest =>
      rw [Item.mapAll, Item.allEvents, total_append, Item.allInk]
      exact Nat.add_le_add (Item.total_events_le hf item) (Item.total_allEvents_le hf rest)

end

/-- The text in the events of a document has no more ink than the source. -/
theorem total_events_le (gfm : Bool) (source : Text) :
    total Event.ink (events gfm source) ≤ source.ink := by
  have hBlocks := Block.total_allEvents_le (total_inlines_le gfm (structureOf gfm source).2)
    (structureOf gfm source).1
  rw [Block.allInk_eq] at hBlocks
  exact Nat.le_trans hBlocks (total_structureOf_le gfm source)

end Events

end DirectiveMarkdown.Markdown
