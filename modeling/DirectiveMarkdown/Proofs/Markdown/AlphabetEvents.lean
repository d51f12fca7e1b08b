import DirectiveMarkdown.Markdown.Event
import DirectiveMarkdown.Proofs.Markdown.AlphabetBlocks

/-! The events of a document of text over an alphabet: their text and their raw HTML are over this
alphabet, and there is no HTML among them unless angle brackets belong to it. -/
namespace DirectiveMarkdown.Markdown

variable {a : Alphabet}

section Content

variable {α β : Type} {q : α → Prop} {r : β → Prop} {f : α → β}

theorem Block.mapAll_eq_map (f : α → β) (blocks : List (Block α)) :
    Block.mapAll f blocks = blocks.map (Block.map f) := by
  induction blocks with
  | nil => rfl
  | cons block rest ih => rw [Block.mapAll, ih, List.map_cons]

theorem Item.mapAll_eq_map (f : α → β) (items : List (Item α)) :
    Item.mapAll f items = items.map (Item.map f) := by
  induction items with
  | nil => rfl
  | cons item rest ih => rw [Item.mapAll, ih, List.map_cons]

theorem Item.blocks_map (f : α → β) (item : Item α) :
    (item.map f).blocks = item.blocks.map (Block.map f) := by
  obtain ⟨span, task, blocks⟩ := item
  exact Block.mapAll_eq_map f blocks

/-- Blocks stay over the alphabet, if the function makes good content of good content. -/
theorem Block.Over.map (hf : ∀ content, q content → r (f content)) {block : Block α}
    (h : block.Over a q) : (block.map f).Over a r := by
  induction h with
  | paragraph h => exact .paragraph (hf _ h)
  | plain h => exact .plain (hf _ h)
  | heading level h => exact .heading level (hf _ h)
  | thematicBreak => exact .thematicBreak
  | code info h => exact .code info h
  | html hOpens h => exact .html hOpens h
  | quote span _ ih =>
      refine .quote span ?_
      rw [Block.mapAll_eq_map]
      exact List.forall_mem_map.2 ih
  | list first _ ih =>
      refine .list first ?_
      rw [Item.mapAll_eq_map]
      refine List.forall_mem_map.2 fun item hMem => ?_
      rw [Item.blocks_map]
      exact List.forall_mem_map.2 (ih item hMem)
  | table columns hHeader hRows =>
      refine .table columns (List.forall_mem_map.2 fun cell hMem => hf _ (hHeader cell hMem)) ?_
      refine List.forall_mem_map.2 fun row hRow => ?_
      exact List.forall_mem_map.2 fun cell hMem => hf _ (hRows row hRow cell hMem)

end Content

/-- The text and the raw HTML that the event brings are over the alphabet. -/
def Event.Over (a : Alphabet) : Event → Prop
  | .html value => a.holds '<' = true ∧ value.Over a
  | .start .htmlBlock => a.holds '<' = true
  | .text value => value.Over a
  | _ => True

section Events

theorem Event.over_around (tag : Tag) (hTag : Event.Over a (.start tag)) {inner : List Event}
    (h : ∀ event ∈ inner, event.Over a) : ∀ event ∈ tag.around inner, event.Over a :=
  List.forall_mem_cons.2
    ⟨hTag, List.forall_mem_append.2 ⟨h, List.forall_mem_singleton.2 trivial⟩⟩

theorem Inline.over_allEvents_of {content : List Inline}
    (h : ∀ inline ∈ content, ∀ event ∈ inline.events, event.Over a) :
    ∀ event ∈ Inline.allEvents content, event.Over a := by
  induction content with
  | nil => exact List.forall_mem_nil _
  | cons inline rest ih =>
      obtain ⟨hInline, hRest⟩ := List.forall_mem_cons.1 h
      exact List.forall_mem_append.2 ⟨hInline, ih hRest⟩

/-- The events of inline content bring the text that the content has. -/
theorem Inline.Over.events {inline : Inline} (h : inline.Over a) :
    ∀ event ∈ inline.events, event.Over a := by
  induction h with
  | text h => exact List.forall_mem_singleton.2 h
  | softBreak => exact List.forall_mem_singleton.2 trivial
  | hardBreak => exact List.forall_mem_singleton.2 trivial
  | code value => exact List.forall_mem_singleton.2 trivial
  | html hOpens h => exact List.forall_mem_singleton.2 ⟨hOpens, h⟩
  | emphasis _ ih => exact Event.over_around .emphasis trivial (Inline.over_allEvents_of ih)
  | strong _ ih => exact Event.over_around .strong trivial (Inline.over_allEvents_of ih)
  | strikethrough _ ih => exact Event.over_around .strikethrough trivial (Inline.over_allEvents_of ih)
  | link url title _ ih => exact Event.over_around (.link url title) trivial (Inline.over_allEvents_of ih)
  | image url title _ ih => exact Event.over_around (.image url title) trivial (Inline.over_allEvents_of ih)

def AreOver (a : Alphabet) (content : List Inline) : Prop := ∀ inline ∈ content, inline.Over a

theorem AreOver.events {content : List Inline} (h : AreOver a content) :
    ∀ event ∈ Inline.allEvents content, event.Over a :=
  Inline.over_allEvents_of fun inline hMem => (h inline hMem).events

theorem over_cellEvents {cells : List (List Inline)} (h : ∀ cell ∈ cells, AreOver a cell) :
    ∀ event ∈ cellEvents cells, event.Over a := by
  intro event hMem
  obtain ⟨cell, hCell, hMem⟩ := List.mem_flatMap.1 hMem
  exact Event.over_around .tableCell trivial (h cell hCell).events event hMem

theorem Block.over_allEvents_of {blocks : List (Block (List Inline))}
    (h : ∀ block ∈ blocks, ∀ event ∈ block.events, event.Over a) :
    ∀ event ∈ Block.allEvents blocks, event.Over a := by
  induction blocks with
  | nil => exact List.forall_mem_nil _
  | cons block rest ih =>
      obtain ⟨hBlock, hRest⟩ := List.forall_mem_cons.1 h
      exact List.forall_mem_append.2 ⟨hBlock, ih hRest⟩

theorem Item.over_allEvents_of {items : List (Item (List Inline))}
    (h : ∀ item ∈ items, ∀ block ∈ item.blocks, ∀ event ∈ block.events, event.Over a) :
    ∀ event ∈ Item.allEvents items, event.Over a := by
  induction items with
  | nil => exact List.forall_mem_nil _
  | cons item rest ih =>
      obtain ⟨hItem, hRest⟩ := List.forall_mem_cons.1 h
      obtain ⟨span, task, blocks⟩ := item
      refine List.forall_mem_append.2 ⟨Event.over_around (.item span) trivial ?_, ih hRest⟩
      refine List.forall_mem_append.2 ⟨?_, Block.over_allEvents_of hItem⟩
      cases task with
      | none => exact List.forall_mem_nil _
      | some checked => exact List.forall_mem_singleton.2 trivial

/-- The events of a block bring the text that the block has. -/
theorem Block.Over.events {block : Block (List Inline)} (h : block.Over a (AreOver a)) :
    ∀ event ∈ block.events, event.Over a := by
  induction h with
  | paragraph h => exact Event.over_around .paragraph trivial h.events
  | plain h => exact h.events
  | heading level h => exact Event.over_around (.heading level) trivial h.events
  | thematicBreak => exact List.forall_mem_singleton.2 trivial
  | code info h =>
      refine Event.over_around (.code info) trivial ?_
      split
      · exact List.forall_mem_nil _
      · exact List.forall_mem_singleton.2 h
  | html hOpens h =>
      exact Event.over_around .htmlBlock hOpens (List.forall_mem_singleton.2 ⟨hOpens, h⟩)
  | quote span _ ih => exact Event.over_around (.quote span) trivial (Block.over_allEvents_of ih)
  | list first _ ih => exact Event.over_around (.list first) trivial (Item.over_allEvents_of ih)
  | table columns hHeader hRows =>
      refine Event.over_around (.table columns) trivial (List.forall_mem_append.2 ⟨?_, ?_⟩)
      · exact Event.over_around .tableHead trivial (over_cellEvents hHeader)
      · intro event hMem
        obtain ⟨row, hRow, hMem⟩ := List.mem_flatMap.1 hMem
        exact Event.over_around .tableRow trivial (over_cellEvents (hRows row hRow)) event hMem

/-- The events of text over an alphabet are over it. -/
theorem over_events (gfm : Bool) {source : Text} (h : source.Over a) :
    ∀ event ∈ events gfm source, event.Over a := by
  refine Block.over_allEvents_of fun block hMem => Block.Over.events ?_
  unfold blocks at hMem
  dsimp only at hMem
  rw [Block.mapAll_eq_map] at hMem
  obtain ⟨written, hWritten, rfl⟩ := List.mem_map.1 hMem
  exact (over_structureOf gfm h written hWritten).map fun _ hContent => over_inlines gfm _ hContent

end Events

end DirectiveMarkdown.Markdown
