import DirectiveMarkdown.Markdown.Event

/-! The elements of a Markdown document are nested: every start has its end, a check box stands at
the start of its item, and images hold neither block quotes nor list items. -/
namespace DirectiveMarkdown.Markdown

def Tag.isContainer : Tag → Bool
  | .quote _ | .item _ => true
  | _ => false

def Tag.isItem : Tag → Bool
  | .item _ => true
  | _ => false

def Tag.isImage : Tag → Bool
  | .image _ _ => true
  | _ => false

/-- The event neither starts nor ends an element, and is no check box. -/
def Event.isContent : Event → Bool
  | .start _ | .stop _ | .taskMarker _ => false
  | .text _ | .code _ | .html _ | .softBreak | .hardBreak | .thematicBreak => true

/-- The start or the end of an element. -/
def Event.isBoundary : Event → Bool
  | .start _ | .stop _ => true
  | _ => false

theorem Event.not_isBoundary_of_isContent {event : Event} (h : event.isContent = true) :
    event.isBoundary = false := by
  cases event <;> first | rfl | cases h

/-- No block quote and no list item starts in the events. -/
def HoldsNoContainer (events : List Event) : Prop :=
  ∀ tag, .start tag ∈ events → tag.isContainer = false

/-- Events in which every start has its end. Those of a list item may have its check box first. -/
inductive Nested : Bool → List Event → Prop
  | nil {ofItem : Bool} : Nested ofItem []
  | content {ofItem : Bool} {event : Event} {rest : List Event} (hEvent : event.isContent = true)
    (hRest : Nested false rest) : Nested ofItem (event :: rest)
  | task {checked : Bool} {rest : List Event} (hRest : Nested false rest) :
    Nested true (.taskMarker checked :: rest)
  | element {ofItem : Bool} {tag : Tag} {inner rest : List Event}
    (hImage : tag.isImage = true → HoldsNoContainer inner) (hInner : Nested tag.isItem inner)
    (hRest : Nested false rest) : Nested ofItem (tag.around inner ++ rest)

namespace Nested

variable {ofItem : Bool} {events more : List Event}

theorem weaken (h : Nested false events) : Nested ofItem events := by
  cases h with
  | nil => exact .nil
  | content hEvent hRest => exact .content hEvent hRest
  | element hImage hInner hRest => exact .element hImage hInner hRest

theorem append (h : Nested ofItem events) (hMore : Nested false more) :
    Nested ofItem (events ++ more) := by
  induction h with
  | nil => exact hMore.weaken
  | content hEvent _ ih => exact .content hEvent ih
  | task _ ih => exact .task ih
  | element hImage hInner _ _ ih =>
      rw [List.append_assoc]
      exact .element hImage hInner ih

theorem flatMap {α : Type} {f : α → List Event} {items : List α}
    (h : ∀ item ∈ items, Nested false (f item)) : Nested false (items.flatMap f) := by
  induction items with
  | nil => exact .nil
  | cons item rest ih =>
      exact (h item (List.mem_cons_self ..)).append
        (ih fun other hMem => h other (List.mem_cons_of_mem _ hMem))

theorem single {event : Event} (h : event.isContent = true) : Nested false [event] :=
  .content h .nil

/-- An element that is no image. -/
theorem around {tag : Tag} {inner : List Event} (hImage : tag.isImage = false)
    (hInner : Nested tag.isItem inner) : Nested false (tag.around inner) := by
  have hElement : Nested false (tag.around inner ++ []) :=
    .element (fun h => absurd h (by rw [hImage]; decide)) hInner .nil
  rwa [List.append_nil] at hElement

end Nested

theorem HoldsNoContainer.append {events more : List Event} (h : HoldsNoContainer events)
    (hMore : HoldsNoContainer more) : HoldsNoContainer (events ++ more) := by
  intro tag hMem
  rcases List.mem_append.1 hMem with hMem | hMem
  · exact h tag hMem
  · exact hMore tag hMem

/-- An element that is no container holds one only if its content does. -/
theorem HoldsNoContainer.around {tag : Tag} {inner : List Event} (hTag : tag.isContainer = false)
    (hInner : HoldsNoContainer inner) : HoldsNoContainer (tag.around inner) := by
  intro other hMem
  simp only [Tag.around, List.cons_append, List.mem_cons, List.mem_append, List.not_mem_nil,
    or_false, Event.start.injEq, reduceCtorEq] at hMem
  rcases hMem with rfl | hMem
  · exact hTag
  · exact hInner other hMem

mutual

/-- Inline content is nested and holds no containers. -/
theorem Inline.nested_events (inline : Inline) :
    Nested false inline.events ∧ HoldsNoContainer inline.events := by
  have hSingle : ∀ event : Event, event.isContent = true →
      Nested false [event] ∧ HoldsNoContainer [event] := by
    intro event hEvent
    refine ⟨.single hEvent, ?_⟩
    intro tag hMem
    rw [← List.mem_singleton.1 hMem] at hEvent
    cases hEvent
  have hElement : ∀ (tag : Tag) (content : List Inline),
      Nested false (Inline.allEvents content) ∧ HoldsNoContainer (Inline.allEvents content) →
      tag.isContainer = false → tag.isImage = false →
      Nested false (tag.around (Inline.allEvents content)) ∧
        HoldsNoContainer (tag.around (Inline.allEvents content)) :=
    fun tag content h hTag hImage => ⟨.around hImage h.1.weaken, h.2.around hTag⟩
  match inline with
  | .text value => exact hSingle _ rfl
  | .softBreak => exact hSingle _ rfl
  | .hardBreak => exact hSingle _ rfl
  | .code value => exact hSingle _ rfl
  | .html value => exact hSingle _ rfl
  | .emphasis content => exact hElement _ content (Inline.nested_allEvents content) rfl rfl
  | .strong content => exact hElement _ content (Inline.nested_allEvents content) rfl rfl
  | .strikethrough content => exact hElement _ content (Inline.nested_allEvents content) rfl rfl
  | .link url title content => exact hElement _ content (Inline.nested_allEvents content) rfl rfl
  | .image url title content =>
      obtain ⟨hNested, hPlain⟩ := Inline.nested_allEvents content
      have hImage : Nested false ((Tag.image url title).around (Inline.allEvents content) ++ []) :=
        .element (fun _ => hPlain) hNested .nil
      rw [List.append_nil] at hImage
      exact ⟨hImage, hPlain.around rfl⟩

/-- Inline content is nested and holds no container. -/
theorem Inline.nested_allEvents (content : List Inline) :
    Nested false (Inline.allEvents content) ∧ HoldsNoContainer (Inline.allEvents content) := by
  match content with
  | [] => exact ⟨.nil, fun tag hMem => absurd hMem List.not_mem_nil⟩
  | inline :: rest =>
      obtain ⟨hNested, hPlain⟩ := Inline.nested_events inline
      obtain ⟨hRest, hRestPlain⟩ := Inline.nested_allEvents rest
      exact ⟨hNested.append hRest, hPlain.append hRestPlain⟩

end

theorem nested_cellEvents (cells : List (List Inline)) : Nested false (cellEvents cells) :=
  .flatMap fun cell _ => .around rfl (Inline.nested_allEvents cell).1

theorem nested_rowEvents (header : List (List Inline)) (rows : List (List (List Inline))) :
    Nested false (Tag.tableHead.around (cellEvents header) ++
      rows.flatMap fun row => Tag.tableRow.around (cellEvents row)) :=
  .append (.around rfl (nested_cellEvents header))
    (.flatMap fun row _ => .around rfl (nested_cellEvents row))

theorem nested_codeEvents (value : Text) :
    Nested false (if value.isEmpty then [] else [.text value]) := by
  split
  · exact .nil
  · exact .single rfl

mutual

theorem Block.nested_events (block : Block (List Inline)) : Nested false block.events := by
  match block with
  | .paragraph content => exact .around rfl (Inline.nested_allEvents content).1
  | .plain content => exact (Inline.nested_allEvents content).1
  | .heading level content => exact .around rfl (Inline.nested_allEvents content).1
  | .thematicBreak => exact .single rfl
  | .code info value => exact .around rfl (nested_codeEvents value)
  | .html value => exact .around rfl (.single rfl)
  | .quote span blocks => exact .around rfl (Block.nested_allEvents blocks)
  | .list first items => exact .around rfl (Item.nested_allEvents items)
  | .table columns header rows => exact .around rfl (nested_rowEvents header rows)

theorem Block.nested_allEvents (blocks : List (Block (List Inline))) :
    Nested false (Block.allEvents blocks) := by
  match blocks with
  | [] => exact .nil
  | block :: rest => exact (Block.nested_events block).append (Block.nested_allEvents rest)

theorem Item.nested_events (item : Item (List Inline)) : Nested false item.events := by
  match item with
  | .mk span none blocks => exact .around rfl (Block.nested_allEvents blocks).weaken
  | .mk span (some checked) blocks => exact .around rfl (.task (Block.nested_allEvents blocks))

theorem Item.nested_allEvents (items : List (Item (List Inline))) :
    Nested false (Item.allEvents items) := by
  match items with
  | [] => exact .nil
  | item :: rest => exact (Item.nested_events item).append (Item.nested_allEvents rest)

end

def Item.span {α : Type} : Item α → Span
  | .mk span _ _ => span

def Item.innerEvents : Item (List Inline) → List Event
  | .mk _ task blocks =>
    (match task with
      | some checked => [.taskMarker checked]
      | none => []) ++ Block.allEvents blocks

/-- An item is an element around its check box and its blocks. -/
theorem Item.events_eq (item : Item (List Inline)) :
    item.events = (Tag.item item.span).around item.innerEvents := by
  obtain ⟨span, task, blocks⟩ := item
  rfl

/-- Inside an item a check box may come first. -/
theorem Item.nested_innerEvents (item : Item (List Inline)) : Nested true item.innerEvents := by
  match item with
  | .mk _ none blocks => exact (Block.nested_allEvents blocks).weaken
  | .mk _ (some checked) blocks => exact .task (Block.nested_allEvents blocks)

/-- The events of a list are those of its items, each with its start and end. -/
theorem Item.allEvents_eq (items : List (Item (List Inline))) :
    Item.allEvents items =
      items.flatMap fun item => (Tag.item item.span).around item.innerEvents := by
  induction items with
  | nil => rfl
  | cons item rest ih => rw [Item.allEvents, ih, List.flatMap_cons, item.events_eq]

/-- The events of a document are nested. -/
theorem nested_events (gfm : Bool) (source : Text) : Nested false (events gfm source) :=
  Block.nested_allEvents _

end DirectiveMarkdown.Markdown
