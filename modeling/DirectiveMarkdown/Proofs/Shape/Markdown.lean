import DirectiveMarkdown.Proofs.Shape.Node

/-! The shape of the nodes of a run of Markdown. What each element makes has its shape and may stand
anywhere, and only adds to the node that it stands in. Containers that are read again are no exception,
if the content that is read is none. -/
namespace DirectiveMarkdown

open Markdown

variable {read : Text → List Node} {source : Text}

theorem reread?_of_not_isContainer {tag : Tag} (h : tag.isContainer = false) (inner : List Event) :
    reread? read source tag inner = none := by
  cases tag <;> first | rfl | cases h

/-- An element that is no container becomes what its events make. -/
theorem elementNode_of_not_isContainer {tag : Tag} (h : tag.isContainer = false)
    (inner : List Event) : elementNode (reread? read source) tag inner =
      tag.finish (grown (reread? read source) inner tag.node) := by
  rw [elementNode, reread?_of_not_isContainer h]
  rfl

/-- An element adds its node. -/
theorem gains_element (tag : Tag) {inner : List Event} (hNested : Nested tag.isItem inner)
    (hElement : (elementNode (reread? read source) tag inner).IsFlow) (node : Node) :
    Node.Gains node (grown (reread? read source) (tag.around inner) node) := by
  rw [grown_single hNested]
  exact Node.gains_appendChild hElement node

/-- An element whose content may stand anywhere, and which may so itself. -/
theorem gains_around (tag : Tag) {inner : List Event} (hTag : tag.isContainer = false)
    (hImage : tag.isImage = false) (hKind : tag.node.kind.holdsFlow = true)
    (hFlow : tag.node.kind.isFlow = true) (hNested : Nested tag.isItem inner)
    (hInner : Node.Gains tag.node (grown (reread? read source) inner tag.node)) (node : Node) :
    Node.Gains node (grown (reread? read source) (tag.around inner) node) := by
  refine gains_element tag hNested ?_ node
  rw [elementNode_of_not_isContainer hTag, Tag.finish_of_not_image hImage]
  refine ⟨?_, ?_⟩
  · exact (Node.hasOwnShape_node tag).of_gains (Tag.children_node tag) hKind hInner
  · rw [hInner.kind]
    exact hFlow

theorem gains_content {event : Event} (hEvent : event.isContent = true) {node : Node}
    (hNode : node.kind.isLiteral = false) :
    Node.Gains node (grown (reread? read source) [event] node) := by
  rw [grown_content hEvent]
  exact Node.gains_grow hEvent hNode

/-- An image with its description. -/
theorem isFlow_describeImage {url title : Text} {made : Node}
    (hGains : Node.Gains (Tag.image url title).node made) : made.describeImage.IsFlow := by
  have hImage : (Tag.image url title).node.kind = .image := Node.kind_withTitle ..
  have hKind : made.describeImage.kind = .image := hGains.kind.trans hImage
  have hOwn : made.HasOwnShape := by
    rw [hGains.eq]
    exact (Node.hasOwnShape_node _).with_children _
  refine ((hOwn.withAttribute made.textContent (by decide)).with_children []).isFlow rfl ?_ ?_
  · exact congrArg NodeKind.isChildless hKind
  · intro _
    have hAlt := TextMap.get?_insert made.attributes (text "alt") made.textContent (text "alt")
    rw [if_pos rfl] at hAlt
    exact congrArg Option.isSome hAlt

mutual

/-- Inline content adds to the node that it stands in. -/
theorem Markdown.Inline.gains_events (inline : Inline) {node : Node}
    (hNode : node.kind.isLiteral = false) :
    Node.Gains node (grown (reread? read source) inline.events node) := by
  match inline with
  | .text value => exact gains_content rfl hNode
  | .softBreak => exact gains_content rfl hNode
  | .hardBreak => exact gains_content rfl hNode
  | .code value => exact gains_content rfl hNode
  | .html value => exact gains_content rfl hNode
  | .emphasis content =>
      exact gains_around .emphasis rfl rfl rfl rfl (Inline.nested_allEvents content).1
        (Inline.gains_allEvents content rfl) node
  | .strong content =>
      exact gains_around .strong rfl rfl rfl rfl (Inline.nested_allEvents content).1
        (Inline.gains_allEvents content rfl) node
  | .strikethrough content =>
      exact gains_around .strikethrough rfl rfl rfl rfl (Inline.nested_allEvents content).1
        (Inline.gains_allEvents content rfl) node
  | .link url title content =>
      have hLink : (Tag.link url title).node.kind = .link := Node.kind_withTitle ..
      exact gains_around (.link url title) rfl rfl (by rw [hLink]; rfl) (by rw [hLink]; rfl)
        (Inline.nested_allEvents content).1
        (Inline.gains_allEvents content (by rw [hLink]; rfl)) node
  | .image url title content =>
      have hImage : (Tag.image url title).node.kind = .image := Node.kind_withTitle ..
      have hGains : Node.Gains (Tag.image url title).node (grown (reread? read source)
          (Inline.allEvents content) (Tag.image url title).node) :=
        Inline.gains_allEvents content (by rw [hImage]; rfl)
      exact gains_element (.image url title) (Inline.nested_allEvents content).1
        (isFlow_describeImage hGains) node

/-- Inline content only adds children that may stand anywhere. -/
theorem Markdown.Inline.gains_allEvents (content : List Inline) {node : Node}
    (hNode : node.kind.isLiteral = false) :
    Node.Gains node (grown (reread? read source) (Inline.allEvents content) node) := by
  match content with
  | [] => exact .refl node
  | inline :: rest =>
      have hFirst := Inline.gains_events inline hNode
      rw [Inline.allEvents, grown_append (Inline.nested_events inline).1]
      exact hFirst.trans (Inline.gains_allEvents rest (by rw [hFirst.kind]; exact hNode))

end

/-- The node of an element whose content is elements in a row. -/
theorem elementNode_flatMap {α : Type} {tag : Tag} (hTag : tag.isContainer = false)
    (hImage : tag.isImage = false) {part : α → Tag} {inner : α → List Event}
    (hInner : ∀ item, Nested (part item).isItem (inner item)) (items : List α) :
    elementNode (reread? read source) tag
        (items.flatMap fun item => (part item).around (inner item)) =
      { tag.node with
        children := items.map fun item =>
          elementNode (reread? read source) (part item) (inner item) } := by
  rw [elementNode_of_not_isContainer hTag, Tag.finish_of_not_image hImage, grown_flatMap hInner,
    Tag.children_node, List.nil_append]

/-- A row of a table has its cells as children. -/
theorem shaped_row {tag : Tag} (hTag : tag = .tableHead ∨ tag = .tableRow)
    (cells : List (List Inline)) {row : Node}
    (hRow : row = elementNode (reread? read source) tag (cellEvents cells)) :
    (row.Everywhere Node.IsShaped ∧ row.kind = .tableRow) ∧
      row.attributes = tag.node.attributes := by
  have hInner : ∀ cell : List Inline, Nested Tag.tableCell.isItem (Inline.allEvents cell) :=
    fun cell => (Inline.nested_allEvents cell).1
  have hCell : ∀ child ∈ cells.map fun cell =>
      elementNode (reread? read source) .tableCell (Inline.allEvents cell),
      child.Everywhere Node.IsShaped ∧ child.kind = .tableCell := by
    intro child hMem
    obtain ⟨cell, -, rfl⟩ := List.mem_map.1 hMem
    have hGains : Node.Gains Tag.tableCell.node (grown (reread? read source)
        (Inline.allEvents cell) Tag.tableCell.node) := Inline.gains_allEvents cell rfl
    rw [elementNode_of_not_isContainer rfl]
    exact ⟨(Node.hasOwnShape_node .tableCell).of_gains rfl rfl hGains, hGains.kind⟩
  have hKind : tag.isContainer = false ∧ tag.isImage = false ∧ tag.node.kind = .tableRow := by
    rcases hTag with rfl | rfl <;> exact ⟨rfl, rfl, rfl⟩
  obtain ⟨hContainer, hImage, hKind⟩ := hKind
  rw [cellEvents, elementNode_flatMap hContainer hImage hInner cells] at hRow
  have hOwn := (Node.hasOwnShape_node tag).with_children (cells.map fun cell =>
    elementNode (reread? read source) .tableCell (Inline.allEvents cell))
  rw [hRow]
  refine ⟨⟨hOwn.everywhere_of_parts (congrArg NodeKind.part? hKind) hCell ?_, hKind⟩, rfl⟩
  intro hTable
  cases hKind.symm.trans hTable

/-- A table has its rows as children, and the header is the first of them. -/
theorem isFlow_table (columns : List Markdown.Alignment) (header : List (List Inline))
    (rows : List (List (List Inline))) :
    (elementNode (reread? read source) (.table columns)
      (Tag.tableHead.around (cellEvents header) ++
        rows.flatMap fun row => Tag.tableRow.around (cellEvents row))).IsFlow := by
  have hInner : ∀ row : Tag × List (List Inline), Nested row.1.isItem (cellEvents row.2) :=
    fun row => (nested_cellEvents row.2).weaken
  have hEvents : (Tag.tableHead.around (cellEvents header) ++
      rows.flatMap fun row => Tag.tableRow.around (cellEvents row)) =
      ((Tag.tableHead, header) :: rows.map fun row => (Tag.tableRow, row)).flatMap fun row =>
        row.1.around (cellEvents row.2) := by
    rw [List.flatMap_cons, List.flatMap_map]
  rw [hEvents, elementNode_flatMap rfl rfl hInner, List.map_cons, List.map_map]
  obtain ⟨hHead, hHeadAttributes⟩ := shaped_row (.inl rfl) header
    (Eq.refl (elementNode (reread? read source) .tableHead (cellEvents header)))
  have hRest : ∀ row ∈ rows.map ((fun row => elementNode (reread? read source) row.1
      (cellEvents row.2)) ∘ fun row => (Tag.tableRow, row)),
      (row.Everywhere Node.IsShaped ∧ row.kind = .tableRow) ∧ row.attributes = ∅ := by
    intro row hMem
    obtain ⟨cells, -, hRow⟩ := List.mem_map.1 hMem
    exact shaped_row (.inr rfl) cells hRow.symm
  have hOwn := (Node.hasOwnShape_node (.table columns)).with_children
  refine ⟨(hOwn _).everywhere_of_parts rfl ?_ ?_, rfl⟩
  · exact List.forall_mem_cons.2 ⟨hHead, fun row hMem => (hRest row hMem).1⟩
  · refine fun _ => ⟨_, _, rfl, ?_, ?_⟩
    · rw [Node.attribute?, hHeadAttributes]
      rfl
    · intro row hMem
      rw [Node.attribute?, (hRest row hMem).2]
      nofun

theorem isFlow_unwrapParagraphs {nodes : List Node} (h : ∀ node ∈ nodes, node.IsFlow) :
    ∀ node ∈ unwrapParagraphs nodes, node.IsFlow := by
  intro node hMem
  obtain ⟨outer, hOuter, hInner⟩ := List.mem_flatMap.1 hMem
  split at hInner
  · next hParagraph =>
      exact Node.isFlow_children (h outer hOuter).shaped (by rw [hParagraph]; rfl) node hInner
  · rw [List.mem_singleton.1 hInner]
    exact h outer hOuter

/-- A list item that is read again. -/
theorem shaped_rereadNode (span : Span) (inner : List Event) {content : List Node}
    (hContent : ∀ node ∈ content, node.IsFlow) :
    (rereadNode (.item span) inner content).Everywhere Node.IsShaped := by
  have hChildren : ∀ child ∈ if hasParagraph 0 inner then content else unwrapParagraphs content,
      child.IsFlow := by
    split
    · exact hContent
    · exact isFlow_unwrapParagraphs hContent
  have hOwn := (Node.hasOwnShape_node (.item span)).with_children
    (if hasParagraph 0 inner then content else unwrapParagraphs content)
  unfold rereadNode
  dsimp only
  split
  · exact (hOwn.withAttribute _ (by decide)).everywhere_isShaped rfl hChildren
  · exact hOwn.everywhere_isShaped rfl hChildren

/-- A list item has its shape, read again or not. -/
theorem shaped_item (hRead : ∀ content, ∀ node ∈ read content, node.IsFlow)
    {span : Span} {task : Option Bool} {blocks : List (Block (List Inline))}
    (hBlocks : ∀ node : Node, node.kind.isLiteral = false →
      Node.Gains node (grown (reread? read source) (Block.allEvents blocks) node))
    {item : Node} (hItem : item = elementNode (reread? read source) (.item span)
      (Item.mk span task blocks).innerEvents) :
    item.Everywhere Node.IsShaped ∧ item.kind = .listItem := by
  have hOwn := Node.hasOwnShape_node (.item span)
  rw [elementNode, reread?_eq] at hItem
  cases hContent : rereadContent? source (.item span) (Item.mk span task blocks).innerEvents with
  | some content =>
      rw [hContent] at hItem
      have hKind : (rereadNode (.item span) _ (read content)).kind = .listItem :=
        kind_rereadNode rfl (Item.mk span task blocks).innerEvents (read content)
      rw [hItem]
      exact ⟨shaped_rereadNode span _ (hRead content), hKind⟩
  | none =>
      rw [hContent] at hItem
      rw [hItem]
      cases task with
      | none =>
          have hGains := hBlocks (Tag.item span).node rfl
          exact ⟨hOwn.of_gains rfl rfl hGains, hGains.kind⟩
      | some checked =>
          have hTask : grown (reread? read source) (Item.mk span (some checked) blocks).innerEvents
              (Tag.item span).node = grown (reread? read source) (Block.allEvents blocks)
                ((Tag.item span).node.withAttribute (text "checked") (Node.checkedValue checked)) :=
            grown_task checked rfl _
          have hGains := hBlocks
            ((Tag.item span).node.withAttribute (text "checked") (Node.checkedValue checked)) rfl
          rw [← hTask] at hGains
          exact ⟨(hOwn.withAttribute _ (by decide)).of_gains rfl rfl hGains, hGains.kind⟩

/-- A block quote may stand anywhere, read again or not. -/
theorem isFlow_quote (hRead : ∀ content, ∀ node ∈ read content, node.IsFlow) (span : Span)
    {inner : List Event} (hInner : Node.Gains (Tag.quote span).node
      (grown (reread? read source) inner (Tag.quote span).node)) :
    (elementNode (reread? read source) (.quote span) inner).IsFlow := by
  have hOwn := Node.hasOwnShape_node (.quote span)
  rw [elementNode, reread?_eq]
  cases rereadContent? source (.quote span) inner with
  | some content =>
      exact ⟨(hOwn.with_children _).everywhere_isShaped rfl (hRead content), rfl⟩
  | none => exact ⟨hOwn.of_gains rfl rfl hInner, congrArg NodeKind.isFlow hInner.kind⟩

/-- Code holds its text as its value. -/
theorem isFlow_code (info : Option Text) (value : Text) :
    (elementNode (reread? read source) (.code info)
      (if value.isEmpty then [] else [.text value])).IsFlow := by
  have hKind : (Tag.code info).node.kind = .code := by
    rw [Tag.node]
    split <;> rfl
  have hNone := Tag.children_node (.code info)
  have hFlow : ∀ made : Node, made.kind = .code → made.children = [] → made.HasOwnShape →
      made.IsFlow := by
    intro made hCode hNone hOwn
    refine hOwn.isFlow hNone ?_ fun hImage => ?_
    · rw [hCode]
      rfl
    · rw [hCode] at hImage
      cases hImage
  have hOwn := Node.hasOwnShape_node (.code info)
  rw [elementNode_of_not_isContainer rfl, Tag.finish_of_not_image rfl]
  split
  · exact hFlow _ hKind hNone hOwn
  · rw [grown_content rfl, Event.grow, Node.appendText, if_pos hKind]
    refine hFlow _ hKind hNone { hOwn with value := fun _ => ?_ }
    exact (congrArg NodeKind.isLiteral hKind).trans rfl

/-- A block of raw HTML holds its text as its value. -/
theorem isFlow_htmlBlock (value : Text) :
    (elementNode (reread? read source) .htmlBlock [.html value]).IsFlow := by
  rw [elementNode_of_not_isContainer rfl, Tag.finish_of_not_image rfl, grown_content rfl]
  exact Node.isFlow_literal rfl ∅ value

/-- A list has its items as children. -/
theorem isFlow_list (first : Option Nat) (items : List (Item (List Inline)))
    (hItems : ∀ child ∈ items.map fun item =>
      elementNode (reread? read source) (.item item.span) item.innerEvents,
      child.Everywhere Node.IsShaped ∧ child.kind = .listItem) :
    (elementNode (reread? read source) (.list first) (Item.allEvents items)).IsFlow := by
  have hKind : (Tag.list first).node.kind = .list := by cases first <;> rfl
  have hOwn := (Node.hasOwnShape_node (.list first)).with_children
  rw [Item.allEvents_eq, elementNode_flatMap rfl rfl Item.nested_innerEvents]
  refine ⟨(hOwn _).everywhere_of_parts (congrArg NodeKind.part? hKind) hItems ?_, ?_⟩
  · intro hTable
    cases hKind.symm.trans hTable
  · exact congrArg NodeKind.isFlow hKind

mutual

/-- Blocks add to the node that they stand in. -/
theorem Markdown.Block.gains_events (hRead : ∀ content, ∀ node ∈ read content, node.IsFlow)
    (block : Block (List Inline)) {node : Node} (hNode : node.kind.isLiteral = false) :
    Node.Gains node (grown (reread? read source) block.events node) := by
  match block with
  | .paragraph content =>
      exact gains_around .paragraph rfl rfl rfl rfl (Inline.nested_allEvents content).1
        (Inline.gains_allEvents content rfl) node
  | .plain content => exact Inline.gains_allEvents content hNode
  | .heading level content =>
      exact gains_around (.heading level) rfl rfl rfl rfl (Inline.nested_allEvents content).1
        (Inline.gains_allEvents content rfl) node
  | .thematicBreak => exact gains_content rfl hNode
  | .code info value =>
      exact gains_element (.code info) (nested_codeEvents value) (isFlow_code info value) node
  | .html value => exact gains_element .htmlBlock (.single rfl) (isFlow_htmlBlock value) node
  | .quote span blocks =>
      have hInner : Node.Gains (Tag.quote span).node (grown (reread? read source)
          (Block.allEvents blocks) (Tag.quote span).node) := Block.gains_allEvents hRead blocks rfl
      exact gains_element (.quote span) (Block.nested_allEvents blocks)
        (isFlow_quote hRead span hInner) node
  | .list first items =>
      exact gains_element (.list first) (Item.nested_allEvents items)
        (isFlow_list first items (Item.shaped_all hRead items)) node
  | .table columns header rows =>
      exact gains_element (.table columns) (nested_rowEvents header rows)
        (isFlow_table columns header rows) node

/-- Blocks only add children that may stand anywhere. -/
theorem Markdown.Block.gains_allEvents (hRead : ∀ content, ∀ node ∈ read content, node.IsFlow)
    (blocks : List (Block (List Inline))) {node : Node} (hNode : node.kind.isLiteral = false) :
    Node.Gains node (grown (reread? read source) (Block.allEvents blocks) node) := by
  match blocks with
  | [] => exact .refl node
  | block :: rest =>
      have hFirst := Block.gains_events hRead block hNode
      rw [Block.allEvents, grown_append (Block.nested_events block)]
      exact hFirst.trans (Block.gains_allEvents hRead rest (by rw [hFirst.kind]; exact hNode))

/-- The items of a list are list items with their shape. -/
theorem Markdown.Item.shaped_all (hRead : ∀ content, ∀ node ∈ read content, node.IsFlow)
    (items : List (Item (List Inline))) :
    ∀ child ∈ items.map fun item =>
      elementNode (reread? read source) (.item item.span) item.innerEvents,
      child.Everywhere Node.IsShaped ∧ child.kind = .listItem := by
  match items with
  | [] => exact List.forall_mem_nil _
  | .mk span task blocks :: rest =>
      rw [List.map_cons, List.forall_mem_cons]
      have hBlocks := fun (node : Node) (hNode : node.kind.isLiteral = false) =>
        Block.gains_allEvents hRead blocks hNode
      exact ⟨shaped_item hRead hBlocks rfl, Item.shaped_all hRead rest⟩

end

/-- The nodes of a run of Markdown may stand anywhere, if those of what is read again may. -/
theorem isFlow_markdownNodes (gfm : Bool) (hRead : ∀ content, ∀ node ∈ read content, node.IsFlow)
    (source : Text) : ∀ node ∈ markdownNodes gfm read source, node.IsFlow := by
  rw [markdownNodes, finish_assemble (nested_events gfm source)]
  have hGains : Node.Gains { kind := .root } (grown (reread? read source) (events gfm source)
      { kind := .root }) := Block.gains_allEvents hRead _ rfl
  exact hGains.flow (List.forall_mem_nil _)

end DirectiveMarkdown
