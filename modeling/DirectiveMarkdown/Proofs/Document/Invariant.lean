import DirectiveMarkdown.Document.Expansion
import DirectiveMarkdown.Proofs.Document.Content
import DirectiveMarkdown.Proofs.Section.Within

/-! What holds of every node of a document. A property of nodes that holds of all that Markdown makes
of a text, and that no later step of reading takes away, holds everywhere in the document. The steps
are followed in order: events become nodes, containers are read again, sections become directives,
and text is divided around the directives in it. -/
namespace DirectiveMarkdown

open Markdown

theorem Node.kind_withTitle (node : Node) (title : Text) :
    (node.withTitle title).kind = node.kind := by
  unfold Node.withTitle
  split <;> rfl

theorem Node.children_withTitle (node : Node) (title : Text) :
    (node.withTitle title).children = node.children := by
  unfold Node.withTitle
  split <;> rfl

/-- An element starts without children. -/
theorem Markdown.Tag.children_node (tag : Tag) : tag.node.children = [] := by
  cases tag with
  | code info =>
      rw [Tag.node]
      split <;> rfl
  | list first => cases first <;> rfl
  | link url title => exact Node.children_withTitle ..
  | image url title => exact Node.children_withTitle ..
  | _ => rfl

/-- No element starts as text or as a directive, and only a block of HTML as HTML. -/
theorem Markdown.Tag.kind_node_not_mem (tag : Tag) :
    tag.node.kind ∉ [.text, .leafDirective, .textDirective] ∧
      (tag ≠ .htmlBlock → tag.node.kind ≠ .html) := by
  have hPlain : ∀ kind : NodeKind, kind ∉ [.html, .text, .leafDirective, .textDirective] →
      kind ∉ [.text, .leafDirective, .textDirective] ∧ (tag ≠ .htmlBlock → kind ≠ .html) := by
    intro kind hKind
    rw [List.mem_cons, not_or] at hKind
    exact ⟨hKind.2, fun _ => hKind.1⟩
  cases tag with
  | code info =>
      rw [Tag.node]
      split <;> exact hPlain .code (by decide)
  | htmlBlock =>
      exact ⟨(by decide : NodeKind.html ∉ [.text, .leafDirective, .textDirective]),
        fun h => absurd rfl h⟩
  | list first => cases first <;> exact hPlain .list (by decide)
  | link url title =>
      rw [Tag.node, Node.kind_withTitle]
      exact hPlain .link (by decide)
  | image url title =>
      rw [Tag.node, Node.kind_withTitle]
      exact hPlain .image (by decide)
  | heading level => exact hPlain .heading (by decide)
  | quote span => exact hPlain .blockQuote (by decide)
  | item span => exact hPlain .listItem (by decide)
  | table columns => exact hPlain .table (by decide)
  | _ => exact hPlain _ (by decide)

/-- No element starts as text, and only a block of raw HTML starts as HTML. -/
theorem Markdown.Tag.kind_node_ne (tag : Tag) :
    tag.node.kind ≠ .text ∧ (tag ≠ .htmlBlock → tag.node.kind ≠ .html) := by
  obtain ⟨hKind, hHtml⟩ := tag.kind_node_not_mem
  rw [List.mem_cons, not_or] at hKind
  exact ⟨hKind.1, hHtml⟩

/-- Markdown makes no directives. -/
theorem Markdown.Tag.kind_node_not_directive (tag : Tag) :
    tag.node.kind ≠ .leafDirective ∧ tag.node.kind ≠ .textDirective := by
  obtain ⟨hKind, -⟩ := tag.kind_node_not_mem
  rw [List.mem_cons, not_or] at hKind
  simpa using hKind.2

/-- A property holds of a node and of all nodes below it. -/
inductive Node.Everywhere (p : Node → Prop) : Node → Prop
  | intro {node : Node} (here : p node) (below : ∀ child ∈ node.children, Everywhere p child) :
    Everywhere p node

/-- A weaker property holds wherever a stronger one does. -/
theorem Node.Everywhere.mono {p q : Node → Prop} {node : Node} (h : node.Everywhere p)
    (hImp : ∀ node, p node → q node) : node.Everywhere q := by
  induction h with
  | intro hHere _ ih => exact .intro (hImp _ hHere) ih

/-- Kinds of nodes that reading makes of its own accord, whatever the events are. -/
def readerKinds : List NodeKind :=
  [.root, .blockQuote, .listItem, .break, .thematicBreak, .containerDirective, .leafDirective,
   .textDirective]

/-- The property `p` of nodes is kept by reading, as long as all characters of the text that nodes
hold satisfy `a`. -/
structure ReadingKeeps (a : Char → Prop) (p : Node → Prop) : Prop where
  children : ∀ {node : Node} (children : List Node), p node → p { node with children }
  value : ∀ {node : Node} {value : Text}, p node → (∀ c ∈ value, a c) →
    p { node with value := node.value ++ value }
  withAttribute : ∀ {node : Node} {key : Text} (value : Text),
    key ∈ [text "alt", text "checked"] → p node → p (node.withAttribute key value)
  made : ∀ {kind : NodeKind}, kind ∈ readerKinds → ∀ name attributes, p { kind, name, attributes }
  ofText : ∀ {value : Text}, (∀ c ∈ value, a c) → p (.ofText value)
  content : ∀ {node : Node}, p node → node.kind = .text → ∀ c ∈ node.value, a c
  newline : a '\n'

/-- What an event adds to a document has the property. -/
def Markdown.Event.Adds (a : Char → Prop) (p : Node → Prop) : Event → Prop
  | .start tag => p tag.node
  | .text value => ∀ c ∈ value, a c
  | .code value => p { kind := .inlineCode, value }
  | .html value => p (.ofHtml value) ∧ ∀ c ∈ value, a c
  | .stop _ | .softBreak | .hardBreak | .thematicBreak | .taskMarker _ => True

variable {a : Char → Prop} {p : Node → Prop}

namespace ReadingKeeps

theorem everywhere_ofText (h : ReadingKeeps a p) {value : Text} (hValue : ∀ c ∈ value, a c) :
    (Node.ofText value).Everywhere p :=
  .intro (h.ofText hValue) (List.forall_mem_nil _)

theorem everywhere_made (h : ReadingKeeps a p) {kind : NodeKind} (hKind : kind ∈ readerKinds)
    (name : Option Text) (attributes : TextMap) {children : List Node}
    (hChildren : ∀ child ∈ children, child.Everywhere p) :
    Node.Everywhere p { kind, name, attributes, children } :=
  .intro (h.children children (h.made hKind name attributes)) hChildren

theorem appendChild (h : ReadingKeeps a p) {node child : Node} (hNode : node.Everywhere p)
    (hChild : child.Everywhere p) : (node.appendChild child).Everywhere p := by
  obtain ⟨hHere, hBelow⟩ := hNode
  refine .intro (h.children _ hHere) ?_
  intro other hMem
  rcases List.mem_append.1 hMem with hMem | hMem
  · exact hBelow other hMem
  · rw [List.mem_singleton.1 hMem]
    exact hChild

theorem appendValue (h : ReadingKeeps a p) {node : Node} (hNode : node.Everywhere p) {value : Text}
    (hValue : ∀ c ∈ value, a c) :
    Node.Everywhere p { node with value := node.value ++ value } := by
  obtain ⟨hHere, hBelow⟩ := hNode
  exact .intro (h.value hHere hValue) hBelow

theorem appendText (h : ReadingKeeps a p) {node : Node} (hNode : node.Everywhere p) {value : Text}
    (hValue : ∀ c ∈ value, a c) : (node.appendText value).Everywhere p := by
  unfold Node.appendText
  split
  · exact h.appendValue hNode hValue
  · split
    · next last hLast =>
        split
        · obtain ⟨hHere, hBelow⟩ := hNode
          refine .intro (h.children _ hHere) ?_
          intro child hMem
          rcases List.mem_append.1 hMem with hMem | hMem
          · exact hBelow child (List.dropLast_subset _ hMem)
          · rw [List.mem_singleton.1 hMem]
            exact h.appendValue (hBelow last (List.mem_of_getLast? hLast)) hValue
        · exact h.appendChild hNode (h.everywhere_ofText hValue)
    · exact h.appendChild hNode (h.everywhere_ofText hValue)

theorem appendHtml (h : ReadingKeeps a p) {node : Node} (hNode : node.Everywhere p) {value : Text}
    (hHtml : p (.ofHtml value)) (hValue : ∀ c ∈ value, a c) :
    (node.appendHtml value).Everywhere p := by
  unfold Node.appendHtml
  split
  · exact h.appendValue hNode hValue
  · exact h.appendChild hNode (.intro hHtml (List.forall_mem_nil _))

theorem everywhere_withAttribute (h : ReadingKeeps a p) {node : Node} (hNode : node.Everywhere p)
    {key : Text} (hKey : key ∈ [text "alt", text "checked"]) (value : Text) :
    (node.withAttribute key value).Everywhere p := by
  obtain ⟨hHere, hBelow⟩ := hNode
  exact .intro (h.withAttribute value hKey hHere) hBelow

/-- An image keeps the property when it is described. -/
theorem describeImage (h : ReadingKeeps a p) {node : Node} (hNode : node.Everywhere p) :
    node.describeImage.Everywhere p := by
  obtain ⟨hHere, -⟩ := hNode
  have hAttribute := h.withAttribute node.textContent (List.mem_cons_self ..) hHere
  exact .intro (h.children [] hAttribute) (List.forall_mem_nil _)

end ReadingKeeps

/-- The property holds everywhere in the nodes that are being read. -/
def Assembly.Holds (p : Node → Prop) (assembly : Assembly) : Prop :=
  ∀ node ∈ assembly.top :: assembly.outer, node.Everywhere p

namespace Assembly

theorem Holds.top {assembly : Assembly} (h : assembly.Holds p) : assembly.top.Everywhere p :=
  h _ (List.mem_cons_self ..)

theorem Holds.withTop {assembly : Assembly} (h : assembly.Holds p) {node : Node}
    (hNode : node.Everywhere p) : Holds p { assembly with top := node } := by
  intro other hMem
  rcases List.mem_cons.1 hMem with rfl | hMem
  · exact hNode
  · exact h other (List.mem_cons_of_mem _ hMem)

/-- The property holds before the first event. -/
theorem holds_new (h : ReadingKeeps a p) : Holds p {} := by
  intro node hMem
  rw [List.mem_singleton.1 hMem]
  exact h.everywhere_made (List.mem_cons_self ..) none ∅ (List.forall_mem_nil _)

theorem Holds.push (h : ReadingKeeps a p) {assembly : Assembly} (hHolds : assembly.Holds p)
    {node : Node} (hNode : node.Everywhere p) : (assembly.push node).Holds p :=
  hHolds.withTop (h.appendChild hHolds.top hNode)

theorem Holds.close (h : ReadingKeeps a p) {assembly : Assembly} (hHolds : assembly.Holds p) :
    assembly.close.Holds p := by
  unfold Assembly.close
  split
  · exact hHolds
  · next parent outer hOuter =>
      have hParent : parent.Everywhere p := by
        refine hHolds parent (List.mem_cons_of_mem _ ?_)
        rw [hOuter]
        exact List.mem_cons_self ..
      intro node hMem
      rcases List.mem_cons.1 hMem with rfl | hMem
      · exact h.appendChild hParent hHolds.top
      · refine hHolds node (List.mem_cons_of_mem _ ?_)
        rw [hOuter]
        exact List.mem_cons_of_mem _ hMem

/-- A check box changes nothing but attributes. -/
theorem forall_checkItem {q : Node → Prop} {value : Text}
    (hAttribute : ∀ node, q node → q (node.withAttribute (text "checked") value))
    {nodes : List Node} (hNodes : ∀ node ∈ nodes, q node) : ∀ node ∈ checkItem value nodes, q node := by
  induction nodes with
  | nil => exact hNodes
  | cons first rest ih =>
      obtain ⟨hFirst, hRest⟩ := List.forall_mem_cons.1 hNodes
      unfold checkItem
      split
      · exact List.forall_mem_cons.2 ⟨hAttribute first hFirst, hRest⟩
      · exact List.forall_mem_cons.2 ⟨hFirst, ih hRest⟩

theorem everywhere_checkItem (h : ReadingKeeps a p) (value : Text) {nodes : List Node}
    (hNodes : ∀ node ∈ nodes, node.Everywhere p) :
    ∀ node ∈ checkItem value nodes, node.Everywhere p :=
  forall_checkItem (fun _ hNode => h.everywhere_withAttribute hNode (by simp) value) hNodes

/-- One event keeps the property. -/
theorem Holds.step (h : ReadingKeeps a p) {assembly : Assembly} (hHolds : assembly.Holds p)
    {event : Event} (hEvent : event.Adds a p) : (assembly.step event).Holds p := by
  have hMade : ∀ kind ∈ readerKinds, Node.Everywhere p { kind } := fun kind hKind =>
    h.everywhere_made hKind none ∅ (List.forall_mem_nil _)
  cases event with
  | start tag =>
      intro node hMem
      rcases List.mem_cons.1 hMem with rfl | hMem
      · have hChildren : ∀ child ∈ tag.node.children, child.Everywhere p := by
          rw [Tag.children_node]
          exact List.forall_mem_nil _
        exact .intro hEvent hChildren
      · exact hHolds node hMem
  | stop tag =>
      cases tag with
      | image url title => exact Holds.close h (hHolds.withTop (h.describeImage hHolds.top))
      | _ => exact Holds.close h hHolds
  | text value => exact hHolds.withTop (h.appendText hHolds.top hEvent)
  | softBreak =>
      refine hHolds.withTop (h.appendText hHolds.top ?_)
      intro c hMem
      rw [List.mem_singleton.1 hMem]
      exact h.newline
  | code value =>
      exact Holds.push h hHolds (.intro hEvent (List.forall_mem_nil _))
  | html value => exact hHolds.withTop (h.appendHtml hHolds.top hEvent.1 hEvent.2)
  | hardBreak => exact Holds.push h hHolds (hMade .break (by decide))
  | thematicBreak => exact Holds.push h hHolds (hMade .thematicBreak (by decide))
  | taskMarker checked =>
      have hChecked := everywhere_checkItem h (Node.checkedValue checked) hHolds
      unfold Assembly.step
      dsimp only
      split
      · next top outer hStack =>
          rw [hStack] at hChecked
          exact hChecked
      · exact hHolds

/-- All nodes of a finished document have the property. -/
theorem Holds.finish (h : ReadingKeeps a p) {assembly : Assembly} (hHolds : assembly.Holds p) :
    ∀ node ∈ assembly.finish, node.Everywhere p := by
  obtain ⟨top, outer⟩ := assembly
  have hRoot : (outer.foldl (fun node parent => parent.appendChild node) top).Everywhere p := by
    induction outer generalizing top with
    | nil => exact hHolds.top
    | cons parent outer ih =>
        have hClosed : Assembly.Holds p ⟨parent.appendChild top, outer⟩ := Holds.close h hHolds
        exact ih _ hClosed
  obtain ⟨-, hBelow⟩ := hRoot
  exact hBelow

end Assembly

/-- Events keep the property, if the containers that are answered for have it. -/
theorem holds_assemble (h : ReadingKeeps a p) {reread : Tag → List Event → Option Node}
    (hReread : ∀ tag inner node, reread tag inner = some node → node.Everywhere p)
    {events : List Event} (hEvents : ∀ event ∈ events, event.Adds a p) (skip : Nat)
    {assembly : Assembly} (hHolds : assembly.Holds p) :
    (assemble reread skip assembly events).Holds p := by
  fun_induction assemble reread skip assembly events with
  | case1 => exact hHolds
  | case2 assembly tag rest node hNode ih =>
      obtain ⟨inner, -, hInner⟩ := Option.bind_eq_some_iff.1 hNode
      exact ih (fun event hMem => hEvents event (List.mem_cons_of_mem _ hMem))
        (Assembly.Holds.push h hHolds (hReread tag inner node hInner))
  | case3 assembly tag rest hNone ih =>
      exact ih (fun event hMem => hEvents event (List.mem_cons_of_mem _ hMem))
        (Assembly.Holds.step h hHolds (hEvents _ (List.mem_cons_self ..)))
  | case4 assembly event rest hOther ih =>
      exact ih (fun event hMem => hEvents event (List.mem_cons_of_mem _ hMem))
        (Assembly.Holds.step h hHolds (hEvents _ (List.mem_cons_self ..)))
  | case5 skip assembly tag rest ih =>
      exact ih (fun event hMem => hEvents event (List.mem_cons_of_mem _ hMem)) hHolds
  | case6 skip assembly tag rest ih =>
      exact ih (fun event hMem => hEvents event (List.mem_cons_of_mem _ hMem)) hHolds
  | case7 skip assembly event rest hStart hStop ih =>
      exact ih (fun event hMem => hEvents event (List.mem_cons_of_mem _ hMem)) hHolds

theorem everywhere_unwrapParagraphs {nodes : List Node} (hNodes : ∀ node ∈ nodes, node.Everywhere p) :
    ∀ node ∈ unwrapParagraphs nodes, node.Everywhere p := by
  intro node hMem
  obtain ⟨outer, hOuter, hInner⟩ := List.mem_flatMap.1 hMem
  obtain ⟨-, hBelow⟩ := hNodes outer hOuter
  split at hInner
  · exact hBelow node hInner
  · rw [List.mem_singleton.1 hInner]
    exact hNodes outer hOuter

/-- A container has the property if the content that is read again has it. -/
theorem everywhere_rereadNode (h : ReadingKeeps a p) (tag : Tag) (inner : List Event)
    {content : List Node} (hContent : ∀ node ∈ content, node.Everywhere p) :
    (rereadNode tag inner content).Everywhere p := by
  unfold rereadNode
  split
  · have hChildren : ∀ node ∈ if hasParagraph 0 inner then content else unwrapParagraphs content,
        node.Everywhere p := by
      split
      · exact hContent
      · exact everywhere_unwrapParagraphs hContent
    have hKind : NodeKind.listItem ∈ readerKinds := by decide
    have hItem := h.everywhere_made hKind none ∅ hChildren
    dsimp only
    split
    · exact h.everywhere_withAttribute hItem (by simp) _
    · exact hItem
  · exact h.everywhere_made (by decide) none ∅ hContent

/-- A run of Markdown keeps the property, if what is read again has it. -/
theorem everywhere_markdownNodes (h : ReadingKeeps a p) {gfm : Bool} {read : Text → List Node}
    {source : Text} (hEvents : ∀ event ∈ events gfm source, event.Adds a p)
    (hRead : ∀ content : Text, content.Sublist source → ∀ node ∈ read content, node.Everywhere p) :
    ∀ node ∈ markdownNodes gfm read source, node.Everywhere p := by
  refine Assembly.Holds.finish h (holds_assemble h ?_ hEvents 0 (Assembly.holds_new h))
  intro tag inner node hNode
  rw [reread?_eq] at hNode
  obtain ⟨content, hContent, rfl⟩ := Option.map_eq_some_iff.1 hNode
  exact everywhere_rereadNode h tag inner (hRead content (rereadContent?_sublist hContent).1)

theorem everywhere_labelNodes {markdown : Text → List Node} {label : Text}
    (hMarkdown : ∀ node ∈ markdown label, node.Everywhere p) :
    ∀ node ∈ labelNodes markdown label, node.Everywhere p := by
  unfold labelNodes
  split
  · exact List.forall_mem_nil _
  · exact everywhere_unwrapParagraphs hMarkdown

theorem everywhere_containerNode (h : ReadingKeeps a p) (directive : DirectiveBody)
    {children : List Node} (hChildren : ∀ child ∈ children, child.Everywhere p) :
    (containerNode directive children).Everywhere p := by
  have hKind : NodeKind.containerDirective ∈ readerKinds := by decide
  unfold containerNode
  dsimp only
  split
  · exact h.everywhere_made hKind _ _ hChildren
  · exact h.everywhere_made hKind (some directive.name)
      (directive.arguments.toAttributes.insert (text "label") directive.arguments.label) hChildren

/-- The nodes of sections in order are those of each of them. -/
theorem mem_allNodes {markdown : Text → List Node} {sections : List Section} {node : Node}
    (h : node ∈ Section.allNodes markdown sections) :
    ∃ piece ∈ sections, node ∈ piece.nodes markdown := by
  induction sections with
  | nil => cases h
  | cons piece rest ih =>
      rcases List.mem_append.1 h with h | h
      · exact ⟨piece, List.mem_cons_self .., h⟩
      · obtain ⟨other, hOther, hNode⟩ := ih h
        exact ⟨other, List.mem_cons_of_mem _ hOther, hNode⟩

/-- Sections keep the property, if runs of Markdown do. -/
theorem everywhere_sectionNodes (h : ReadingKeeps a p) {markdown : Text → List Node} {source : Text}
    (hMarkdown : ∀ run : Text, run.Sublist source → ∀ node ∈ markdown run, node.Everywhere p)
    {piece : Section} (hPiece : piece.Within source) :
    ∀ node ∈ piece.nodes markdown, node.Everywhere p := by
  induction hPiece with
  | markdown hRun => exact hMarkdown _ hRun
  | leaf hLabel =>
      intro node hMem
      rw [Section.nodes, List.mem_singleton] at hMem
      rw [hMem]
      exact h.everywhere_made (by decide) _ _ (everywhere_labelNodes (hMarkdown _ hLabel))
  | container _ ih =>
      intro node hMem
      rw [Section.nodes, List.mem_singleton] at hMem
      rw [hMem]
      refine everywhere_containerNode h _ ?_
      intro child hChild
      obtain ⟨piece, hPiece, hNode⟩ := mem_allNodes hChild
      exact ih piece hPiece child hNode

section Reading

variable {gfm : Bool}

/-- A source keeps the property, if the events of runs of Markdown do. -/
theorem everywhere_fragmentUpTo (h : ReadingKeeps a p)
    (hEvents : ∀ source : Text, (∀ c ∈ source, a c) → ∀ event ∈ events gfm source, event.Adds a p)
    (fuel : Nat) {source : Text} (hSource : ∀ c ∈ source, a c) :
    ∀ node ∈ fragmentUpTo gfm fuel source, node.Everywhere p := by
  induction fuel generalizing source with
  | zero => exact List.forall_mem_nil _
  | succ fuel ih =>
      intro node hMem
      obtain ⟨piece, hPiece, hNode⟩ := mem_allNodes hMem
      refine everywhere_sectionNodes h ?_ (Section.within_split source piece hPiece) node hNode
      intro run hRun
      have hChars : ∀ c ∈ run, a c := fun c hMem => hSource c (hRun.mem hMem)
      exact everywhere_markdownNodes h (hEvents run hChars) fun content hContent =>
        ih fun c hMem => hChars c (hContent.mem hMem)

/-- The content of a label has the property if every event that is read from it adds only what has
it. -/
theorem everywhere_inlineNodes (h : ReadingKeeps a p)
    (hEvents : ∀ source : Text, (∀ c ∈ source, a c) → ∀ event ∈ events gfm source, event.Adds a p)
    {label : Text} (hLabel : ∀ c ∈ label, a c) :
    ∀ node ∈ inlineNodes gfm label, node.Everywhere p :=
  everywhere_labelNodes (everywhere_markdownNodes h (hEvents label hLabel) fun _ hContent =>
    everywhere_fragmentUpTo h hEvents _ fun c hMem => hLabel c (hContent.mem hMem))

/-- The pieces of a text keep the property, if the labels of the directives in it do. -/
theorem everywhere_splitTextUpTo (h : ReadingKeeps a p) {label : Text → List Node}
    (hLabel : ∀ s : Text, (∀ c ∈ s, a c) → ∀ node ∈ label s, node.Everywhere p) (fuel : Nat)
    (previous : Option Char) {s : Text} (hText : ∀ c ∈ s, a c) :
    ∀ node ∈ splitTextUpTo label fuel previous s, node.Everywhere p := by
  have hPiece : ∀ value : Text, (∀ c ∈ value, a c) → ∀ node ∈ textPiece value,
      node.Everywhere p := by
    intro value hValue node hMem
    unfold textPiece at hMem
    split at hMem
    · cases hMem
    · rw [List.mem_singleton.1 hMem]
      exact h.everywhere_ofText hValue
  induction fuel generalizing previous s with
  | zero => exact hPiece s hText
  | succ fuel ih =>
      unfold splitTextUpTo
      split
      · exact hPiece s hText
      · next found hFound =>
          obtain ⟨hBefore, hArguments, hAfter⟩ := InlineDirective.find?_sublist hFound
          intro node hMem
          rcases List.mem_append.1 hMem with hMem | hMem
          · exact hPiece _ (fun c hMem => hText c (hBefore.mem hMem)) node hMem
          · rcases List.mem_cons.1 hMem with rfl | hMem
            · exact h.everywhere_made (by decide) _ _
                (hLabel _ fun c hMem => hText c (hArguments.mem (List.mem_cons_of_mem _ hMem)))
            · exact ih _ (fun c hMem => hText c (hAfter.mem hMem)) node hMem

/-- What expansion leaves among siblings is one of them, or a part of one that is text. -/
theorem mem_expandAll {label : Text → Text → List Node} {nodes : List Node} {node : Node}
    (h : node ∈ Node.expandAll label nodes) :
    ∃ child ∈ nodes, node = child.expandWith label ∨ child.kind = .text ∧
      node ∈ splitTextUpTo (label child.value) child.value.length none child.value := by
  induction nodes with
  | nil => cases h
  | cons first rest ih =>
      rcases List.mem_append.1 h with h | h
      · refine ⟨first, List.mem_cons_self .., ?_⟩
        split at h
        · next hText => exact .inr ⟨hText.1, h⟩
        · exact .inl (List.mem_singleton.1 h)
      · obtain ⟨child, hChild, hNode⟩ := ih h
        exact ⟨child, List.mem_cons_of_mem _ hChild, hNode⟩

/-- Expansion keeps the property, if the content of labels has it. -/
theorem everywhere_expandWith (h : ReadingKeeps a p) {label : Text → Text → List Node}
    (hLabel : ∀ value s : Text, (∀ c ∈ s, a c) → ∀ node ∈ label value s, node.Everywhere p)
    {node : Node} (hNode : node.Everywhere p) : (node.expandWith label).Everywhere p := by
  induction hNode with
  | @intro node hHere hBelow ih =>
      obtain ⟨kind, name, attributes, metadata, children, value⟩ := node
      refine .intro (h.children _ hHere) ?_
      intro made hMade
      obtain ⟨child, hChild, rfl | ⟨hText, hPiece⟩⟩ := mem_expandAll hMade
      · exact ih child hChild
      · obtain ⟨hOwn, -⟩ := hBelow child hChild
        exact everywhere_splitTextUpTo h (hLabel child.value) _ none (h.content hOwn hText) made hPiece

/-- Expansion keeps the property if what labels are read as has it. -/
theorem everywhere_expandAll (h : ReadingKeeps a p) {label : Text → Text → List Node}
    (hLabel : ∀ value s : Text, (∀ c ∈ s, a c) → ∀ node ∈ label value s, node.Everywhere p)
    {nodes : List Node} (hNodes : ∀ node ∈ nodes, node.Everywhere p) :
    ∀ node ∈ Node.expandAll label nodes, node.Everywhere p := by
  intro made hMade
  obtain ⟨child, hChild, rfl | ⟨hText, hPiece⟩⟩ := mem_expandAll hMade
  · exact everywhere_expandWith h hLabel (hNodes child hChild)
  · obtain ⟨hOwn, -⟩ := hNodes child hChild
    exact everywhere_splitTextUpTo h (hLabel child.value) _ none (h.content hOwn hText) made hPiece

/-- Labels keep the property, however deep they are nested. -/
theorem everywhere_expandedLabel (h : ReadingKeeps a p)
    (hEvents : ∀ source : Text, (∀ c ∈ source, a c) → ∀ event ∈ events gfm source, event.Adds a p)
    (fuel : Nat) {label : Text} (hLabel : ∀ c ∈ label, a c) :
    ∀ node ∈ expandedLabel gfm fuel label, node.Everywhere p := by
  induction fuel generalizing label with
  | zero => exact List.forall_mem_nil _
  | succ fuel ih =>
      exact everywhere_expandAll h (fun _ s hInner => ih hInner)
        (everywhere_inlineNodes h hEvents hLabel)

/-- What holds of all that runs of Markdown make, and is kept by reading, holds of every node of a
document. -/
theorem everywhere_parseDocument (h : ReadingKeeps a p)
    (hEvents : ∀ source : Text, (∀ c ∈ source, a c) → ∀ event ∈ events gfm source, event.Adds a p)
    {source : Text} (hSource : ∀ c ∈ source, a c) : (parseDocument gfm source).Everywhere p := by
  refine everywhere_expandWith h (fun value s hInner => everywhere_expandedLabel h hEvents _ hInner) ?_
  exact h.everywhere_made (by decide) none ∅ (everywhere_fragmentUpTo h hEvents _ hSource)

end Reading

end DirectiveMarkdown
