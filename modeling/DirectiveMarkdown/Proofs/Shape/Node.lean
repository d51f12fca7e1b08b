import DirectiveMarkdown.Proofs.Document.Growth
import DirectiveMarkdown.Proofs.Document.Invariant

/-! The shape of syntax trees. Nodes can be put together in any way, but reading makes trees in which
each kind has the fields and the children that go with it. A node that reading has not ended yet only
gains children. -/
namespace DirectiveMarkdown

open Markdown

namespace NodeKind

/-- Kinds of nodes that have no children. -/
def isChildless : NodeKind → Bool
  | text | code | inlineCode | html | image | .break | thematicBreak => true
  | _ => false

/-- Kinds of nodes that may stand in any node with children. The others are the root and the parts of
lists and tables. -/
def isFlow : NodeKind → Bool
  | root | listItem | tableRow | tableCell => false
  | _ => true

/-- Kinds of nodes whose children are of those kinds. -/
def holdsFlow : NodeKind → Bool
  | list | table | tableRow => false
  | kind => !kind.isChildless

/-- The kind of the children of lists, tables and their rows. -/
def part? : NodeKind → Option NodeKind
  | list => some listItem
  | table => some tableRow
  | tableRow => some tableCell
  | _ => none

/-- The root, list items, rows and cells stand in their own places only. -/
theorem isFlow_iff (kind : NodeKind) : kind.isFlow = true ↔
    kind ≠ root ∧ kind ≠ listItem ∧ kind ≠ tableRow ∧ kind ≠ tableCell := by
  cases kind <;> decide

/-- Lists, tables and rows have children of one kind only. -/
theorem holdsFlow_iff (kind : NodeKind) : kind.holdsFlow = true ↔
    kind.isChildless = false ∧ kind ≠ list ∧ kind ≠ table ∧ kind ≠ tableRow := by
  cases kind <;> decide

/-- A kind has no children, any that may stand anywhere, or parts. -/
theorem isChildless_or_holdsFlow_or_part (kind : NodeKind) :
    kind.isChildless = true ∨ kind.holdsFlow = true ∨
      ∃ part, kind.part? = some part ∧ part ≠ text := by
  cases kind <;> simp [isChildless, holdsFlow, part?]

end NodeKind

namespace Node

/-- The fields of the node go with its kind. -/
structure HasOwnShape (node : Node) : Prop where
  metadata : node.metadata = none
  named : node.name.isSome = node.kind.isDirective
  name : ∀ name ∈ node.name, isDirectiveName name = true
  value : node.value ≠ [] → node.kind.isLiteral = true
  depth : node.kind = .heading → ∃ depth, 1 ≤ depth ∧ depth ≤ 6 ∧
    node.attribute? (text "depth") = some (Text.ofNat depth)

/-- The fields and the children of the node go with its kind. -/
structure IsShaped (node : Node) : Prop extends HasOwnShape node where
  description : node.kind = .image → (node.attribute? (text "alt")).isSome = true
  childless : node.kind.isChildless = true → node.children = []
  notRoot : ∀ child ∈ node.children, child.kind ≠ .root
  items : ∀ child ∈ node.children, child.kind = .listItem ↔ node.kind = .list
  rows : ∀ child ∈ node.children, child.kind = .tableRow ↔ node.kind = .table
  cells : ∀ child ∈ node.children, child.kind = .tableCell ↔ node.kind = .tableRow
  header : node.kind = .table → ∃ head rest, node.children = head :: rest ∧
    head.attribute? (text "header") = some (text "true") ∧
    ∀ row ∈ rest, row.attribute? (text "header") ≠ some (text "true")

/-- A tree of nodes with their shape that may stand in any node with children. -/
structure IsFlow (node : Node) : Prop where
  shaped : node.Everywhere IsShaped
  kind : node.kind.isFlow = true

variable {node : Node}

/-- A node may have any children that may stand anywhere, if its kind does not ask for others. -/
theorem HasOwnShape.everywhere_isShaped (h : node.HasOwnShape) (hKind : node.kind.holdsFlow = true)
    (hChildren : ∀ child ∈ node.children, child.IsFlow) : node.Everywhere IsShaped := by
  obtain ⟨hNotChildless, hList, hTable, hRow⟩ := (NodeKind.holdsFlow_iff _).1 hKind
  have hChild := fun child hMem => (NodeKind.isFlow_iff _).1 (hChildren child hMem).kind
  refine .intro ?_ fun child hMem => (hChildren child hMem).shaped
  exact {
    toHasOwnShape := h
    description := fun hImage => by
      rw [hImage] at hNotChildless
      cases hNotChildless
    childless := fun hChildless => by
      rw [hChildless] at hNotChildless
      cases hNotChildless
    notRoot := fun child hMem => (hChild child hMem).1
    items := fun child hMem => iff_of_false (hChild child hMem).2.1 hList
    rows := fun child hMem => iff_of_false (hChild child hMem).2.2.1 hTable
    cells := fun child hMem => iff_of_false (hChild child hMem).2.2.2 hRow
    header := fun hEq => absurd hEq hTable }

/-- A list, a table or a row has its parts as children, and a table a header among them. -/
theorem HasOwnShape.everywhere_of_parts (h : node.HasOwnShape) {part : NodeKind}
    (hPart : node.kind.part? = some part)
    (hChildren : ∀ child ∈ node.children, child.Everywhere IsShaped ∧ child.kind = part)
    (hHeader : node.kind = .table → ∃ head rest, node.children = head :: rest ∧
      head.attribute? (text "header") = some (text "true") ∧
      ∀ row ∈ rest, row.attribute? (text "header") ≠ some (text "true")) :
    node.Everywhere IsShaped := by
  refine .intro ?_ fun child hMem => (hChildren child hMem).1
  have hKind : ∀ kind part : NodeKind, kind.part? = some part →
      kind ≠ .image ∧ kind.isChildless = false ∧ part ≠ .root ∧
      (part = .listItem ↔ kind = .list) ∧ (part = .tableRow ↔ kind = .table) ∧
      (part = .tableCell ↔ kind = .tableRow) := by
    intro kind part hPart
    cases kind <;> cases hPart <;> decide
  obtain ⟨hImage, hChildless, hRoot, hItem, hRow, hCell⟩ := hKind _ _ hPart
  have hEq : ∀ child ∈ node.children, child.kind = part := fun child hMem =>
    (hChildren child hMem).2
  exact {
    toHasOwnShape := h
    description := fun hEq => absurd hEq hImage
    childless := fun hTrue => by
      rw [hTrue] at hChildless
      cases hChildless
    notRoot := fun child hMem => hEq child hMem ▸ hRoot
    items := fun child hMem => hEq child hMem ▸ hItem
    rows := fun child hMem => hEq child hMem ▸ hRow
    cells := fun child hMem => hEq child hMem ▸ hCell
    header := hHeader }

/-- The children of lists, tables and rows are of the kind that goes with them. -/
theorem IsShaped.kind_of_part (h : node.IsShaped) {part : NodeKind}
    (hPart : node.kind.part? = some part) : ∀ child ∈ node.children, child.kind = part := by
  intro child hMem
  cases hKind : node.kind <;> rw [hKind] at hPart <;> cases hPart
  · exact (h.items child hMem).2 hKind
  · exact (h.rows child hMem).2 hKind
  · exact (h.cells child hMem).2 hKind

/-- The children of such a node may stand anywhere. -/
theorem isFlow_children (h : node.Everywhere IsShaped) (hKind : node.kind.holdsFlow = true) :
    ∀ child ∈ node.children, child.IsFlow := by
  obtain ⟨-, hList, hTable, hRow⟩ := (NodeKind.holdsFlow_iff _).1 hKind
  obtain ⟨hHere, hBelow⟩ := h
  intro child hMem
  refine ⟨hBelow child hMem, (NodeKind.isFlow_iff _).2 ⟨hHere.notRoot child hMem, ?_, ?_, ?_⟩⟩
  · exact fun hEq => hList ((hHere.items child hMem).1 hEq)
  · exact fun hEq => hTable ((hHere.rows child hMem).1 hEq)
  · exact fun hEq => hRow ((hHere.cells child hMem).1 hEq)

/-- A node without children. An image needs its description. -/
theorem HasOwnShape.isFlow (h : node.HasOwnShape) (hNone : node.children = [])
    (hKind : node.kind.isChildless = true)
    (hImage : node.kind = .image → (node.attribute? (text "alt")).isSome = true) :
    node.IsFlow := by
  have hChild : ∀ p : Node → Prop, ∀ child ∈ node.children, p child := by
    rw [hNone]
    exact fun p => List.forall_mem_nil p
  have hFlow : ∀ kind : NodeKind, kind.isChildless = true → kind.isFlow = true ∧ kind ≠ .table := by
    intro kind hKind
    cases kind <;> first | exact ⟨rfl, by decide⟩ | cases hKind
  refine ⟨.intro ?_ (hChild _), (hFlow _ hKind).1⟩
  exact {
    toHasOwnShape := h
    description := hImage
    childless := fun _ => hNone
    notRoot := hChild _
    items := hChild _
    rows := hChild _
    cells := hChild _
    header := fun hEq => absurd hEq (hFlow _ hKind).2 }

/-- A node without a name and a value, if its kind asks for no more. -/
theorem hasOwnShape_plain {kind : NodeKind} (hKind : kind.isDirective = false)
    (hHeading : kind ≠ .heading) (attributes : TextMap) (children : List Node) :
    HasOwnShape { kind, attributes, children } where
  metadata := rfl
  named := hKind.symm
  name := by rintro _ ⟨⟩
  value := fun hValue => absurd rfl hValue
  depth := fun hDepth => absurd hDepth hHeading

/-- The fields go with the kind of any node that an element starts with. -/
theorem hasOwnShape_node (tag : Tag) : tag.node.HasOwnShape := by
  have hTitle : ∀ (kind : NodeKind) (url title : Text), kind.isDirective = false →
      kind ≠ .heading →
      HasOwnShape (({ kind : Node }.withAttribute (text "url") url).withTitle title) := by
    intro kind url title hName hHeading
    unfold withTitle
    split <;> exact hasOwnShape_plain hName hHeading _ []
  cases tag with
  | heading level =>
      have hParagraph : HasOwnShape { kind := .paragraph } := hasOwnShape_plain rfl (by decide) ∅ []
      refine { hParagraph with depth := fun _ => ?_ }
      refine ⟨level.val + 1, Nat.le_add_left .., level.isLt, ?_⟩
      exact (TextMap.get?_insert ..).trans (if_pos rfl)
  | code info =>
      rw [Tag.node]
      split <;> exact hasOwnShape_plain rfl (by decide) _ []
  | list first => cases first <;> exact hasOwnShape_plain rfl (by decide) _ []
  | link url title => exact hTitle .link url title rfl (by decide)
  | image url title => exact hTitle .image url title rfl (by decide)
  | _ => exact hasOwnShape_plain rfl (by decide) _ []

/-- The fields of a node say nothing of its children. -/
theorem HasOwnShape.with_children (h : node.HasOwnShape) (children : List Node) :
    HasOwnShape { node with children } :=
  { h with }

/-- Any attribute but the depth may be given another value. -/
theorem HasOwnShape.withAttribute (h : node.HasOwnShape) {key : Text} (value : Text)
    (hKey : key ≠ text "depth") : (node.withAttribute key value).HasOwnShape := by
  refine { h with depth := fun hHeading => ?_ }
  obtain ⟨depth, hLeast, hMost, hDepth⟩ := h.depth hHeading
  refine ⟨depth, hLeast, hMost, ?_⟩
  rw [← hDepth]
  exact (TextMap.get?_insert ..).trans (if_neg hKey.symm)

/-- A literal with a value. -/
theorem isFlow_literal {kind : NodeKind} (hKind : kind.isLiteral = true) (attributes : TextMap)
    (value : Text) : IsFlow { kind, attributes, value } := by
  have hOwn : HasOwnShape { kind, attributes, value } :=
    { metadata := rfl
      named := by cases kind <;> first | rfl | cases hKind
      name := by rintro _ ⟨⟩
      value := fun _ => hKind
      depth := fun hHeading => by subst hHeading; cases hKind }
  refine hOwn.isFlow rfl ?_ ?_
  · cases kind <;> first | rfl | cases hKind
  · intro hImage
    subst hImage
    cases hKind

theorem isFlow_break {kind : NodeKind} (hKind : kind = .break ∨ kind = .thematicBreak) :
    IsFlow { kind } := by
  have hOwn : HasOwnShape { kind } := by
    rcases hKind with rfl | rfl <;> exact hasOwnShape_plain rfl (by decide) ∅ []
  exact hOwn.isFlow rfl (by rcases hKind with rfl | rfl <;> rfl)
    (by rcases hKind with rfl | rfl <;> nofun)

/-- Text may grow. -/
theorem IsFlow.appendValue (h : node.IsFlow) (hText : node.kind = .text) (value : Text) :
    IsFlow { node with value := node.value ++ value } := by
  obtain ⟨hHere, -⟩ := h.shaped
  have hKind : node.kind.isChildless = true := by rw [hText]; rfl
  have hOwn : HasOwnShape { node with value := node.value ++ value } :=
    { hHere.toHasOwnShape with
      value := fun _ => by
        rw [hText]
        rfl }
  exact hOwn.isFlow (hHere.childless hKind) hKind hHere.description

/-- More children that may stand anywhere have been added, and nothing else. -/
structure Gains (before after : Node) : Prop where
  eq : after = { before with children := after.children }
  flow : (∀ child ∈ before.children, child.IsFlow) → ∀ child ∈ after.children, child.IsFlow

theorem Gains.refl (node : Node) : Gains node node := by
  obtain ⟨_, _, _, _, _, _⟩ := node
  exact ⟨rfl, fun h => h⟩

theorem Gains.trans {a b c : Node} (h : Gains a b) (hMore : Gains b c) : Gains a c := by
  refine ⟨?_, fun hFlow => hMore.flow (h.flow hFlow)⟩
  rw [hMore.eq, h.eq]

theorem Gains.kind {a b : Node} (h : Gains a b) : b.kind = a.kind := by rw [h.eq]

theorem gains_appendChild {child : Node} (hChild : child.IsFlow) (node : Node) :
    Gains node (node.appendChild child) := by
  refine ⟨rfl, fun hFlow other hMem => ?_⟩
  rcases List.mem_append.1 hMem with hMem | hMem
  · exact hFlow other hMem
  · rw [List.mem_singleton.1 hMem]
    exact hChild

/-- Text makes the last child longer or is a new child, unless the node is a literal. -/
theorem gains_appendText (hKind : node.kind.isLiteral = false) (value : Text) :
    Gains node (node.appendText value) := by
  have hNew : (ofText value).IsFlow := isFlow_literal rfl ∅ value
  unfold appendText
  split
  · next hCode =>
      rw [hCode] at hKind
      cases hKind
  · split
    · next last hLast =>
        split
        · next hText =>
            refine ⟨rfl, fun hFlow child hMem => ?_⟩
            rcases List.mem_append.1 hMem with hMem | hMem
            · exact hFlow child (List.dropLast_subset _ hMem)
            · rw [List.mem_singleton.1 hMem]
              exact (hFlow last (List.mem_of_getLast? hLast)).appendValue hText value
        · exact gains_appendChild hNew node
    · exact gains_appendChild hNew node

/-- Raw HTML is a new child, unless the node is a literal. -/
theorem gains_appendHtml (hKind : node.kind.isLiteral = false) (value : Text) :
    Gains node (node.appendHtml value) := by
  unfold appendHtml
  split
  · next hHtml =>
      rw [hHtml] at hKind
      cases hKind
  · exact gains_appendChild (isFlow_literal rfl ∅ value) node

/-- Content adds to a node that has no value of its own. -/
theorem gains_grow {event : Event} (hEvent : event.isContent = true)
    (hKind : node.kind.isLiteral = false) : Gains node (event.grow node) := by
  cases event with
  | text value => exact gains_appendText hKind value
  | softBreak => exact gains_appendText hKind ['\n']
  | code value => exact gains_appendChild (isFlow_literal rfl ∅ value) node
  | html value => exact gains_appendHtml hKind value
  | hardBreak => exact gains_appendChild (isFlow_break (.inl rfl)) node
  | thematicBreak => exact gains_appendChild (isFlow_break (.inr rfl)) node
  | _ => cases hEvent

/-- A node that starts without children and gains some has its shape. -/
theorem HasOwnShape.of_gains (h : node.HasOwnShape) (hNone : node.children = [])
    (hKind : node.kind.holdsFlow = true) {made : Node} (hGains : Gains node made) :
    made.Everywhere IsShaped := by
  have hChildren : ∀ child ∈ made.children, child.IsFlow := hGains.flow <| by
    rw [hNone]
    exact List.forall_mem_nil _
  rw [hGains.eq]
  exact (h.with_children made.children).everywhere_isShaped hKind hChildren

end Node

end DirectiveMarkdown
