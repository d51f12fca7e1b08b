import DirectiveMarkdown.Proofs.Html.Layout
import DirectiveMarkdown.Proofs.NodeRecursion

/-! The elements that metadata chooses. A node with metadata becomes the chosen element wherever it stands as
content, below paragraphs as well as in the cells of tables, and these elements stand in the HTML tree in the
order of their nodes, if the header rows of each table are taken first. -/
namespace DirectiveMarkdown

/-- Kinds whose children become HTML. -/
def NodeKind.convertsChildren : NodeKind → Bool
  | .text | .code | .inlineCode | .html | .image | .break | .thematicBreak => false
  | _ => true

namespace HtmlNode

mutual

/-- The elements of a tree in pre-order. -/
def elements : HtmlNode → List HtmlNode
  | .root children => elementsOf children
  | .element tag properties children => .element tag properties children :: elementsOf children
  | .text _ | .raw _ => []

def elementsOf : List HtmlNode → List HtmlNode
  | [] => []
  | node :: rest => node.elements ++ elementsOf rest

end

def tag? : HtmlNode → Option DirectiveMarkdown.Text
  | .element tag _ _ => some tag
  | _ => none

theorem elementsOf_eq (nodes : List HtmlNode) : elementsOf nodes = nodes.flatMap elements := by
  induction nodes with
  | nil => rfl
  | cons node rest ih => rw [elementsOf, ih, List.flatMap_cons]

theorem elementsOf_append (nodes more : List HtmlNode) :
    elementsOf (nodes ++ more) = elementsOf nodes ++ elementsOf more := by
  simp only [elementsOf_eq, List.flatMap_append]

theorem elements_newline : newline.elements = [] := rfl

/-- An element comes before those in it. -/
theorem elements_ofTag (tag : String) (children : List HtmlNode) :
    (ofTag tag children).elements = ofTag tag children :: elementsOf children := by
  rw [ofTag, elements]

theorem elementsOf_separated (nodes : List HtmlNode) :
    elementsOf (separated nodes) = elementsOf nodes := by
  rw [elementsOf_eq, elementsOf_eq, flatMap_separated elements_newline]

theorem elementsOf_enclosed (nodes : List HtmlNode) :
    elementsOf (enclosed nodes) = elementsOf nodes := by
  rw [elementsOf_eq, elementsOf_eq, flatMap_enclosed elements_newline]

theorem elementsOf_joinLines (nodes : List HtmlNode) :
    elementsOf (joinLines nodes) = elementsOf nodes := by
  rw [elementsOf_eq, elementsOf_eq, flatMap_joinLines elements_newline]

end HtmlNode

/-- Where a node stands. A table makes rows of its children and a row makes cells of its children, whatever
kinds they are of. -/
inductive Place where
  | content
  | row
  | cell
deriving DecidableEq

/-- Members with a property that all stand before the others are already divided. -/
theorem filter_append_filter_of_pairwise {α : Type} {p : α → Bool} {list : List α}
    (h : list.Pairwise fun a later => p later = true → p a = true) :
    (list.filter p ++ list.filter fun a => !p a) = list := by
  induction list with
  | nil => rfl
  | cons a rest ih =>
      obtain ⟨hFirst, hRest⟩ := List.pairwise_cons.1 h
      cases hp : p a with
      | true =>
          rw [List.filter_cons_of_pos hp, List.filter_cons_of_neg (by simp [hp]), List.cons_append,
            ih hRest]
      | false =>
          have hNone : ∀ b ∈ a :: rest, p b = false := by
            refine List.forall_mem_cons.2 ⟨hp, fun b hMem => ?_⟩
            cases hb : p b with
            | false => rfl
            | true =>
                rw [hFirst b hMem hb] at hp
                cases hp
          rw [List.filter_eq_nil_iff.2 (by simpa using hNone), List.nil_append,
            List.filter_eq_self.2 (by simpa using hNone)]

namespace Node

/-- The place of the children of a node that stands in the given place. With metadata it is neither a table
nor a row, unless a table has made it a row. -/
def placeBelow (node : Node) : Place → Place
  | .row => .cell
  | .cell => .content
  | .content =>
    match node.metadata, node.kind with
    | none, .table => .row
    | none, .tableRow => .cell
    | _, _ => .content

/-- The place of a node below the given nodes, innermost first. -/
def placeUnder : List Node → Place
  | [] => .content
  | parent :: above => parent.placeBelow (placeUnder above)

def isHeader (row : Node) : Bool := isHeaderRow row.attributes

/-- The children of a node in the order in which they are shown: the header rows of a table come first. -/
def shownChildren (above : List Node) (node : Node) : List Node :=
  if placeUnder (node :: above) = .row then
    node.children.filter isHeader ++ node.children.filter fun row => !row.isHeader
  else node.children

/-- The children that are shown are the children of the node, in an order of their own. -/
theorem shownChildren_perm (above : List Node) (node : Node) :
    (node.shownChildren above).Perm node.children := by
  unfold shownChildren
  split
  · exact List.filter_append_perm isHeader node.children
  · exact .refl _

/-- The nodes of a tree in the order in which they are shown, each with the nodes above it, innermost first.
-/
def outline (above : List Node) (node : Node) : List (List Node × Node) :=
  (above, node) :: (node.shownChildren above).attach.flatMap fun child => child.1.outline (node :: above)
termination_by node.depth
decreasing_by exact depth_lt_of_mem ((shownChildren_perm above node).mem_iff.1 child.2)

theorem outline_eq (above : List Node) (node : Node) : node.outline above =
    (above, node) :: (node.shownChildren above).flatMap (outline (node :: above)) := by
  rw [outline]
  conv =>
    rhs
    rw [← List.attach_map_subtype_val (node.shownChildren above), List.flatMap_map]

/-- Showing a tree loses none of its nodes. -/
theorem outline_perm_preorder (above : List Node) (node : Node) :
    (node.outline above).Perm (node.preorder above) := by
  induction node using inductionOnChildren generalizing above with
  | step node ih =>
      rw [outline_eq, preorder_eq]
      refine .cons _ ?_
      exact (shownChildren_perm above node).flatMap_right _ |>.trans
        (List.Perm.flatMap_left _ fun child hMem => ih child hMem (node :: above))

/-- Each node that is shown as a table has its header rows first. -/
def HeadersFirst (above : List Node) (node : Node) : Prop :=
  ∀ entry ∈ node.preorder above, placeUnder (entry.2 :: entry.1) = .row →
    entry.2.children.Pairwise fun row later => later.isHeader = true → row.isHeader = true

instance (above : List Node) (node : Node) : Decidable (node.HeadersFirst above) :=
  inferInstanceAs (Decidable (∀ entry ∈ node.preorder above, placeUnder (entry.2 :: entry.1) = .row →
    entry.2.children.Pairwise fun row later => later.isHeader = true → row.isHeader = true))

/-- A node below a child is a node below its parent. -/
theorem mem_preorder_of_mem_children {above : List Node} {node child : Node} (hChild : child ∈ node.children)
    {entry : List Node × Node} (hMem : entry ∈ child.preorder (node :: above)) :
    entry ∈ node.preorder above := by
  rw [preorder_eq]
  exact List.mem_cons_of_mem _ (List.mem_flatMap.2 ⟨child, hChild, hMem⟩)

/-- Such a tree is shown in document order. -/
theorem outline_eq_preorder {above : List Node} {node : Node} (h : node.HeadersFirst above) :
    node.outline above = node.preorder above := by
  induction node using inductionOnChildren generalizing above with
  | step node ih =>
      have hShown : node.shownChildren above = node.children := by
        unfold shownChildren
        split
        · next hRows =>
            have hSelf : (above, node) ∈ node.preorder above := by
              rw [preorder_eq]
              exact List.mem_cons_self ..
            exact filter_append_filter_of_pairwise (h _ hSelf hRows)
        · rfl
      rw [outline_eq, preorder_eq, hShown]
      refine congrArg _ (List.flatMap_congr fun child hChild => ih child hChild ?_)
      exact fun entry hMem => h entry (mem_preorder_of_mem_children hChild hMem)

section Chosen

variable (rawHtml : Bool)

/-- The element that metadata chooses for a node below other nodes: it holds what the children of the node
become. The nodes in question stand as content, below nodes whose kinds convert their children. -/
def chosen? (entry : List Node × Node) : Option HtmlNode :=
  if placeUnder entry.1 = .content ∧ entry.1.all (fun node => node.kind.convertsChildren) = true then
    entry.2.metadata.map fun metadata => .element metadata.targetElement metadata.targetProperties
      (allToHtml rawHtml entry.2.children)
  else none

/-- The chosen elements of a tree in the order in which their nodes are shown. -/
def chosenElements (above : List Node) (node : Node) : List HtmlNode :=
  (node.outline above).filterMap (chosen? rawHtml)

/-- A tree has the element chosen for its root, and then those of the children that are shown. -/
theorem chosenElements_eq (above : List Node) (node : Node) : node.chosenElements rawHtml above =
    (chosen? rawHtml (above, node)).toList ++
      (node.shownChildren above).flatMap (chosenElements rawHtml (node :: above)) := by
  rw [chosenElements, outline_eq, List.filterMap_cons, List.filterMap_flatMap]
  cases chosen? rawHtml (above, node) <;> rfl

/-- Nothing is chosen below a node whose children are not converted. -/
theorem chosenElements_eq_nil {above : List Node} {node : Node}
    (h : ¬above.all (fun node => node.kind.convertsChildren) = true) :
    node.chosenElements rawHtml above = [] := by
  induction node using inductionOnChildren generalizing above with
  | step node ih =>
      have hBelow : ¬(node :: above).all (fun node => node.kind.convertsChildren) = true := by
        rw [List.all_cons, Bool.and_eq_true]
        exact fun hAll => h hAll.2
      have hNone : chosen? rawHtml (above, node) = none := if_neg fun hBoth => h hBoth.2
      rw [chosenElements_eq, hNone, Option.toList_none, List.nil_append, List.flatMap_eq_nil_iff]
      intro child hChild
      exact ih child ((shownChildren_perm above node).mem_iff.1 hChild) hBelow

end Chosen

end Node

section Conversion

open HtmlNode (elementsOf elementsOf_eq)

variable {rawHtml : Bool} {nodes : List Node} {chosen : Node → List HtmlNode}

/-- Elements found in the HTML of each node are found, in order, in the HTML of all. -/
theorem sublist_elementsOf_allToHtml
    (h : ∀ node ∈ nodes, (chosen node).Sublist (elementsOf (node.toHtml? rawHtml).toList)) :
    (nodes.flatMap chosen).Sublist (elementsOf (Node.allToHtml rawHtml nodes)) := by
  rw [elementsOf_eq, Node.allToHtml_eq_filterMap, List.filterMap_eq_flatMap_toList,
    List.flatMap_assoc]
  simp only [← elementsOf_eq]
  exact .flatMap_right nodes h

/-- Elements found in the content of each cell are found, in order, in the row. -/
theorem sublist_elementsOf_cellsToHtml (header : Bool) (alignments : List Text)
    (h : ∀ node ∈ nodes, (chosen node).Sublist (elementsOf (Node.allToHtml rawHtml node.children))) :
    (nodes.flatMap chosen).Sublist
      (elementsOf (Node.cellsToHtml rawHtml header alignments nodes)) := by
  induction nodes generalizing alignments with
  | nil => exact List.nil_sublist _
  | cons node rest ih =>
      obtain ⟨kind, name, attributes, metadata, children, value⟩ := node
      have hRest := ih alignments.tail fun other hMem => h other (List.mem_cons_of_mem _ hMem)
      rw [Node.cellsToHtml, List.flatMap_cons, elementsOf, HtmlNode.elements]
      exact ((h _ (List.mem_cons_self ..)).trans (List.sublist_cons_self _ _)).append hRest

/-- A table holds the elements of its header rows and then those of its other rows. -/
theorem sublist_elements_tableElement (rows : List (Bool × HtmlNode)) :
    ((rows.filter fun row => row.1).flatMap (fun row => row.2.elements) ++
      (rows.filter fun row => !row.1).flatMap fun row => row.2.elements).Sublist
      (tableElement rows).elements := by
  unfold tableElement
  extract_lets part
  have hPart (tag : String) (header : Bool) :
      ((rows.filter fun row => row.1 == header).flatMap fun row => row.2.elements).Sublist
        (elementsOf (part tag header)) := by
    have hRows : (rows.filter fun row => row.1 == header).flatMap (fun row => row.2.elements) =
        elementsOf ((rows.filter fun row => row.1 == header).map Prod.snd) := by
      rw [elementsOf_eq, List.flatMap_map]
    rw [hRows]
    dsimp only [part]
    split
    · next hNone => rw [hNone]
    · rw [elementsOf, HtmlNode.elements_ofTag, HtmlNode.elementsOf_joinLines, List.cons_append]
      exact (List.sublist_append_left _ _).trans (List.sublist_cons_self _ _)
  have hHead := hPart "thead" true
  have hBody := hPart "tbody" false
  rw [HtmlNode.elements_ofTag, HtmlNode.elementsOf_joinLines, HtmlNode.elementsOf_append]
  simp only [beq_true, beq_false] at hHead hBody
  exact (hHead.append hBody).trans (List.sublist_cons_self _ _)

/-- Elements found in each row are found in the table, those of header rows first. -/
theorem sublist_elements_table (alignments : List Text)
    (h : ∀ row ∈ nodes, (chosen row).Sublist
      (elementsOf (Node.cellsToHtml rawHtml row.isHeader alignments row.children))) :
    ((nodes.filter Node.isHeader ++ nodes.filter fun row => !row.isHeader).flatMap chosen).Sublist
      (tableElement (Node.rowsToHtml rawHtml alignments nodes)).elements := by
  have hRows (p : Node → Bool) : ((nodes.filter p).flatMap chosen).Sublist
      ((nodes.filter p).flatMap fun row => (HtmlNode.ofTag "tr" (HtmlNode.joinLines
        (Node.cellsToHtml rawHtml row.isHeader alignments row.children))).elements) := by
    refine .flatMap_right _ fun row hMem => ?_
    rw [HtmlNode.elements_ofTag, HtmlNode.elementsOf_joinLines]
    exact (h row (List.mem_of_mem_filter hMem)).trans (List.sublist_cons_self _ _)
  refine .trans ?_ (sublist_elements_tableElement _)
  rw [Node.rowsToHtml_eq_map, List.filter_map, List.filter_map, List.flatMap_map, List.flatMap_map,
    List.flatMap_append]
  exact (hRows _).append (hRows _)

/-- The element of a list holds those of its items. -/
theorem sublist_elements_listElement (attributes : TextMap) (items : List HtmlNode) :
    (elementsOf items).Sublist (listElement attributes items).elements := by
  unfold listElement
  dsimp only
  split
  · rw [HtmlNode.elements, HtmlNode.elementsOf_enclosed]
    exact List.sublist_cons_self _ _
  · rw [HtmlNode.elements_ofTag, HtmlNode.elementsOf_enclosed]
    exact List.sublist_cons_self _ _

/-- The element of an item holds those of its content. -/
theorem sublist_elements_itemElement (attributes : TextMap) (phrasing : Bool)
    (children : List HtmlNode) :
    (elementsOf children).Sublist (itemElement attributes phrasing children).elements := by
  have hContent : elementsOf (if phrasing then children else HtmlNode.enclosed children) =
      elementsOf children := by
    split
    · rfl
    · exact HtmlNode.elementsOf_enclosed children
  rw [Node.itemElement_eq, HtmlNode.elements, HtmlNode.elementsOf_append, hContent]
  exact (List.sublist_append_right _ _).trans (List.sublist_cons_self _ _)

/-- The element of a node that is neither a table nor a row holds those that its children become. -/
theorem elementsOf_toHtml?_plain (rawHtml : Bool) {node : Node} (hPlain : node.metadata = none)
    (hKind : node.kind.convertsChildren = true) (hTable : node.kind ≠ .table)
    (hRow : node.kind ≠ .tableRow) :
    (elementsOf (Node.allToHtml rawHtml node.children)).Sublist
      (elementsOf (node.toHtml? rawHtml).toList) := by
  obtain ⟨kind, name, attributes, metadata, children, value⟩ := node
  cases hPlain
  have hTag (tag : String) (content : List HtmlNode) :
      (elementsOf content).Sublist (elementsOf [.ofTag tag content]) := by
    rw [elementsOf, HtmlNode.elements_ofTag]
    exact (List.sublist_cons_self _ _).trans (List.sublist_append_left _ _)
  have hOne {content : List HtmlNode} {made : HtmlNode}
      (h : (elementsOf content).Sublist made.elements) :
      (elementsOf content).Sublist (elementsOf [made]) := by
    rwa [elementsOf, elementsOf, List.append_nil]
  cases kind <;> rw [Node.toHtml?]
  case text | code | html | inlineCode | «break» | image | thematicBreak => cases hKind
  case table => exact absurd rfl hTable
  case tableRow => exact absurd rfl hRow
  case root =>
    refine hOne ?_
    rw [HtmlNode.elements, HtmlNode.elementsOf_separated]
  case heading => exact hOne (List.sublist_cons_self _ _)
  case link => exact hOne (List.sublist_cons_self _ _)
  case blockQuote =>
    have hQuote := hTag "blockquote" (HtmlNode.enclosed (Node.allToHtml rawHtml children))
    rwa [HtmlNode.elementsOf_enclosed] at hQuote
  case list => exact hOne (sublist_elements_listElement attributes _)
  case listItem => exact hOne (sublist_elements_itemElement attributes _ _)
  all_goals exact hTag _ _

section Content

variable {above : List Node} {node : Node} (hPlace : Node.placeUnder above = .content)

include hPlace

/-- Children of a chosen element stand as content. -/
theorem placeUnder_of_metadata {metadata : Metadata} (hMetadata : node.metadata = some metadata) :
    Node.placeUnder (node :: above) = .content := by
  rw [Node.placeUnder, hPlace, Node.placeBelow, hMetadata]

/-- Without metadata the kind of a node decides where its children stand. -/
theorem placeUnder_of_plain (hPlain : node.metadata = none) : Node.placeUnder (node :: above) =
    if node.kind = .table then .row else if node.kind = .tableRow then .cell else .content := by
  rw [Node.placeUnder, hPlace, Node.placeBelow, hPlain]
  cases node.kind <;> rfl

/-- A node with metadata becomes the chosen element, around those below it. -/
theorem chosenElements_sublist_of_metadata {metadata : Metadata}
    (hMetadata : node.metadata = some metadata)
    (hContent : (node.children.flatMap (Node.chosenElements rawHtml (node :: above))).Sublist
      (elementsOf (Node.allToHtml rawHtml node.children))) :
    (node.chosenElements rawHtml above).Sublist (elementsOf (node.toHtml? rawHtml).toList) := by
  have hShown : node.shownChildren above = node.children := by
    rw [Node.shownChildren, placeUnder_of_metadata hPlace hMetadata]
    rfl
  rw [Node.chosenElements_eq, hShown, toHtml?_of_metadata rawHtml hMetadata, Option.toList_some,
    elementsOf, elementsOf, List.append_nil, HtmlNode.elements]
  cases hChosen : Node.chosen? rawHtml (above, node) with
  | none => exact hContent.trans (List.sublist_cons_self _ _)
  | some made =>
      have hMade : made = .element metadata.targetElement metadata.targetProperties
          (Node.allToHtml rawHtml node.children) := by
        rw [Node.chosen?, hMetadata] at hChosen
        split at hChosen
        · exact (Option.some.inj hChosen).symm
        · cases hChosen
      rw [hMade]
      exact hContent.cons_cons _

/-- A node without metadata becomes elements around those below it, in the order in which its children are
shown. -/
theorem chosenElements_sublist_of_plain (hPlain : node.metadata = none)
    (hContent : Node.placeUnder (node :: above) = .content →
      (node.children.flatMap (Node.chosenElements rawHtml (node :: above))).Sublist
        (elementsOf (Node.allToHtml rawHtml node.children)))
    (hCells : Node.placeUnder (node :: above) = .cell → ∀ header alignments,
      (node.children.flatMap (Node.chosenElements rawHtml (node :: above))).Sublist
        (elementsOf (Node.cellsToHtml rawHtml header alignments node.children)))
    (hRows : Node.placeUnder (node :: above) = .row → ∀ row ∈ node.children, ∀ header alignments,
      (row.chosenElements rawHtml (node :: above)).Sublist
        (elementsOf (Node.cellsToHtml rawHtml header alignments row.children))) :
    (node.chosenElements rawHtml above).Sublist (elementsOf (node.toHtml? rawHtml).toList) := by
  have hBelow := placeUnder_of_plain hPlace hPlain
  have hNone : Node.chosen? rawHtml (above, node) = none := by
    rw [Node.chosen?, hPlain]
    exact ite_self _
  rw [Node.chosenElements_eq, hNone, Option.toList_none, List.nil_append, Node.shownChildren]
  by_cases hTable : node.kind = .table
  · rw [if_pos hTable] at hBelow
    obtain ⟨kind, name, attributes, metadata, children, value⟩ := node
    cases hTable
    cases hPlain
    rw [if_pos hBelow, Node.toHtml?]
    refine .trans ?_ (List.sublist_append_left _ _)
    exact sublist_elements_table _ fun row hRow => hRows hBelow row hRow _ _
  · rw [if_neg hTable] at hBelow
    by_cases hRow : node.kind = .tableRow
    · rw [if_pos hRow] at hBelow
      rw [if_neg (by rw [hBelow]; decide)]
      obtain ⟨kind, name, attributes, metadata, children, value⟩ := node
      cases hRow
      cases hPlain
      rw [Node.toHtml?]
      refine .trans (hCells hBelow (isHeaderRow attributes) []) ?_
      rw [Option.toList_some, elementsOf, HtmlNode.elements_ofTag, HtmlNode.elementsOf_joinLines]
      exact (List.sublist_cons_self _ _).trans (List.sublist_append_left _ _)
    · rw [if_neg hRow] at hBelow
      rw [if_neg (by rw [hBelow]; decide)]
      by_cases hKind : node.kind.convertsChildren = true
      · exact (hContent hBelow).trans (elementsOf_toHtml?_plain rawHtml hPlain hKind hTable hRow)
      · have hNil : node.children.flatMap (Node.chosenElements rawHtml (node :: above)) = [] := by
          rw [List.flatMap_eq_nil_iff]
          refine fun child _ => Node.chosenElements_eq_nil rawHtml ?_
          rw [List.all_cons, Bool.and_eq_true]
          exact fun hAll => hKind hAll.1
        rw [hNil]
        exact List.nil_sublist _

end Content

/-- What a node becomes holds the chosen elements of the node and of all nodes below it, and so do the cells
and the content that it becomes in the place of a row or of a cell. -/
theorem chosenElements_sublist (rawHtml : Bool) (node : Node) : ∀ above : List Node,
    (Node.placeUnder above = .content →
      (node.chosenElements rawHtml above).Sublist (elementsOf (node.toHtml? rawHtml).toList)) ∧
    (Node.placeUnder above = .row → ∀ header alignments,
      (node.chosenElements rawHtml above).Sublist
        (elementsOf (Node.cellsToHtml rawHtml header alignments node.children))) ∧
    (Node.placeUnder above = .cell →
      (node.chosenElements rawHtml above).Sublist
        (elementsOf (Node.allToHtml rawHtml node.children))) := by
  induction node using Node.inductionOnChildren with
  | step node ih =>
      intro above
      have hContent (hPlace : Node.placeUnder (node :: above) = .content) :
          (node.children.flatMap (Node.chosenElements rawHtml (node :: above))).Sublist
            (elementsOf (Node.allToHtml rawHtml node.children)) :=
        sublist_elementsOf_allToHtml fun child hChild => (ih child hChild _).1 hPlace
      have hCells (hPlace : Node.placeUnder (node :: above) = .cell) (header : Bool)
          (alignments : List Text) :
          (node.children.flatMap (Node.chosenElements rawHtml (node :: above))).Sublist
            (elementsOf (Node.cellsToHtml rawHtml header alignments node.children)) :=
        sublist_elementsOf_cellsToHtml header alignments fun child hChild =>
          (ih child hChild _).2.2 hPlace
      have hUnchosen (hPlace : Node.placeUnder above ≠ .content) :
          Node.chosen? rawHtml (above, node) = none := if_neg fun hBoth => hPlace hBoth.1
      refine ⟨fun hPlace => ?_, fun hPlace header alignments => ?_, fun hPlace => ?_⟩
      · cases hMetadata : node.metadata with
        | some metadata =>
            exact chosenElements_sublist_of_metadata hPlace hMetadata
              (hContent (placeUnder_of_metadata hPlace hMetadata))
        | none =>
            exact chosenElements_sublist_of_plain hPlace hMetadata hContent hCells
              fun hBelow row hRow => (ih row hRow _).2.1 hBelow
      · have hBelow : Node.placeUnder (node :: above) = .cell := by rw [Node.placeUnder, hPlace]; rfl
        rw [Node.chosenElements_eq, hUnchosen (by rw [hPlace]; decide), Node.shownChildren,
          if_neg (by rw [hBelow]; decide)]
        exact hCells hBelow header alignments
      · have hBelow : Node.placeUnder (node :: above) = .content := by rw [Node.placeUnder, hPlace]; rfl
        rw [Node.chosenElements_eq, hUnchosen (by rw [hPlace]; decide), Node.shownChildren,
          if_neg (by rw [hBelow]; decide)]
        exact hContent hBelow

end Conversion

namespace Node

/-- Every node with metadata that stands as content, below nodes whose kinds convert their children, has its
own chosen element in the HTML tree, around what its children become. These elements stand in the order in
which the nodes are shown. This is the order of the document, but for header rows that stand behind other
rows of their table. -/
theorem chosenElements_toHtml (rawHtml : Bool) (tree : Node) :
    ((tree.outline []).filterMap (chosen? rawHtml)).Sublist (tree.toHtml rawHtml).elements ∧
      (tree.outline []).Perm (tree.preorder []) ∧
      (tree.HeadersFirst [] → tree.outline [] = tree.preorder []) := by
  refine ⟨?_, outline_perm_preorder [] tree, outline_eq_preorder⟩
  have hMade : HtmlNode.elementsOf (tree.toHtml? rawHtml).toList = (tree.toHtml rawHtml).elements := by
    rw [toHtml]
    cases tree.toHtml? rawHtml with
    | none => rfl
    | some made => exact List.append_nil _
  rw [← hMade]
  exact (chosenElements_sublist rawHtml tree []).1 rfl

def tableCellOf (metadata : Option Metadata) (content : List Node) : Node :=
  { kind := .tableCell, metadata, children := content }

def emphasisAs (tag value : Text) : Node :=
  { kind := .emphasis, metadata := some ⟨tag, ∅⟩, children := [.ofText value] }

/-- In a table with its header row first, chosen elements stand in the cells in document order. -/
theorem chosenElements_toHtml_cells :
    let tree : Node :=
      { kind := .table
        children := [
          { kind := .tableRow
            attributes := TextMap.insert ∅ (text "header") (text "true")
            children := [tableCellOf none [emphasisAs (text "x-a") (text "1")]] },
          { kind := .tableRow
            children := [tableCellOf none [emphasisAs (text "x-b") (text "2")]] }] }
    tree.HeadersFirst [] ∧
      (tree.preorder []).filterMap (chosen? true) =
        [.element (text "x-a") ∅ [.text (text "1")], .element (text "x-b") ∅ [.text (text "2")]] ∧
      ((tree.preorder []).filterMap (chosen? true)).Sublist (tree.toHtml true).elements := by
  intro tree
  have hFirst : tree.HeadersFirst [] := by decide
  obtain ⟨hChosen, -, hOrder⟩ := chosenElements_toHtml true tree
  rw [hOrder hFirst] at hChosen
  refine ⟨hFirst, ?_, hChosen⟩
  rfl

/-- Of a table whose header row stands second, the elements chosen in that row come first. The metadata of its
cell chooses nothing. -/
theorem chosenElements_toHtml_lateHeader :
    let tree : Node :=
      { kind := .table
        children := [
          { kind := .tableRow
            children := [tableCellOf none [emphasisAs (text "x-one") (text "1")]] },
          { kind := .tableRow
            attributes := TextMap.insert ∅ (text "header") (text "true")
            children :=
              [tableCellOf (some ⟨text "x-two", ∅⟩) [emphasisAs (text "x-three") (text "3")]] }] }
    let one : HtmlNode := .element (text "x-one") ∅ [.text (text "1")]
    let three : HtmlNode := .element (text "x-three") ∅ [.text (text "3")]
    let two : HtmlNode := .element (text "x-two") ∅ [three]
    (tree.preorder []).filterMap (fun entry =>
        if entry.1.all (fun node => node.kind.convertsChildren) then
          entry.2.metadata.map fun metadata => HtmlNode.element metadata.targetElement
            metadata.targetProperties (allToHtml true entry.2.children)
        else none) = [one, two, three] ∧
      (tree.toHtml true).elements.filterMap HtmlNode.tag? =
        ["table", "thead", "tr", "th", "x-three", "tbody", "tr", "td", "x-one"].map String.toList ∧
      ¬[one, three].Sublist (tree.toHtml true).elements ∧
      ¬[one, two, three].Sublist (tree.toHtml true).elements := by
  intro tree one three two
  have hTags : (tree.toHtml true).elements.filterMap HtmlNode.tag? =
      ["table", "thead", "tr", "th", "x-three", "tbody", "tr", "td", "x-one"].map String.toList := rfl
  have hOrder : ¬[one, three].Sublist (tree.toHtml true).elements := by
    intro hSublist
    have hSublistTags := hSublist.filterMap HtmlNode.tag?
    rw [hTags] at hSublistTags
    revert hSublistTags
    decide
  refine ⟨rfl, hTags, hOrder, fun hSublist => hOrder (.trans ?_ hSublist)⟩
  exact (List.sublist_cons_self two [three]).cons_cons one

end Node

end DirectiveMarkdown
