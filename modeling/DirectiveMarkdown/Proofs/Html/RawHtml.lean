import DirectiveMarkdown.Proofs.Html.ChosenElements

/-! Raw HTML that conversion drops. A tree without its raw HTML becomes what the whole tree becomes when raw HTML is
not let through. Only a table would tell the two apart: it makes rows and cells even of raw HTML. -/
namespace DirectiveMarkdown

namespace Node

/-- The node is raw HTML: metadata has not made it an element. -/
def isRawHtml (node : Node) : Bool := node.kind == .html && node.metadata.isNone

mutual

/-- The tree without the raw HTML below its root. -/
def withoutRawHtml : Node → Node
  | ⟨kind, name, attributes, metadata, children, value⟩ =>
    ⟨kind, name, attributes, metadata, allWithoutRawHtml children, value⟩

def allWithoutRawHtml : List Node → List Node
  | [] => []
  | node :: rest =>
    if node.isRawHtml then allWithoutRawHtml rest
    else node.withoutRawHtml :: allWithoutRawHtml rest

end

theorem children_withoutRawHtml (node : Node) :
    node.withoutRawHtml.children = allWithoutRawHtml node.children := by
  obtain ⟨kind, name, attributes, metadata, children, value⟩ := node
  rw [withoutRawHtml]

theorem kind_withoutRawHtml (node : Node) : node.withoutRawHtml.kind = node.kind := by
  obtain ⟨kind, name, attributes, metadata, children, value⟩ := node
  rw [withoutRawHtml]

theorem attributes_withoutRawHtml (node : Node) : node.withoutRawHtml.attributes = node.attributes := by
  obtain ⟨kind, name, attributes, metadata, children, value⟩ := node
  rw [withoutRawHtml]

/-- Raw HTML has no HTML of its own unless it is let through. -/
theorem toHtml?_of_isRawHtml {node : Node} (h : node.isRawHtml = true) : node.toHtml? false = none := by
  obtain ⟨kind, name, attributes, metadata, children, value⟩ := node
  rw [isRawHtml, Bool.and_eq_true, beq_iff_eq, Option.isNone_iff_eq_none] at h
  obtain ⟨rfl, rfl⟩ := h
  rw [toHtml?]
  rfl

/-- Where no node is raw HTML, nothing is left out among them. -/
theorem allWithoutRawHtml_eq_map {nodes : List Node} (h : ∀ node ∈ nodes, node.isRawHtml = false) :
    allWithoutRawHtml nodes = nodes.map withoutRawHtml := by
  induction nodes with
  | nil => rfl
  | cons node rest ih =>
      have hNode : ¬node.isRawHtml = true := by simp [h node (List.mem_cons_self ..)]
      rw [allWithoutRawHtml, if_neg hNode, ih fun other hMem => h other (List.mem_cons_of_mem _ hMem),
        List.map_cons]

/-- Raw HTML counts as running text, so a list item without it is laid out as before. -/
theorem all_isPhrasing_allWithoutRawHtml (nodes : List Node) :
    ((allWithoutRawHtml nodes).all fun node => node.kind.isPhrasing) =
      nodes.all fun node => node.kind.isPhrasing := by
  induction nodes with
  | nil => rfl
  | cons node rest ih =>
      rw [allWithoutRawHtml, List.all_cons]
      split
      · next hRaw =>
          have hKind : node.kind = .html := by
            rw [isRawHtml, Bool.and_eq_true, beq_iff_eq] at hRaw
            exact hRaw.1
          rw [ih, hKind]
          rfl
      · rw [List.all_cons, ih, kind_withoutRawHtml]

section Conversion

variable {nodes : List Node}

/-- Content is the same if each node of it but for the raw HTML is. -/
theorem allToHtml_allWithoutRawHtml
    (h : ∀ node ∈ nodes, node.isRawHtml = false → node.toHtml? false = node.withoutRawHtml.toHtml? true) :
    allToHtml false nodes = allToHtml true (allWithoutRawHtml nodes) := by
  induction nodes with
  | nil => rfl
  | cons node rest ih =>
      have hRest := ih fun other hMem => h other (List.mem_cons_of_mem _ hMem)
      rw [allToHtml, allWithoutRawHtml, hRest]
      cases hRaw : node.isRawHtml with
      | true => rw [toHtml?_of_isRawHtml hRaw, Option.toList_none, List.nil_append, if_pos rfl]
      | false =>
          rw [h node (List.mem_cons_self ..) hRaw, if_neg Bool.false_ne_true]
          conv =>
            rhs
            rw [allToHtml]

theorem cellsToHtml_map_withoutRawHtml (header : Bool) (alignments : List Text)
    (h : ∀ cell ∈ nodes, allToHtml false cell.children = allToHtml true cell.withoutRawHtml.children) :
    cellsToHtml false header alignments nodes =
      cellsToHtml true header alignments (nodes.map withoutRawHtml) := by
  rw [cellsToHtml_eq_mapIdx, cellsToHtml_eq_mapIdx]
  refine List.ext_getElem (by simp) fun column hLeft _ => ?_
  rw [List.length_mapIdx] at hLeft
  simp only [List.getElem_mapIdx, List.getElem_map, h _ (List.getElem_mem hLeft)]

/-- Rows are the same with and without raw HTML if each of them has the same cells. -/
theorem rowsToHtml_map_withoutRawHtml (alignments : List Text)
    (h : ∀ row ∈ nodes, ∀ header, cellsToHtml false header alignments row.children =
      cellsToHtml true header alignments row.withoutRawHtml.children) :
    rowsToHtml false alignments nodes = rowsToHtml true alignments (nodes.map withoutRawHtml) := by
  rw [rowsToHtml_eq_map, rowsToHtml_eq_map, List.map_map]
  refine List.map_congr_left fun row hRow => ?_
  rw [Function.comp_apply, attributes_withoutRawHtml, h row hRow]

end Conversion

/-- The children of a node in the given place become no HTML: it is content of a kind that shows none, and metadata
has not made it an element. -/
def hidesChildren (place : Place) (node : Node) : Bool :=
  place == .content && node.metadata.isNone && !node.kind.convertsChildren

/-- What stands below the given nodes, innermost first, becomes no HTML. -/
def isHiddenUnder : List Node → Bool
  | [] => false
  | parent :: above => isHiddenUnder above || parent.hidesChildren (placeUnder above)

/-- Raw HTML stands as content only, and not as a row of a table or as a cell of a row, where these become HTML. -/
def RawHtmlIsContent (above : List Node) (node : Node) : Prop :=
  ∀ entry ∈ node.preorder above, entry.2.isRawHtml = true → isHiddenUnder entry.1 = false →
    placeUnder entry.1 = .content

instance (above : List Node) (node : Node) : Decidable (node.RawHtmlIsContent above) :=
  inferInstanceAs (Decidable (∀ entry ∈ node.preorder above, entry.2.isRawHtml = true →
    isHiddenUnder entry.1 = false → placeUnder entry.1 = .content))

/-- The condition on raw HTML is one on every node of the tree. -/
theorem RawHtmlIsContent.child {above : List Node} {node child : Node} (h : node.RawHtmlIsContent above)
    (hChild : child ∈ node.children) : child.RawHtmlIsContent (node :: above) :=
  fun entry hMem => h entry (mem_preorder_of_mem_children hChild hMem)

/-- There is no raw HTML among the rows of a table and among the cells of a row. -/
theorem RawHtmlIsContent.allWithoutRawHtml_eq_map {above : List Node} {node : Node}
    (h : node.RawHtmlIsContent above) (hShown : isHiddenUnder (node :: above) = false)
    (hPlace : placeUnder (node :: above) ≠ .content) :
    allWithoutRawHtml node.children = node.children.map withoutRawHtml := by
  refine Node.allWithoutRawHtml_eq_map fun child hChild => ?_
  have hSelf : (node :: above, child) ∈ child.preorder (node :: above) := by
    rw [preorder_eq]
    exact List.mem_cons_self ..
  cases hRaw : child.isRawHtml with
  | false => rfl
  | true => exact absurd (h.child hChild _ hSelf hRaw hShown) hPlace

/-- A node that is no raw HTML becomes the same element, given what its children become in each place. -/
theorem toHtml?_withoutRawHtml_of_children {above : List Node} {node : Node}
    (hPlace : placeUnder above = .content) (hRaw : node.isRawHtml = false)
    (hContent : node.hidesChildren .content = false → placeUnder (node :: above) = .content →
      allToHtml false node.children = allToHtml true node.withoutRawHtml.children)
    (hCells : node.hidesChildren .content = false → placeUnder (node :: above) = .cell →
      ∀ header alignments, cellsToHtml false header alignments node.children =
        cellsToHtml true header alignments node.withoutRawHtml.children)
    (hRows : node.hidesChildren .content = false → placeUnder (node :: above) = .row →
      ∀ alignments, rowsToHtml false alignments node.children =
        rowsToHtml true alignments node.withoutRawHtml.children) :
    node.toHtml? false = node.withoutRawHtml.toHtml? true := by
  cases hMetadata : node.metadata with
  | some metadata =>
      have hSame : node.withoutRawHtml.metadata = some metadata := by
        obtain ⟨kind, name, attributes, _, children, value⟩ := node
        cases hMetadata
        rw [withoutRawHtml]
      have hShown : node.hidesChildren .content = false := by
        rw [hidesChildren, hMetadata]
        rfl
      rw [toHtml?_of_metadata false hMetadata, toHtml?_of_metadata true hSame,
        hContent hShown (placeUnder_of_metadata hPlace hMetadata)]
  | none =>
      have hBelow := placeUnder_of_plain hPlace hMetadata
      have hPhrasing := all_isPhrasing_allWithoutRawHtml node.children
      obtain ⟨kind, name, attributes, metadata, children, value⟩ := node
      cases hMetadata
      rw [withoutRawHtml] at hContent hCells hRows ⊢
      cases kind
      case html => cases hRaw
      case text | thematicBreak | «break» | code | inlineCode | image => rw [toHtml?, toHtml?]
      case table => rw [toHtml?, toHtml?, hRows rfl hBelow]
      case tableRow => rw [toHtml?, toHtml?, hCells rfl hBelow]
      case listItem => rw [toHtml?, toHtml?, hContent rfl hBelow, hPhrasing]
      all_goals rw [toHtml?, toHtml?, hContent rfl hBelow]

/-- In each place in which it may stand a tree becomes what it becomes without its raw HTML. -/
theorem toHtml?_withoutRawHtml (node : Node) : ∀ above : List Node,
    isHiddenUnder above = false → node.RawHtmlIsContent above →
    (placeUnder above = .content → node.isRawHtml = false →
      node.toHtml? false = node.withoutRawHtml.toHtml? true) ∧
    (placeUnder above = .row → ∀ header alignments, cellsToHtml false header alignments node.children =
      cellsToHtml true header alignments node.withoutRawHtml.children) ∧
    (placeUnder above = .cell →
      allToHtml false node.children = allToHtml true node.withoutRawHtml.children) := by
  induction node using inductionOnChildren with
  | step node ih =>
      intro above hAbove h
      have hBelow (hShown : node.hidesChildren (placeUnder above) = false) :
          isHiddenUnder (node :: above) = false := by
        rw [isHiddenUnder, hAbove, hShown]
        rfl
      have hContent (hShown : node.hidesChildren (placeUnder above) = false)
          (hPlace : placeUnder (node :: above) = .content) :
          allToHtml false node.children = allToHtml true node.withoutRawHtml.children := by
        rw [children_withoutRawHtml]
        exact allToHtml_allWithoutRawHtml fun child hChild =>
          (ih child hChild _ (hBelow hShown) (h.child hChild)).1 hPlace
      have hCells (hShown : node.hidesChildren (placeUnder above) = false)
          (hPlace : placeUnder (node :: above) = .cell) (header : Bool) (alignments : List Text) :
          cellsToHtml false header alignments node.children =
            cellsToHtml true header alignments node.withoutRawHtml.children := by
        rw [children_withoutRawHtml,
          h.allWithoutRawHtml_eq_map (hBelow hShown) (by rw [hPlace]; decide)]
        exact cellsToHtml_map_withoutRawHtml header alignments fun child hChild =>
          (ih child hChild _ (hBelow hShown) (h.child hChild)).2.2 hPlace
      have hRows (hShown : node.hidesChildren (placeUnder above) = false)
          (hPlace : placeUnder (node :: above) = .row) (alignments : List Text) :
          rowsToHtml false alignments node.children =
            rowsToHtml true alignments node.withoutRawHtml.children := by
        rw [children_withoutRawHtml,
          h.allWithoutRawHtml_eq_map (hBelow hShown) (by rw [hPlace]; decide)]
        exact rowsToHtml_map_withoutRawHtml alignments fun child hChild header =>
          (ih child hChild _ (hBelow hShown) (h.child hChild)).2.1 hPlace header alignments
      refine ⟨fun hPlace hRaw => ?_, fun hPlace => ?_, fun hPlace => ?_⟩
      · rw [hPlace] at hContent hCells hRows
        exact toHtml?_withoutRawHtml_of_children hPlace hRaw hContent hCells hRows
      · exact hCells (by rw [hPlace]; rfl) (by rw [placeUnder, hPlace]; rfl)
      · exact hContent (by rw [hPlace]; rfl) (by rw [placeUnder, hPlace]; rfl)

/-- To convert a tree without letting raw HTML through gives what the tree without its raw HTML becomes, down to
the line breaks, if no raw HTML stands where a table takes it for a row or a cell. -/
theorem toHtml_withoutRawHtml {tree : Node} (hRoot : tree.isRawHtml = false)
    (hTables : tree.RawHtmlIsContent []) : tree.toHtml false = tree.withoutRawHtml.toHtml true := by
  rw [toHtml, toHtml, (toHtml?_withoutRawHtml tree [] rfl hTables).1 rfl hRoot]

/-- Nothing is left of a quote and an item of raw HTML alone, and no line break stands where raw HTML stood
between two blocks. HTML that metadata has made an element stays, also as a cell. -/
theorem toHtml_withoutRawHtml_blocks :
    let tree : Node :=
      { kind := .root
        children := [
          .ofHtml (text "<!-- 1 -->"),
          { kind := .blockQuote, children := [.ofHtml (text "<hr>")] },
          .ofHtml (text "<!-- 2 -->"),
          { kind := .list
            children := [
              { kind := .listItem, children := [.ofText (text "a"), .ofHtml (text "<b>")] },
              { kind := .listItem, children := [.ofHtml (text "<hr>")] }] },
          { kind := .table
            children := [
              { kind := .tableRow
                children := [
                  tableCellOf none [.ofHtml (text "<i>"), .ofText (text "b")],
                  { kind := .html, metadata := some ⟨text "x-c", ∅⟩ }] }] }] }
    tree.isRawHtml = false ∧ tree.RawHtmlIsContent [] ∧
      tree.toHtml false = tree.withoutRawHtml.toHtml true ∧
      (tree.toHtml false).write = text "<blockquote></blockquote>
<ul>
<li>a</li>
<li></li>
</ul>
<table>
<tbody>
<tr>
<td>b</td>
<td></td>
</tr>
</tbody>
</table>" := by
  intro tree
  have hTables : tree.RawHtmlIsContent [] := by decide
  exact ⟨rfl, hTables, toHtml_withoutRawHtml rfl hTables, by decide +kernel⟩

/-- A table makes a row also of a paragraph, and then a cell of raw HTML in it. The cell stays, without
content, when the raw HTML is dropped. -/
theorem toHtml_withoutRawHtml_ne :
    let tree : Node :=
      { kind := .table
        children := [{ kind := .paragraph, children := [.ofHtml (text "<b>")] }] }
    tree.kind ≠ .html ∧
      (∀ entry ∈ tree.preorder [], entry.2.kind = .table ∨ entry.2.kind = .tableRow →
        ∀ child ∈ entry.2.children, child.kind ≠ .html) ∧
      (tree.toHtml false).write =
        text "<table>\n<tbody>\n<tr>\n<td></td>\n</tr>\n</tbody>\n</table>" ∧
      (tree.withoutRawHtml.toHtml true).write =
        text "<table>\n<tbody>\n<tr>\n</tr>\n</tbody>\n</table>" ∧
      tree.toHtml false ≠ tree.withoutRawHtml.toHtml true := by
  intro tree
  have hCell : (tree.toHtml false).write =
      text "<table>\n<tbody>\n<tr>\n<td></td>\n</tr>\n</tbody>\n</table>" := rfl
  have hNoCell : (tree.withoutRawHtml.toHtml true).write =
      text "<table>\n<tbody>\n<tr>\n</tr>\n</tbody>\n</table>" := rfl
  refine ⟨nofun, by decide, hCell, hNoCell, fun hSame => ?_⟩
  rw [hSame, hNoCell] at hCell
  revert hCell
  decide

end Node

end DirectiveMarkdown
