import DirectiveMarkdown.Proofs.Document.LabelHtml
import DirectiveMarkdown.Proofs.Html.ChosenElements

/-! The text of an HTML tree is the text of the syntax tree that it was made of. Conversion adds nothing but
white space: the line breaks between blocks and the blank after a check box. -/
namespace DirectiveMarkdown

namespace Text

/-- The characters of a text that are not white space. -/
def withoutBlanks (s : Text) : Text := s.filter fun c => !isBlank c

theorem withoutBlanks_flatMap {α : Type} (f : α → Text) (items : List α) :
    withoutBlanks (items.flatMap f) = items.flatMap fun item => withoutBlanks (f item) :=
  List.filter_flatMap ..

end Text

namespace HtmlNode

mutual

/-- The text of a tree in document order. Raw markup has none. -/
def textContent : HtmlNode → DirectiveMarkdown.Text
  | .root children | .element _ _ children => allTextContent children
  | .text value => value
  | .raw _ => []

def allTextContent : List HtmlNode → DirectiveMarkdown.Text
  | [] => []
  | node :: rest => node.textContent ++ allTextContent rest

end

theorem allTextContent_eq (nodes : List HtmlNode) : allTextContent nodes = nodes.flatMap textContent := by
  induction nodes with
  | nil => rfl
  | cons node rest ih => rw [allTextContent, ih, List.flatMap_cons]

def solidText (node : HtmlNode) : DirectiveMarkdown.Text := node.textContent.withoutBlanks

theorem solidText_newline : newline.solidText = [] := rfl

theorem solidText_text (value : DirectiveMarkdown.Text) : (text value).solidText = value.withoutBlanks := rfl

theorem solidText_root (children : List HtmlNode) :
    (root children).solidText = children.flatMap solidText := by
  rw [solidText, textContent, allTextContent_eq, Text.withoutBlanks_flatMap]
  rfl

/-- A tag adds no text. -/
theorem solidText_element (tag : DirectiveMarkdown.Text) (properties : TextMap) (children : List HtmlNode) :
    (element tag properties children).solidText = children.flatMap solidText := by
  rw [solidText, textContent, allTextContent_eq, Text.withoutBlanks_flatMap]
  rfl

theorem solidText_ofTag (tag : String) (children : List HtmlNode) :
    (ofTag tag children).solidText = children.flatMap solidText := solidText_element ..

end HtmlNode

section Layout

open HtmlNode (solidText solidText_element solidText_ofTag solidText_newline)

/-- The two elements of a block of code show its value. -/
theorem solidText_codeBlock (attributes : TextMap) (value : Text) :
    (codeBlock attributes value).solidText = value.withoutBlanks := by
  rw [codeBlock, solidText_ofTag, List.flatMap_singleton, solidText_element, List.flatMap_singleton,
    HtmlNode.solidText_text]

theorem solidText_listElement (attributes : TextMap) (items : List HtmlNode) :
    (listElement attributes items).solidText = items.flatMap solidText := by
  rw [← HtmlNode.flatMap_enclosed solidText_newline items]
  unfold listElement
  dsimp only
  split
  · exact solidText_element ..
  · exact solidText_ofTag ..

/-- A check box has no text but the blank after it. -/
theorem solidText_taskBox (attributes : TextMap) : (Node.taskBox attributes).flatMap solidText = [] := by
  unfold Node.taskBox checkBox
  split
  · rw [List.flatMap_cons, solidText_element]
    rfl
  · rfl

/-- A check box and line breaks add no text to an item but white space. -/
theorem solidText_itemElement (attributes : TextMap) (phrasing : Bool) (children : List HtmlNode) :
    (itemElement attributes phrasing children).solidText = children.flatMap solidText := by
  rw [Node.itemElement_eq, solidText_element, List.flatMap_append, solidText_taskBox, List.nil_append]
  split
  · rfl
  · exact HtmlNode.flatMap_enclosed solidText_newline children

/-- The text of a table is that of the rows of its head and then that of the others. -/
theorem solidText_tableElement (rows : List (Bool × HtmlNode)) :
    (tableElement rows).solidText =
      ((rows.filter fun row => row.1) ++ rows.filter fun row => !row.1).flatMap fun row =>
        row.2.solidText := by
  unfold tableElement
  extract_lets part
  have hPart (tag : String) (header : Bool) : (part tag header).flatMap solidText =
      (rows.filter fun row => row.1 == header).flatMap fun row => row.2.solidText := by
    rw [← List.flatMap_map Prod.snd solidText]
    dsimp only [part]
    split
    · next hNone => rw [hNone, List.flatMap_nil]
    · rw [List.flatMap_singleton, solidText_ofTag, HtmlNode.flatMap_joinLines solidText_newline]
  have hHead := hPart "thead" true
  have hBody := hPart "tbody" false
  simp only [beq_true, beq_false] at hHead hBody
  rw [solidText_ofTag, HtmlNode.flatMap_joinLines solidText_newline, List.flatMap_append,
    List.flatMap_append, hHead, hBody]

end Layout

namespace Node

/-- The text of a node that is no literal is that of its children. -/
theorem textContent_eq (node : Node) : node.textContent =
    if node.kind = .html then [] else if node.kind.isLiteral then node.value
    else node.children.flatMap textContent := by
  have hAll : ∀ nodes : List Node, allTextContent nodes = nodes.flatMap textContent := by
    intro nodes
    induction nodes with
    | nil => rfl
    | cons node rest ih => rw [allTextContent, ih, List.flatMap_cons]
  obtain ⟨kind, name, attributes, metadata, children, value⟩ := node
  rw [textContent, hAll]

/-- The node has no text that conversion leaves out, shows twice or shows in another place: no literal is made
an element by metadata, what becomes an element without content has no children, and tables hold rows of
cells, header rows first. -/
structure ShowsText (node : Node) : Prop where
  literal : node.kind.isLiteral = true → node.metadata = none
  childless : node.kind ∈ [.image, .break, .thematicBreak] → node.children = []
  rows : node.kind = .table → ∀ row ∈ node.children, row.kind = .tableRow
  headers : node.kind = .table →
    node.children.Pairwise fun row later => later.isHeader = true → row.isHeader = true
  cells : node.kind = .tableRow → ∀ cell ∈ node.children, cell.kind = .tableCell

instance (node : Node) : Decidable node.ShowsText :=
  decidable_of_iff
    ((node.kind.isLiteral = true → node.metadata = none) ∧
      (node.kind ∈ [.image, .break, .thematicBreak] → node.children = []) ∧
      (node.kind = .table → ∀ row ∈ node.children, row.kind = .tableRow) ∧
      (node.kind = .table →
        node.children.Pairwise fun row later => later.isHeader = true → row.isHeader = true) ∧
      (node.kind = .tableRow → ∀ cell ∈ node.children, cell.kind = .tableCell))
    ⟨fun ⟨hLiteral, hChildless, hRows, hHeaders, hCells⟩ =>
        ⟨hLiteral, hChildless, hRows, hHeaders, hCells⟩,
      fun h => ⟨h.literal, h.childless, h.rows, h.headers, h.cells⟩⟩

def solidText (node : Node) : Text := node.textContent.withoutBlanks

/-- A literal that is no raw HTML shows its value. -/
theorem solidText_of_literal {node : Node} (hKind : node.kind.isLiteral = true) (hHtml : node.kind ≠ .html) :
    node.solidText = node.value.withoutBlanks := by
  rw [solidText, textContent_eq, if_neg hHtml, if_pos hKind]

theorem solidText_of_html {node : Node} (hKind : node.kind = .html) : node.solidText = [] := by
  rw [solidText, textContent_eq, if_pos hKind]
  rfl

/-- The text of any other node is that of its children. -/
theorem solidText_of_not_literal {node : Node} (hKind : node.kind.isLiteral = false) :
    node.solidText = node.children.flatMap solidText := by
  have hHtml : node.kind ≠ .html := by
    intro hHtml
    rw [hHtml] at hKind
    cases hKind
  rw [solidText, textContent_eq, if_neg hHtml, if_neg (by simp [hKind]), Text.withoutBlanks_flatMap]
  rfl

section Conversion

variable {rawHtml : Bool} {nodes : List Node}

theorem flatMap_solidText_allToHtml
    (h : ∀ node ∈ nodes, (node.toHtml? rawHtml).toList.flatMap HtmlNode.solidText = node.solidText) :
    (allToHtml rawHtml nodes).flatMap HtmlNode.solidText = nodes.flatMap solidText := by
  rw [allToHtml_eq_filterMap, List.filterMap_eq_flatMap_toList, List.flatMap_assoc]
  exact List.flatMap_congr h

theorem flatMap_solidText_cellsToHtml (header : Bool) (alignments : List Text)
    (h : ∀ cell ∈ nodes,
      (allToHtml rawHtml cell.children).flatMap HtmlNode.solidText = cell.solidText) :
    (cellsToHtml rawHtml header alignments nodes).flatMap HtmlNode.solidText =
      nodes.flatMap solidText := by
  induction nodes generalizing alignments with
  | nil => rw [cellsToHtml]; rfl
  | cons cell rest ih =>
      have hCell := h cell (List.mem_cons_self ..)
      have hRest := ih alignments.tail fun other hMem => h other (List.mem_cons_of_mem _ hMem)
      obtain ⟨kind, name, attributes, metadata, children, value⟩ := cell
      rw [cellsToHtml, List.flatMap_cons, List.flatMap_cons, HtmlNode.solidText_element, hCell, hRest]

/-- A table shows the text of its rows in their order if its header rows come first. -/
theorem solidText_table (alignments : List Text)
    (hHeaders : nodes.Pairwise fun row later => later.isHeader = true → row.isHeader = true)
    (h : ∀ row ∈ nodes, ∀ header, (cellsToHtml rawHtml header alignments row.children).flatMap
      HtmlNode.solidText = row.solidText) :
    (tableElement (rowsToHtml rawHtml alignments nodes)).solidText = nodes.flatMap solidText := by
  have hDivided : (nodes.filter isHeader ++ nodes.filter fun row => !row.isHeader) = nodes :=
    filter_append_filter_of_pairwise hHeaders
  rw [solidText_tableElement, rowsToHtml_eq_map, List.filter_map, List.filter_map, ← List.map_append,
    List.flatMap_map]
  change (nodes.filter isHeader ++ nodes.filter fun row => !row.isHeader).flatMap _ = _
  rw [hDivided]
  refine List.flatMap_congr fun row hRow => ?_
  rw [HtmlNode.solidText_ofTag, HtmlNode.flatMap_joinLines HtmlNode.solidText_newline, h row hRow]

/-- What a node becomes has the text of the node, given what its children become as content, as cells and as rows.
-/
theorem flatMap_solidText_toHtml?_of_children {node : Node} (hHere : node.ShowsText)
    (hContent : node.kind.isLiteral = false →
      (allToHtml rawHtml node.children).flatMap HtmlNode.solidText = node.solidText)
    (hCells : node.kind = .tableRow → ∀ header alignments,
      (cellsToHtml rawHtml header alignments node.children).flatMap HtmlNode.solidText =
        node.solidText)
    (hTable : node.kind = .table → ∀ alignments,
      (tableElement (rowsToHtml rawHtml alignments node.children)).solidText = node.solidText) :
    (node.toHtml? rawHtml).toList.flatMap HtmlNode.solidText = node.solidText := by
  cases hMetadata : node.metadata with
  | some metadata =>
      have hKind : node.kind.isLiteral = false := by
        cases hLiteral : node.kind.isLiteral with
        | false => rfl
        | true => rw [hHere.literal hLiteral] at hMetadata; cases hMetadata
      rw [toHtml?_of_metadata rawHtml hMetadata, Option.toList_some, List.flatMap_singleton,
        HtmlNode.solidText_element, hContent hKind]
  | none =>
      have hBare (hKind : node.kind ∈ [.image, .break, .thematicBreak])
          (hLiteral : node.kind.isLiteral = false) : node.solidText = [] := by
        rw [solidText_of_not_literal hLiteral, hHere.childless hKind, List.flatMap_nil]
      have hValue (hKind : node.kind.isLiteral = true) (hHtml : node.kind ≠ .html) :=
        solidText_of_literal hKind hHtml
      have hHtml (hKind : node.kind = .html) := solidText_of_html hKind
      obtain ⟨kind, name, attributes, metadata, children, value⟩ := node
      cases hMetadata
      cases kind <;> rw [toHtml?]
      case html =>
        rw [hHtml rfl]
        cases rawHtml <;> rfl
      all_goals rw [Option.toList_some, List.flatMap_singleton]
      case text => exact (hValue rfl (by simp)).symm
      case inlineCode =>
        rw [hValue rfl (by simp), HtmlNode.solidText_ofTag, List.flatMap_singleton]
        rfl
      case code => rw [hValue rfl (by simp), solidText_codeBlock]
      case image | «break» | thematicBreak =>
        rw [hBare (by simp) rfl]
        rfl
      case root =>
        rw [HtmlNode.solidText_root, HtmlNode.flatMap_separated HtmlNode.solidText_newline]
        exact hContent rfl
      case blockQuote =>
        rw [HtmlNode.solidText_ofTag, HtmlNode.flatMap_enclosed HtmlNode.solidText_newline]
        exact hContent rfl
      case list => exact (solidText_listElement ..).trans (hContent rfl)
      case listItem => exact (solidText_itemElement ..).trans (hContent rfl)
      case table => exact hTable rfl _
      case tableRow =>
        rw [HtmlNode.solidText_ofTag, HtmlNode.flatMap_joinLines HtmlNode.solidText_newline]
        exact hCells rfl _ _
      all_goals exact (HtmlNode.solidText_element ..).trans (hContent rfl)

/-- What a node becomes has the text of the node, and so has what the children become of a node that is no
literal, and of a row. -/
theorem flatMap_solidText_toHtml? (rawHtml : Bool) {node : Node} (h : node.Everywhere ShowsText) :
    (node.toHtml? rawHtml).toList.flatMap HtmlNode.solidText = node.solidText ∧
    (node.kind.isLiteral = false →
      (allToHtml rawHtml node.children).flatMap HtmlNode.solidText = node.solidText) ∧
    (node.kind = .tableRow → ∀ header alignments,
      (cellsToHtml rawHtml header alignments node.children).flatMap HtmlNode.solidText =
        node.solidText) := by
  induction h with
  | @intro node hHere hBelow ih =>
      have hContent (hKind : node.kind.isLiteral = false) :
          (allToHtml rawHtml node.children).flatMap HtmlNode.solidText = node.solidText := by
        rw [solidText_of_not_literal hKind]
        exact flatMap_solidText_allToHtml fun child hChild => (ih child hChild).1
      have hCells (hKind : node.kind = .tableRow) (header : Bool) (alignments : List Text) :
          (cellsToHtml rawHtml header alignments node.children).flatMap HtmlNode.solidText =
            node.solidText := by
        rw [solidText_of_not_literal (by rw [hKind]; rfl)]
        refine flatMap_solidText_cellsToHtml header alignments fun cell hCell => ?_
        exact (ih cell hCell).2.1 (by rw [hHere.cells hKind cell hCell]; rfl)
      have hTable (hKind : node.kind = .table) (alignments : List Text) :
          (tableElement (rowsToHtml rawHtml alignments node.children)).solidText = node.solidText := by
        rw [solidText_of_not_literal (by rw [hKind]; rfl)]
        refine solidText_table alignments (hHere.headers hKind) fun row hRow header => ?_
        exact (ih row hRow).2.2 (hHere.rows hKind row hRow) header alignments
      exact ⟨flatMap_solidText_toHtml?_of_children hHere hContent hCells hTable, hContent, hCells⟩

end Conversion

/-- Conversion loses, repeats and reorders no text: the texts of the HTML tree, one after the other, are the
text of the syntax tree, but for white space. It makes no difference whether raw HTML is let through. -/
theorem textContent_toHtml (rawHtml : Bool) {tree : Node} (h : tree.Everywhere ShowsText) :
    (tree.toHtml rawHtml).textContent.withoutBlanks = tree.textContent.withoutBlanks := by
  have hTree := (flatMap_solidText_toHtml? rawHtml h).1
  rw [toHtml]
  cases hMade : tree.toHtml? rawHtml with
  | none =>
      rw [hMade] at hTree
      exact hTree
  | some made =>
      rw [hMade, Option.toList_some, List.flatMap_singleton] at hTree
      exact hTree

/-- White space is all that is added around a hard line break, a task and the parts of a table. -/
theorem textContent_toHtml_blocks :
    let tree : Node :=
      { kind := .root
        children := [
          { kind := .containerDirective
            metadata := some ⟨text "aside", ∅⟩
            children := [.ofText (text "Be"), { kind := .break }, .ofHtml (text "<b>"),
              .ofText (text "careful.")] },
          { kind := .list
            children := [{ kind := .listItem
                           attributes := TextMap.insert ∅ (text "checked") (text "true")
                           children := [.ofText (text "A task")] }] },
          { kind := .table
            children := [
              { kind := .tableRow
                attributes := TextMap.insert ∅ (text "header") (text "true")
                children := [tableCellOf none [.ofText (text "Head")]] },
              { kind := .tableRow, children := [tableCellOf none [.ofText (text "Body")]] }] }] }
    tree.Everywhere ShowsText ∧ tree.textContent = text "Becareful.A taskHeadBody" ∧
      (tree.toHtml false).textContent =
        text "Be\ncareful.\n\n A task\n\n\n\n\nHead\n\n\n\n\nBody\n\n\n" ∧
      (tree.toHtml false).textContent.withoutBlanks = text "Becareful.AtaskHeadBody" := by
  intro tree
  have hShows : tree.Everywhere ShowsText := (everywhere_iff_preorder []).2 (by decide)
  exact ⟨hShows, rfl, rfl, textContent_toHtml false hShows⟩

end Node

end DirectiveMarkdown
