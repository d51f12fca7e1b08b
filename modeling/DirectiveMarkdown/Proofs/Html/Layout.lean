import Mathlib
import DirectiveMarkdown.Html.Conversion
import DirectiveMarkdown.Html.Writer
import DirectiveMarkdown.Document.Expansion

/-! What conversion makes of several nodes, and the line breaks that it adds between them. Whether a list item
gets line breaks is decided once for all of its children. -/
namespace DirectiveMarkdown

namespace HtmlNode

/-- Nodes with a gap before, between and after them. -/
def spaced (gap nodes : List HtmlNode) : List HtmlNode := gap ++ nodes.flatMap (· :: gap)

theorem spaced_no_gap (nodes : List HtmlNode) : spaced [] nodes = nodes := by
  rw [spaced, List.nil_append]
  exact List.flatMap_singleton' nodes

/-- Between two nodes in a row stands the gap alone. -/
theorem spaced_append_cons_cons (gap before : List HtmlNode) (first second : HtmlNode)
    (after : List HtmlNode) : spaced gap (before ++ first :: second :: after) =
      spaced gap before ++ first :: (gap ++ second :: (gap ++ after.flatMap (· :: gap))) := by
  simp [spaced]

/-- A line break before all nodes and behind each is a gap of one line break. -/
theorem joinLines_eq_spaced (nodes : List HtmlNode) : joinLines nodes = spaced [newline] nodes := rfl

theorem separated_append_newline {nodes : List HtmlNode} (h : nodes ≠ []) :
    separated nodes ++ [newline] = nodes.flatMap (· :: [newline]) := by
  fun_induction separated nodes with
  | case1 => exact absurd rfl h
  | case2 node => rfl
  | case3 node rest hRest ih =>
      rw [List.cons_append, List.cons_append, ih hRest]
      rfl

/-- Line breaks around blocks, if there are any, stand after each of them as well. -/
theorem enclosed_eq_spaced {nodes : List HtmlNode} (h : nodes ≠ []) :
    enclosed nodes = spaced [newline] nodes := by
  rw [enclosed, if_neg (by simpa using h), List.cons_append, separated_append_newline h]
  rfl

section Membership

variable {nodes : List HtmlNode} {made : HtmlNode}

/-- Nothing but line breaks is added. -/
theorem mem_of_mem_joinLines (h : made ∈ joinLines nodes) : made = newline ∨ made ∈ nodes := by
  rcases List.mem_cons.1 h with rfl | h
  · exact .inl rfl
  · obtain ⟨node, hNode, h⟩ := List.mem_flatMap.1 h
    simp only [List.mem_cons, List.not_mem_nil, or_false] at h
    rcases h with rfl | rfl
    · exact .inr hNode
    · exact .inl rfl

theorem mem_of_mem_enclosed (h : made ∈ enclosed nodes) : made = newline ∨ made ∈ nodes := by
  cases nodes with
  | nil => cases h
  | cons node rest =>
      rw [enclosed_eq_spaced (List.cons_ne_nil _ _), ← joinLines_eq_spaced] at h
      exact mem_of_mem_joinLines h

theorem mem_of_mem_separated (h : made ∈ separated nodes) : made = newline ∨ made ∈ nodes := by
  cases nodes with
  | nil => cases h
  | cons node rest =>
      refine mem_of_mem_enclosed ?_
      rw [enclosed, if_neg (by simp)]
      exact List.mem_append_left _ (List.mem_cons_of_mem _ h)

end Membership

section Observation

variable {α : Type} {f : HtmlNode → List α} (h : f newline = [])

include h

/-- What does not see line breaks sees the nodes between them. -/
theorem flatMap_joinLines (nodes : List HtmlNode) : (joinLines nodes).flatMap f = nodes.flatMap f := by
  rw [joinLines, List.flatMap_cons, h, List.nil_append, List.flatMap_assoc]
  simp [h]

theorem flatMap_enclosed (nodes : List HtmlNode) : (enclosed nodes).flatMap f = nodes.flatMap f := by
  cases nodes with
  | nil => rfl
  | cons node rest =>
      rw [enclosed_eq_spaced (List.cons_ne_nil _ _), ← joinLines_eq_spaced, flatMap_joinLines h]

theorem flatMap_separated (nodes : List HtmlNode) : (separated nodes).flatMap f = nodes.flatMap f := by
  cases nodes with
  | nil => rfl
  | cons node rest =>
      have hEnclosed := flatMap_enclosed h (node :: rest)
      rw [enclosed, if_neg (by simp), List.flatMap_append, List.flatMap_cons, h] at hEnclosed
      simpa [h] using hEnclosed

end Observation

end HtmlNode

/-- The element of a node with metadata has the content that the children of the node become. -/
theorem toHtml?_of_metadata {node : Node} {metadata : Metadata} (rawHtml : Bool)
    (h : node.metadata = some metadata) :
    node.toHtml? rawHtml = some (.element metadata.targetElement metadata.targetProperties
      (Node.allToHtml rawHtml node.children)) := by
  obtain ⟨kind, name, attributes, _, children, value⟩ := node
  cases h
  rw [Node.toHtml?]

namespace Node

/-- Nodes are converted one by one, and those without HTML are left out. -/
theorem allToHtml_eq_filterMap (rawHtml : Bool) (nodes : List Node) :
    allToHtml rawHtml nodes = nodes.filterMap (toHtml? rawHtml) := by
  induction nodes with
  | nil => rw [allToHtml]; rfl
  | cons node rest ih =>
      rw [allToHtml, ih, List.filterMap_cons]
      cases node.toHtml? rawHtml <;> rfl

/-- Each row of a table becomes one of its own. -/
theorem rowsToHtml_eq_map (rawHtml : Bool) (alignments : List Text) (nodes : List Node) :
    rowsToHtml rawHtml alignments nodes = nodes.map fun row =>
      (isHeaderRow row.attributes, .ofTag "tr" (HtmlNode.joinLines
        (cellsToHtml rawHtml (isHeaderRow row.attributes) alignments row.children))) := by
  induction nodes with
  | nil => rw [rowsToHtml]; rfl
  | cons node rest ih =>
      obtain ⟨kind, name, attributes, metadata, children, value⟩ := node
      rw [rowsToHtml, ih]
      rfl

/-- Each cell of a row becomes one of its own, with the alignment of its column. -/
theorem cellsToHtml_eq_mapIdx (rawHtml header : Bool) (alignments : List Text) (nodes : List Node) :
    cellsToHtml rawHtml header alignments nodes = nodes.mapIdx fun column cell =>
      .element (if header then text "th" else text "td") (cellProperties alignments[column]?)
        (allToHtml rawHtml cell.children) := by
  induction nodes generalizing alignments with
  | nil => rw [cellsToHtml]; rfl
  | cons node rest ih =>
      obtain ⟨kind, name, attributes, metadata, children, value⟩ := node
      rw [cellsToHtml, ih, List.mapIdx_cons]
      simp only [List.getElem?_tail, List.head?_eq_getElem?]

/-- Only raw HTML is left out. -/
theorem isSome_toHtml? (rawHtml : Bool) {node : Node} (h : node.kind ≠ .html) :
    (node.toHtml? rawHtml).isSome = true := by
  obtain ⟨kind, name, attributes, metadata, children, value⟩ := node
  cases metadata with
  | some metadata => rw [toHtml?]; rfl
  | none =>
      cases kind with
      | html => exact absurd rfl h
      | _ => rw [toHtml?]; rfl

/-- Only raw HTML may come to nothing. -/
theorem allToHtml_ne_nil (rawHtml : Bool) {nodes : List Node} {node : Node} (hMem : node ∈ nodes)
    (h : node.kind ≠ .html) : allToHtml rawHtml nodes ≠ [] := by
  obtain ⟨made, hMade⟩ := Option.isSome_iff_exists.1 (isSome_toHtml? rawHtml h)
  rw [allToHtml_eq_filterMap]
  exact List.ne_nil_of_mem (List.mem_filterMap.2 ⟨node, hMem, hMade⟩)

def taskBox (attributes : TextMap) : List HtmlNode :=
  match attributes.get? (text "checked") with
  | some checked => checkBox (checked = text "true")
  | none => []

def itemProperties (attributes : TextMap) : TextMap :=
  match attributes.get? (text "checked") with
  | some _ => TextMap.insert ∅ (text "class") (text "task-list-item")
  | none => ∅

/-- The element of an item holds the check box of a task and then the content. -/
theorem itemElement_eq (attributes : TextMap) (phrasing : Bool) (children : List HtmlNode) :
    itemElement attributes phrasing children = .element (text "li") (itemProperties attributes)
      (taskBox attributes ++ if phrasing then children else HtmlNode.enclosed children) := by
  rw [itemElement, taskBox, itemProperties]
  cases attributes.get? (text "checked") <;> rfl

/-- What conversion puts before, between and after what the children of a list item become. -/
def itemGap (children : List Node) : List HtmlNode :=
  if children.all (fun child => child.kind.isPhrasing) then [] else [.newline]

/-- An item has no gap exactly if all its children are of phrasing kinds. -/
theorem itemGap_eq_nil_iff (children : List Node) :
    itemGap children = [] ↔ ∀ child ∈ children, child.kind.isPhrasing = true := by
  rw [itemGap, ← List.all_eq_true]
  split
  · next h => exact iff_of_true rfl h
  · next h => exact iff_of_false nofun h

/-- The content of an item holds what its children become with the gap around each. -/
theorem itemContent_eq (rawHtml : Bool) (children : List Node) :
    (if children.all (fun child => child.kind.isPhrasing) then allToHtml rawHtml children
      else HtmlNode.enclosed (allToHtml rawHtml children)) =
      HtmlNode.spaced (itemGap children) (allToHtml rawHtml children) := by
  unfold itemGap
  split
  · exact (HtmlNode.spaced_no_gap _).symm
  · next hBlock =>
      obtain ⟨child, hMem, hChild⟩ : ∃ child ∈ children, child.kind.isPhrasing = false := by
        simpa using hBlock
      have hNotHtml : child.kind ≠ .html := by
        intro hHtml
        rw [hHtml] at hChild
        cases hChild
      exact HtmlNode.enclosed_eq_spaced (allToHtml_ne_nil rawHtml hMem hNotHtml)

/-- Conversion of a list item puts one and the same gap before, between and after what its children become.
The gap is empty exactly if all children are of phrasing kinds. Else it is a line break, and it stands
between two children in a row whatever these two are. -/
theorem toHtml?_listItem_spaced (rawHtml : Bool) {item : Node} (hKind : item.kind = .listItem)
    (hPlain : item.metadata = none) :
    ∃ gap,
      item.toHtml? rawHtml = some (.element (text "li") (itemProperties item.attributes)
        (taskBox item.attributes ++ HtmlNode.spaced gap (allToHtml rawHtml item.children))) ∧
      (gap = [] ∨ gap = [.text (text "\n")]) ∧
      (gap = [] ↔ ∀ child ∈ item.children, child.kind.isPhrasing = true) ∧
      ∀ before first second after a b, item.children = before ++ first :: second :: after →
        first.toHtml? rawHtml = some a → second.toHtml? rawHtml = some b →
        HtmlNode.spaced gap (allToHtml rawHtml item.children) =
          HtmlNode.spaced gap (allToHtml rawHtml before) ++
            a :: (gap ++ b :: (gap ++ (allToHtml rawHtml after).flatMap (· :: gap))) := by
  obtain ⟨kind, name, attributes, metadata, children, value⟩ := item
  cases hKind
  cases hPlain
  refine ⟨itemGap children, ?_, ?_, itemGap_eq_nil_iff children, ?_⟩
  · rw [toHtml?, itemElement_eq, itemContent_eq]
  · unfold itemGap
    split
    · exact .inl rfl
    · exact .inr rfl
  · intro before first second after a b hChildren hFirst hSecond
    rw [hChildren, allToHtml_eq_filterMap, allToHtml_eq_filterMap, allToHtml_eq_filterMap,
      List.filterMap_append, List.filterMap_cons_some hFirst, List.filterMap_cons_some hSecond,
      HtmlNode.spaced_append_cons_cons]

/-- An item of running text alone gets no line breaks. -/
theorem toHtml?_listItem_spaced_phrasing :
    ∃ item : Node, item.kind = .listItem ∧ item.metadata = none ∧
      item.children = [.ofText (text "foo"), { kind := .emphasis, children := [.ofText (text "bar")] }] ∧
      item.toHtml? true =
        some (.ofTag "li" [.text (text "foo"), .ofTag "em" [.text (text "bar")]]) := by
  let item : Node :=
    { kind := .listItem
      children := [.ofText (text "foo"), { kind := .emphasis, children := [.ofText (text "bar")] }] }
  have hPhrasing : ∀ child ∈ item.children, child.kind.isPhrasing = true :=
    List.forall_mem_cons.2 ⟨rfl, List.forall_mem_singleton.2 rfl⟩
  obtain ⟨gap, hMade, -, hGap, -⟩ :=
    toHtml?_listItem_spaced true (show item.kind = .listItem from rfl) rfl
  rw [hGap.2 hPhrasing, HtmlNode.spaced_no_gap] at hMade
  exact ⟨item, rfl, rfl, rfl, hMade⟩

/-- A list nested in a tight item puts a line break inside the word that stands before it. -/
theorem toHtml?_listItem_nested :
    ∃ item nested : Node, ∃ foo bar made,
      ((parseDocument true (text "- foo*bar*\n  - x\n")).children.flatMap Node.children) = [item] ∧
      item.kind = .listItem ∧ item.metadata = none ∧
      item.children = [foo, bar, nested] ∧
      foo.kind.isPhrasing = true ∧ foo.metadata = none ∧
      foo.toHtml? true = some (.text (text "foo")) ∧
      bar.kind.isPhrasing = true ∧ bar.metadata = none ∧
      bar.toHtml? true = some (.ofTag "em" [.text (text "bar")]) ∧
      item.toHtml? true = some (.ofTag "li" [.text (text "\n"), .text (text "foo"), .text (text "\n"),
        .ofTag "em" [.text (text "bar")], .text (text "\n"), made, .text (text "\n")]) ∧
      ((parseDocument true (text "- foo*bar*\n  - x\n")).toHtml true).write =
        text "<ul>\n<li>\nfoo\n<em>bar</em>\n<ul>\n<li>x</li>\n</ul>\n</li>\n</ul>" := by
  let bar : Node := { kind := .emphasis, children := [.ofText (text "bar")] }
  let nested : Node :=
    { kind := .list
      attributes := TextMap.insert ∅ (text "ordered") (text "false")
      children := [{ kind := .listItem, children := [.ofText (text "x")] }] }
  let item : Node := { kind := .listItem, children := [.ofText (text "foo"), bar, nested] }
  have hDocument : parseDocument true (text "- foo*bar*\n  - x\n") =
      { kind := .root
        children := [{ kind := .list
                       attributes := TextMap.insert ∅ (text "ordered") (text "false")
                       children := [item] }] } := by
    cbv
  have hWritten : ((parseDocument true (text "- foo*bar*\n  - x\n")).toHtml true).write =
      text "<ul>\n<li>\nfoo\n<em>bar</em>\n<ul>\n<li>x</li>\n</ul>\n</li>\n</ul>" := by
    decide +kernel
  have hFoo : (ofText (text "foo")).toHtml? true = some (.text (text "foo")) := by
    rw [ofText, toHtml?]
  have hBar : bar.toHtml? true = some (.ofTag "em" [.text (text "bar")]) := by
    simp only [bar, toHtml?, allToHtml, ofText]
    rfl
  have hItem : item.toHtml? true = some (.ofTag "li" [.text (text "\n"), .text (text "foo"),
      .text (text "\n"), .ofTag "em" [.text (text "bar")], .text (text "\n"),
      .ofTag "ul" [.newline, .ofTag "li" [.text (text "x")], .newline], .text (text "\n")]) := by
    simp only [item, bar, nested, toHtml?, allToHtml, ofText]
    rfl
  exact ⟨item, nested, .ofText (text "foo"), bar, _, by rw [hDocument]; rfl, rfl, rfl, rfl, rfl, rfl, hFoo,
    rfl, rfl, hBar, hItem, hWritten⟩

end Node

end DirectiveMarkdown
