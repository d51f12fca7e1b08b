import DirectiveMarkdown.Proofs.Document.LabelHtml
import DirectiveMarkdown.Proofs.Html.Layout
import DirectiveMarkdown.Proofs.Html.OwnMarkup

/-! What becomes of the body of a callout. Conversion makes it the content of the callout's element
under any name that the rule for callouts accepts. Whether it is written depends on the name: some of
the names belong to elements that have no content. -/
namespace DirectiveMarkdown

namespace HtmlNode

mutual

/-- The elements with a variant, as callouts have one, in pre-order. -/
def callouts : HtmlNode → List HtmlNode
  | .root children => calloutsOf children
  | .element tag properties children =>
    (if properties.contains (DirectiveMarkdown.text "variant") then
      [.element tag properties children] else []) ++ calloutsOf children
  | .text _ | .raw _ => []

def calloutsOf : List HtmlNode → List HtmlNode
  | [] => []
  | node :: rest => node.callouts ++ calloutsOf rest

end

theorem calloutsOf_eq (nodes : List HtmlNode) : calloutsOf nodes = nodes.flatMap callouts := by
  induction nodes with
  | nil => rfl
  | cons node rest ih => rw [calloutsOf, ih, List.flatMap_cons]

theorem calloutsOf_append (nodes more : List HtmlNode) :
    calloutsOf (nodes ++ more) = calloutsOf nodes ++ calloutsOf more := by
  simp only [calloutsOf_eq, List.flatMap_append]

theorem callouts_newline : newline.callouts = [] := rfl

/-- An element without a variant only passes on the callouts in it. -/
theorem callouts_element {tag : DirectiveMarkdown.Text} {properties : TextMap}
    {children : List HtmlNode}
    (h : properties.get? (DirectiveMarkdown.text "variant") = none) :
    (HtmlNode.element tag properties children).callouts = calloutsOf children := by
  rw [callouts, TextMap.contains, h]
  rfl

theorem callouts_ofTag (tag : String) (children : List HtmlNode) :
    (ofTag tag children).callouts = calloutsOf children := callouts_element rfl

/-- The lines between blocks hold no callouts. -/
theorem calloutsOf_separated (nodes : List HtmlNode) :
    calloutsOf (separated nodes) = calloutsOf nodes := by
  rw [calloutsOf_eq, calloutsOf_eq, flatMap_separated callouts_newline]

theorem calloutsOf_enclosed (nodes : List HtmlNode) :
    calloutsOf (enclosed nodes) = calloutsOf nodes := by
  rw [calloutsOf_eq, calloutsOf_eq, flatMap_enclosed callouts_newline]

theorem calloutsOf_joinLines (nodes : List HtmlNode) :
    calloutsOf (joinLines nodes) = calloutsOf nodes := by
  rw [calloutsOf_eq, calloutsOf_eq, flatMap_joinLines callouts_newline]

end HtmlNode

section Conversion

open HtmlNode (calloutsOf calloutsOf_enclosed calloutsOf_joinLines callouts_element callouts_ofTag)

/-- Properties with the key of another one added. -/
theorem variant_insert {properties : TextMap} {key : Text} (value : Text)
    (hKey : key ≠ text "variant") :
    (properties.insert key value).get? (text "variant") = properties.get? (text "variant") := by
  rw [TextMap.get?_insert, if_neg (Ne.symm hKey)]

/-- Copying an attribute to another key leaves the variant alone. -/
theorem variant_copyAttribute (attributes properties : TextMap) (source : String) {target : String}
    (hKey : target.toList ≠ text "variant") :
    (copyAttribute attributes source target properties).get? (text "variant") =
      properties.get? (text "variant") := by
  unfold copyAttribute
  split
  · exact variant_insert _ hKey
  · rfl

theorem callouts_codeBlock (attributes : TextMap) (value : Text) :
    (codeBlock attributes value).callouts = [] := by
  rw [codeBlock, callouts_ofTag, calloutsOf, callouts_element]
  · rfl
  · split
    · exact variant_insert _ (by decide)
    · rfl

theorem callouts_listElement (attributes : TextMap) (items : List HtmlNode) :
    (listElement attributes items).callouts = calloutsOf items := by
  unfold listElement
  dsimp only
  split
  · rw [callouts_element, calloutsOf_enclosed]
    split
    · split
      · rfl
      · exact variant_insert _ (by decide)
    · rfl
  · rw [callouts_ofTag, calloutsOf_enclosed]

theorem calloutsOf_checkBox (checked : Bool) : calloutsOf (checkBox checked) = [] := by
  cases checked <;> rfl

/-- The callouts of an item are those of its content, with or without a check box. -/
theorem callouts_itemElement (attributes : TextMap) (phrasing : Bool) (children : List HtmlNode) :
    (itemElement attributes phrasing children).callouts = calloutsOf children := by
  have hContent : calloutsOf (if phrasing then children else HtmlNode.enclosed children) =
      calloutsOf children := by
    split
    · rfl
    · exact calloutsOf_enclosed children
  unfold itemElement
  dsimp only
  split
  · rw [callouts_element (variant_insert _ (by decide)), HtmlNode.calloutsOf_append,
      calloutsOf_checkBox, hContent]
    rfl
  · rw [callouts_ofTag, hContent]

/-- The callouts of a table stand in its rows, head or body. -/
theorem mem_callouts_tableElement {rows : List (Bool × HtmlNode)} {made : HtmlNode}
    (hMem : made ∈ (tableElement rows).callouts) : ∃ row ∈ rows, made ∈ row.2.callouts := by
  unfold tableElement at hMem
  extract_lets part at hMem
  have hPartOfRows (tag : String) (header : Bool) (hMem : made ∈ calloutsOf (part tag header)) :
      ∃ row ∈ rows, made ∈ row.2.callouts := by
    unfold part at hMem
    split at hMem
    · cases hMem
    · rw [calloutsOf, callouts_ofTag, calloutsOf_joinLines, HtmlNode.calloutsOf_eq, calloutsOf,
        List.append_nil] at hMem
      obtain ⟨element, hElement, hMem⟩ := List.mem_flatMap.1 hMem
      obtain ⟨row, hRow, rfl⟩ := List.mem_map.1 hElement
      exact ⟨row, (List.mem_filter.1 hRow).1, hMem⟩
  rw [callouts_ofTag, calloutsOf_joinLines, HtmlNode.calloutsOf_append, List.mem_append] at hMem
  exact hMem.elim (hPartOfRows "thead" true) (hPartOfRows "tbody" false)

theorem variant_cellProperties (alignment : Option Text) :
    (cellProperties alignment).get? (text "variant") = none := by
  unfold cellProperties
  split
  · split
    · rfl
    · exact variant_insert _ (by decide)
  · rfl

variable {rawHtml : Bool} {p : HtmlNode → Prop} {nodes : List Node}

/-- What holds of the callouts of each node holds of those of all. -/
theorem forall_callouts_allToHtml
    (h : ∀ node ∈ nodes, ∀ made ∈ node.toHtml? rawHtml, ∀ callout ∈ made.callouts, p callout) :
    ∀ callout ∈ calloutsOf (Node.allToHtml rawHtml nodes), p callout := by
  rw [HtmlNode.calloutsOf_eq, Node.allToHtml_eq_filterMap]
  intro callout hMem
  obtain ⟨made, hMade, hMem⟩ := List.mem_flatMap.1 hMem
  obtain ⟨node, hNode, hMade⟩ := List.mem_filterMap.1 hMade
  exact h node hNode made hMade callout hMem

theorem forall_callouts_cellsToHtml (header : Bool) (alignments : List Text)
    (h : ∀ node ∈ nodes, ∀ callout ∈ calloutsOf (Node.allToHtml rawHtml node.children), p callout) :
    ∀ callout ∈ calloutsOf (Node.cellsToHtml rawHtml header alignments nodes), p callout := by
  rw [HtmlNode.calloutsOf_eq, Node.cellsToHtml_eq_mapIdx]
  intro callout hMem
  obtain ⟨made, hMade, hMem⟩ := List.mem_flatMap.1 hMem
  obtain ⟨column, hColumn, rfl⟩ := List.mem_mapIdx.1 hMade
  rw [callouts_element (variant_cellProperties _)] at hMem
  exact h _ (List.getElem_mem hColumn) callout hMem

/-- What holds of the callouts in all cells holds of those in the rows. -/
theorem forall_callouts_rowsToHtml (alignments : List Text)
    (h : ∀ node ∈ nodes, ∀ header alignments,
      ∀ callout ∈ calloutsOf (Node.cellsToHtml rawHtml header alignments node.children), p callout) :
    ∀ row ∈ Node.rowsToHtml rawHtml alignments nodes, ∀ callout ∈ row.2.callouts, p callout := by
  rw [Node.rowsToHtml_eq_map]
  intro row hMem
  obtain ⟨node, hNode, rfl⟩ := List.mem_map.1 hMem
  rw [callouts_ofTag, calloutsOf_joinLines]
  exact h node hNode _ _

/-- What holds of the elements of all nodes with metadata holds of every callout that a tree becomes,
also of those that it would have as a row of a table. -/
theorem forall_callouts_toHtml? {node : Node}
    (hNode : node.Everywhere fun other =>
      other.metadata.isSome = true → ∀ made ∈ other.toHtml? rawHtml, p made) :
    (∀ made ∈ node.toHtml? rawHtml, ∀ callout ∈ made.callouts, p callout) ∧
      (∀ callout ∈ calloutsOf (Node.allToHtml rawHtml node.children), p callout) ∧
      ∀ header alignments,
        ∀ callout ∈ calloutsOf (Node.cellsToHtml rawHtml header alignments node.children),
          p callout := by
  induction hNode with
  | @intro node hHere hBelow ih =>
      have hChildren := forall_callouts_allToHtml fun child hChild => (ih child hChild).1
      refine ⟨?_, hChildren, fun header alignments =>
        forall_callouts_cellsToHtml header alignments fun child hChild => (ih child hChild).2.1⟩
      have hRows := fun alignments =>
        forall_callouts_rowsToHtml alignments fun child hChild => (ih child hChild).2.2
      have hCells := forall_callouts_cellsToHtml (isHeaderRow node.attributes) []
        fun child hChild => (ih child hChild).2.1
      obtain ⟨kind, name, attributes, metadata, children, value⟩ := node
      intro made hMade
      cases metadata with
      | some metadata =>
          have hThis := hHere rfl made hMade
          rw [Node.toHtml?] at hMade
          cases hMade
          rw [HtmlNode.callouts, List.forall_mem_append]
          refine ⟨?_, hChildren⟩
          split
          · exact List.forall_mem_singleton.2 hThis
          · exact List.forall_mem_nil _
      | none =>
          cases kind <;> rw [Node.toHtml?] at hMade
          case html =>
            split at hMade
            · cases hMade
              exact List.forall_mem_nil _
            · cases hMade
          all_goals obtain rfl := Option.some.inj hMade
          case root => rwa [HtmlNode.callouts, HtmlNode.calloutsOf_separated]
          case heading => rwa [callouts_element rfl]
          case blockQuote => rwa [callouts_ofTag, calloutsOf_enclosed]
          case list => rwa [callouts_listElement]
          case listItem => rwa [callouts_itemElement]
          case code => rw [callouts_codeBlock]; exact List.forall_mem_nil _
          case link =>
            rwa [callouts_element]
            rw [variant_copyAttribute _ _ _ (by decide), variant_copyAttribute _ _ _ (by decide)]
            rfl
          case image =>
            rw [callouts_element]
            · exact List.forall_mem_nil _
            · rw [imageProperties, variant_copyAttribute _ _ _ (by decide),
                variant_insert _ (by decide), variant_copyAttribute _ _ _ (by decide)]
              rfl
          case table =>
            intro callout hCallout
            obtain ⟨row, hRow, hCallout⟩ := mem_callouts_tableElement hCallout
            exact hRows _ row hRow callout hCallout
          case tableRow => rwa [callouts_ofTag, calloutsOf_joinLines]
          case text | thematicBreak | «break» | inlineCode => exact List.forall_mem_nil _
          all_goals rwa [callouts_ofTag]

end Conversion

/-- An element is written with its content and an end tag, unless it is one of those without. -/
theorem write_element_eq_iff (tag : Text) (properties : TextMap) (children : List HtmlNode) :
    (HtmlNode.element tag properties children).write =
      startTag tag properties ++ HtmlNode.writeAll children ++ endTag tag ↔ tag ∉ voidElements := by
  rw [HtmlNode.write]
  by_cases hVoid : tag ∈ voidElements
  · rw [if_pos (List.contains_iff_mem.2 hVoid), List.append_assoc]
    simp [hVoid, endTag]
  · rw [if_neg (by rwa [List.contains_iff_mem])]
    simp [hVoid]

/-- A callout of an HTML tree is the element of a node with metadata, around the HTML of its children.
-/
theorem exists_node_of_mem_callouts {tree : Node} {rawHtml : Bool} {tag : Text}
    {properties : TextMap} {children : List HtmlNode}
    (hMem : .element tag properties children ∈ (tree.toHtml rawHtml).callouts) :
    ∃ entry ∈ tree.preorder [], entry.2.metadata = some ⟨tag, properties⟩ ∧
      children = Node.allToHtml rawHtml entry.2.children := by
  have hTree : tree.Everywhere fun other => other.metadata.isSome = true →
      ∀ made ∈ other.toHtml? rawHtml, ∃ entry ∈ tree.preorder [],
        entry.2.metadata.isSome = true ∧ entry.2.toHtml? rawHtml = some made :=
    (Node.everywhere_iff_preorder []).2 fun entry hEntry hSome made hMade =>
      ⟨entry, hEntry, hSome, hMade⟩
  cases hMade : tree.toHtml? rawHtml with
  | none =>
      rw [Node.toHtml, hMade] at hMem
      cases hMem
  | some made =>
      rw [Node.toHtml, hMade, Option.getD_some] at hMem
      obtain ⟨entry, hEntry, hSome, hHtml⟩ := (forall_callouts_toHtml? hTree).1 made hMade _ hMem
      obtain ⟨metadata, hMetadata⟩ := Option.isSome_iff_exists.1 hSome
      rw [toHtml?_of_metadata rawHtml hMetadata] at hHtml
      cases hHtml
      exact ⟨entry, hEntry, hMetadata, rfl⟩

/-- In the standard form of a tree every callout has its metadata. -/
theorem everywhere_metadata_standardForm (callouts : CalloutConfig) (tree : Node) :
    (tree.standardForm callouts).Everywhere fun node =>
      ∀ metadata, callouts.metadata? node = some metadata → node.metadata = some metadata := by
  induction tree using Node.inductionOnChildren with
  | step node ih =>
      cases hVideo : Video.isVideo node with
      | true =>
          rw [Node.standardForm_of_isVideo callouts hVideo]
          exact .intro nofun nofun
      | false =>
          rw [Node.standardForm_of_not_isVideo callouts hVideo]
          refine .intro ?_ ?_
          · intro metadata hCallout
            have hOwn : callouts.metadata? node = some metadata := hCallout
            change callouts.metadataAfter? node = some metadata
            rw [CalloutConfig.metadataAfter?, hOwn, Option.some_or]
          · intro child hChild
            obtain ⟨child, hMem, rfl⟩ := List.mem_map.1 hChild
            exact ih child hMem

theorem Rewriting.eq_of_error {rewriting : Rewriting} (h : rewriting.error = none) :
    rewriting = ⟨rewriting.tree, none⟩ := by
  cases rewriting
  cases h
  rfl

namespace Pipeline

variable {callouts : CalloutConfig} {callout : CalloutRule}

/-- In what the standard pipeline rewrites, every callout becomes an element around the HTML of its
children, and every callout of the HTML tree is such an element. It is written with its start tag,
this HTML and its end tag exactly if elements with its tag have content. With the other tags, which
the rule for callouts accepts as well, nothing but the start tag is written. -/
theorem callout_write_iff (hCallout : CalloutRule.ofConfig callouts = .ok callout)
    (policy : VideoPolicy) (gfm rawHtml : Bool) :
    ∃ pipeline, standard policy callouts gfm rawHtml = .ok pipeline ∧
      ∀ tree result, pipeline.rewrite tree = ⟨result, none⟩ →
        (∀ entry ∈ result.preorder [], ∀ metadata, callouts.metadata? entry.2 = some metadata →
          metadata.targetElement = callouts.element ∧
          entry.2.toHtml? rawHtml = some (.element callouts.element metadata.targetProperties
            (Node.allToHtml rawHtml entry.2.children))) ∧
        ∀ tag properties children,
          .element tag properties children ∈ (pipeline.convert result).callouts →
          (∃ entry ∈ result.preorder [], entry.2.metadata = some ⟨tag, properties⟩ ∧
            children = Node.allToHtml rawHtml entry.2.children) ∧
          ((HtmlNode.element tag properties children).write =
            startTag tag properties ++ HtmlNode.writeAll children ++ endTag tag ↔
              tag ∉ voidElements) ∧
          (tag ∈ voidElements →
            (HtmlNode.element tag properties children).write = startTag tag properties) := by
  refine ⟨_, standard_eq hCallout policy gfm rawHtml, ?_⟩
  intro tree result hRewrite
  constructor
  · intro entry hMem metadata hMetadata
    have hForm := everywhere_metadata_standardForm callouts tree
    rw [← eq_standardForm_of_rewrite hCallout hRewrite, Node.everywhere_iff_preorder []] at hForm
    have hMade := toHtml?_of_metadata rawHtml (hForm entry hMem metadata hMetadata)
    obtain ⟨category, title, rfl⟩ := CalloutConfig.exists_of_metadata? hMetadata
    exact ⟨rfl, hMade⟩
  · intro tag properties children hMem
    refine ⟨?_, write_element_eq_iff tag properties children, ?_⟩
    · exact exists_node_of_mem_callouts hMem
    · intro hVoid
      rw [HtmlNode.write, if_pos (List.contains_iff_mem.2 hVoid)]

/-- Callouts of one category that become the given element. -/
def tipsAs (element : Text) : CalloutConfig :=
  ⟨element, [text "tip"], .ofList [(text "tip", text "Tip")]⟩

def tipProperties : TextMap :=
  .ofList [(text "header", text "Tip"), (text "variant", text "tip")]

/-- A document of one callout has one element around the paragraph in it, whatever its name. -/
theorem rewrite_tip {element : Text} {pipeline : Pipeline}
    (h : standard .lenient (tipsAs element) true true = .ok pipeline)
    (hElement : isTagName element = true) :
    ∃ result, pipeline.rewrite (pipeline.parse (text ":::tip\nHi\n:::\n")) = ⟨result, none⟩ ∧
      (pipeline.convert result).callouts =
        [.element element tipProperties [.ofTag "p" [.text (text "Hi")]]] := by
  have hOk : CalloutRule.ofConfig (tipsAs element) =
      .ok ⟨element, .ofList [(text "tip", text "Tip")]⟩ := by
    rw [CalloutRule.ofConfig, tipsAs, if_pos hElement]
    rfl
  rw [standard_eq hOk] at h
  have hError : (pipeline.rewrite (pipeline.parse (text ":::tip\nHi\n:::\n"))).error = none := by
    cases h
    cbv
  have hCallouts : (pipeline.convert
      (pipeline.rewrite (pipeline.parse (text ":::tip\nHi\n:::\n"))).tree).callouts =
      [.element element tipProperties [.ofTag "p" [.text (text "Hi")]]] := by
    cases h
    cbv
  exact ⟨_, Rewriting.eq_of_error hError, hCallouts⟩

/-- The content of a callout is written between its tags. -/
theorem callout_write_iff_aside :
    ∃ pipeline, standard .lenient (tipsAs (text "aside")) true true = .ok pipeline ∧
    ∃ result children,
      pipeline.rewrite (pipeline.parse (text ":::tip\nHi\n:::\n")) = ⟨result, none⟩ ∧
      .element (text "aside") tipProperties children ∈ (pipeline.convert result).callouts ∧
      HtmlNode.writeAll children = text "<p>Hi</p>" ∧
      (HtmlNode.element (text "aside") tipProperties children).write =
        startTag (text "aside") tipProperties ++ HtmlNode.writeAll children ++
          endTag (text "aside") := by
  have hOk : CalloutRule.ofConfig (tipsAs (text "aside")) =
      .ok ⟨text "aside", .ofList [(text "tip", text "Tip")]⟩ := rfl
  obtain ⟨pipeline, hPipeline, hWritten⟩ := callout_write_iff hOk .lenient true true
  obtain ⟨result, hRewrite, hCallouts⟩ := rewrite_tip hPipeline (by decide)
  have hMem := hCallouts ▸ List.mem_singleton_self _
  exact ⟨pipeline, hPipeline, result, _, hRewrite, hMem, by cbv,
    ((hWritten _ _ hRewrite).2 _ _ _ hMem).2.1.2 (by decide)⟩

/-- The rule accepts the name of a line break, and a callout with it loses its content. -/
theorem callout_write_br :
    ∃ pipeline, standard .lenient (tipsAs (text "br")) true true = .ok pipeline ∧
    ∃ result children,
      pipeline.rewrite (pipeline.parse (text ":::tip\nHi\n:::\n")) = ⟨result, none⟩ ∧
      .element (text "br") tipProperties children ∈ (pipeline.convert result).callouts ∧
      HtmlNode.writeAll children = text "<p>Hi</p>" ∧
      (HtmlNode.element (text "br") tipProperties children).write =
        text "<br header=\"Tip\" variant=\"tip\">" ∧
      (HtmlNode.element (text "br") tipProperties children).write ≠
        startTag (text "br") tipProperties ++ HtmlNode.writeAll children ++ endTag (text "br") := by
  have hOk : CalloutRule.ofConfig (tipsAs (text "br")) =
      .ok ⟨text "br", .ofList [(text "tip", text "Tip")]⟩ := rfl
  have hPipeline := standard_eq hOk .lenient true true
  obtain ⟨result, hRewrite, hCallouts⟩ := rewrite_tip hPipeline (by decide)
  have hMem := hCallouts ▸ List.mem_singleton_self _
  refine ⟨_, hPipeline, result, _, hRewrite, hMem, by cbv, by cbv, ?_⟩
  rw [Ne, write_element_eq_iff]
  decide

end Pipeline

end DirectiveMarkdown
