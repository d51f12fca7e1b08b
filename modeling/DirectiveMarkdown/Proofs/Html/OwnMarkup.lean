import Mathlib
import DirectiveMarkdown.Proofs.Document.Invariant
import DirectiveMarkdown.Proofs.Html.Layout
import DirectiveMarkdown.Proofs.Html.Markup
import DirectiveMarkdown.Proofs.Rewriting.Standard

/-! The markup of a rendered document without raw HTML. Its tags and property keys are those that
conversion and the rule for callouts choose, whatever the source holds, and no character of the
source opens a tag. -/
namespace DirectiveMarkdown

/-- The tags of the elements that nodes become. Callouts have another one. -/
def conversionTags : List Text :=
  ["p", "h1", "h2", "h3", "h4", "h5", "h6", "hr", "br", "blockquote", "ul", "ol", "li", "input", "pre",
   "code", "em", "strong", "del", "a", "img", "table", "thead", "tbody", "tr", "th", "td",
   "div"].map String.toList

/-- The keys of the properties that these elements and callouts have. -/
def conversionKeys : List Text :=
  ["href", "src", "alt", "title", "class", "start", "align", "type", "disabled", "checked", "header",
   "variant"].map String.toList

def headingDepths : List Text := ["1", "2", "3", "4", "5", "6"].map String.toList

/-- The tag is one of the given ones or one of conversion, and so are the keys. -/
def isOwnTag (others : List Text) (tag : Text) (properties : TextMap) : Bool :=
  (others ++ conversionTags).contains tag && properties.keys.all conversionKeys.contains

namespace Node

/-- A heading has one of six depths. -/
def HasDepth (node : Node) : Prop :=
  node.kind = .heading → (node.attribute? (text "depth")).getD ['1'] ∈ headingDepths

/-- A node as it is read: no rule has chosen an element for it. -/
structure IsRead (node : Node) : Prop where
  metadata : node.metadata = none
  depth : node.HasDepth

/-- A node as the rules leave it: the element that a rule may have chosen for it is the given one. -/
structure IsAnnotated (element : Text) (node : Node) : Prop where
  metadata : ∀ metadata, node.metadata = some metadata →
    isOwnTag [element] metadata.targetElement metadata.targetProperties = true
  depth : node.HasDepth

end Node

open Markdown

theorem hasDepth_of_kind {node : Node} (h : node.kind ≠ .heading) : node.HasDepth :=
  fun hKind => absurd hKind h

/-- Other attributes than the depth leave a node as it is read. -/
theorem isRead_withAttribute {node : Node} {key : Text} (value : Text) (hKey : key ≠ text "depth")
    (h : node.IsRead) : (node.withAttribute key value).IsRead := by
  refine ⟨h.metadata, fun hKind => ?_⟩
  have hDepth := h.depth hKind
  unfold Node.attribute? Node.withAttribute at *
  rwa [TextMap.get?_insert, if_neg (Ne.symm hKey)]

/-- Reading makes no heading of another depth and no metadata. -/
theorem isRead_node (tag : Tag) : tag.node.IsRead := by
  have hPlain : ∀ kind : NodeKind, kind ≠ .heading → Node.IsRead { kind } :=
    fun kind hKind => ⟨rfl, hasDepth_of_kind hKind⟩
  have hTitle : ∀ (kind : NodeKind) (url title : Text), kind ≠ .heading →
      (({ kind : Node }.withAttribute (text "url") url).withTitle title).IsRead := by
    intro kind url title hKind
    have hUrl := isRead_withAttribute url (by decide : text "url" ≠ text "depth") (hPlain kind hKind)
    unfold Node.withTitle
    split
    · exact hUrl
    · exact isRead_withAttribute title (by decide) hUrl
  cases tag with
  | heading level =>
      refine ⟨rfl, fun _ => ?_⟩
      have hLevel : ∀ level : HeadingLevel,
          ((({ kind := .heading : Node }.withAttribute (text "depth")
            (Text.ofNat (level.val + 1))).attribute? (text "depth")).getD ['1']) ∈ headingDepths := by
        decide
      exact hLevel level
  | code info =>
      rw [Tag.node]
      split
      · exact hPlain .code (by decide)
      · exact isRead_withAttribute _ (by decide) (hPlain .code (by decide))
  | list first =>
      cases first with
      | none => exact isRead_withAttribute _ (by decide) (hPlain .list (by decide))
      | some first =>
          exact isRead_withAttribute _ (by decide)
            (isRead_withAttribute _ (by decide) (hPlain .list (by decide)))
  | table columns => exact isRead_withAttribute _ (by decide) (hPlain .table (by decide))
  | tableHead => exact isRead_withAttribute _ (by decide) (hPlain .tableRow (by decide))
  | link url title => exact hTitle .link url title (by decide)
  | image url title => exact hTitle .image url title (by decide)
  | _ => exact hPlain _ (by decide)

/-- Reading makes no element of its own choice, and gives headings a proper depth. -/
theorem readingKeeps_isRead : ReadingKeeps (fun _ => True) Node.IsRead where
  children := fun _ h => ⟨h.metadata, h.depth⟩
  value := fun h _ => ⟨h.metadata, h.depth⟩
  withAttribute := by
    intro node key value hKey h
    refine isRead_withAttribute value ?_ h
    rintro rfl
    exact absurd hKey (by decide)
  made := by
    intro kind hKind name attributes
    refine ⟨rfl, hasDepth_of_kind ?_⟩
    rintro rfl
    exact absurd hKind (by decide)
  ofText := fun _ => ⟨rfl, hasDepth_of_kind nofun⟩
  content := fun _ _ _ _ => trivial
  newline := trivial

/-- No source makes a heading of another depth or chooses an element. -/
theorem everywhere_isRead (gfm : Bool) (source : Text) :
    (parseDocument gfm source).Everywhere Node.IsRead := by
  refine everywhere_parseDocument readingKeeps_isRead ?_ (fun _ _ => trivial)
  intro source _ event _
  have hOther : ∀ (kind : NodeKind) (value : Text), kind ≠ .heading → Node.IsRead { kind, value } :=
    fun kind value hKind => ⟨rfl, hasDepth_of_kind hKind⟩
  cases event with
  | start tag => exact isRead_node tag
  | text value => exact fun _ _ => trivial
  | code value => exact hOther .inlineCode value (by decide)
  | html value => exact ⟨hOther .html value (by decide), fun _ _ => trivial⟩
  | _ => trivial

section Keys

variable {properties : TextMap}

def HasOwnKeys (properties : TextMap) : Prop := ∀ key ∈ properties.keys, key ∈ conversionKeys

theorem hasOwnKeys_empty : HasOwnKeys ∅ := fun _ hMem => absurd hMem List.not_mem_nil

theorem HasOwnKeys.insert (h : HasOwnKeys properties) {key : Text} (hKey : key ∈ conversionKeys)
    (value : Text) : HasOwnKeys (properties.insert key value) := by
  intro other hMem
  obtain ⟨entry, hEntry, rfl⟩ := List.mem_map.1 hMem
  rcases TextMap.fst_mem_insertEntry hEntry with hEq | hEntry
  · rw [hEq]
    exact hKey
  · exact h _ (List.mem_map_of_mem hEntry)

theorem HasOwnKeys.copyAttribute (h : HasOwnKeys properties) (attributes : TextMap) (source : String)
    {target : String} (hKey : target.toList ∈ conversionKeys) :
    HasOwnKeys (copyAttribute attributes source target properties) := by
  unfold DirectiveMarkdown.copyAttribute
  split
  · exact h.insert hKey _
  · exact h

end Keys

namespace HtmlNode

variable {p : DirectiveMarkdown.Text → TextMap → List HtmlNode → Bool}

/-- A condition on every element holds of trees exactly if it holds of each. -/
theorem everyElementOf_iff (nodes : List HtmlNode) :
    everyElementOf p nodes = true ↔ ∀ node ∈ nodes, node.everyElement p = true := by
  induction nodes with
  | nil => simp [everyElementOf]
  | cons node rest ih => simp [everyElementOf, ih]

theorem everyElementOf_separated {nodes : List HtmlNode} (h : everyElementOf p nodes = true) :
    everyElementOf p (separated nodes) = true := by
  rw [everyElementOf_iff] at h ⊢
  intro node hMem
  rcases mem_of_mem_separated hMem with rfl | hMem
  · rfl
  · exact h node hMem

theorem everyElementOf_enclosed {nodes : List HtmlNode} (h : everyElementOf p nodes = true) :
    everyElementOf p (enclosed nodes) = true := by
  rw [everyElementOf_iff] at h ⊢
  intro node hMem
  rcases mem_of_mem_enclosed hMem with rfl | hMem
  · rfl
  · exact h node hMem

theorem everyElementOf_joinLines {nodes : List HtmlNode} (h : everyElementOf p nodes = true) :
    everyElementOf p (joinLines nodes) = true := by
  rw [everyElementOf_iff] at h ⊢
  intro node hMem
  rcases mem_of_mem_joinLines hMem with rfl | hMem
  · rfl
  · exact h node hMem

end HtmlNode

section Conversion

variable {others : List Text}

def IsOwn (others : List Text) (node : HtmlNode) : Prop :=
  node.everyElement (fun tag properties _ => isOwnTag others tag properties) = true

def AreOwn (others : List Text) (nodes : List HtmlNode) : Prop :=
  HtmlNode.everyElementOf (fun tag properties _ => isOwnTag others tag properties) nodes = true

theorem areOwn_iff (nodes : List HtmlNode) : AreOwn others nodes ↔ ∀ node ∈ nodes, IsOwn others node :=
  HtmlNode.everyElementOf_iff nodes

/-- An element with an own tag and own keys is own if its children are. -/
theorem isOwn_element {tag : Text} (hTag : tag ∈ conversionTags) {properties : TextMap}
    (hKeys : HasOwnKeys properties) {children : List HtmlNode} (hChildren : AreOwn others children) :
    IsOwn others (.element tag properties children) := by
  have hOwn : isOwnTag others tag properties = true := by
    simpa [isOwnTag, hTag, HasOwnKeys] using hKeys
  unfold IsOwn HtmlNode.everyElement
  rw [hOwn, hChildren]
  rfl

theorem isOwn_ofTag {tag : String} (hTag : tag.toList ∈ conversionTags) {children : List HtmlNode}
    (hChildren : AreOwn others children) : IsOwn others (.ofTag tag children) :=
  isOwn_element hTag hasOwnKeys_empty hChildren

theorem areOwn_nil : AreOwn others [] := rfl

theorem areOwn_cons {node : HtmlNode} {rest : List HtmlNode} (hNode : IsOwn others node)
    (hRest : AreOwn others rest) : AreOwn others (node :: rest) := by
  unfold AreOwn HtmlNode.everyElementOf
  rw [hNode, hRest]
  rfl

theorem areOwn_text (value : Text) : AreOwn others [.text value] := rfl

theorem isOwn_codeBlock (attributes : TextMap) (value : Text) :
    IsOwn others (codeBlock attributes value) := by
  refine isOwn_ofTag (by decide) (areOwn_cons (isOwn_element (by decide) ?_ (areOwn_text value)) rfl)
  split
  · exact hasOwnKeys_empty.insert (by decide) _
  · exact hasOwnKeys_empty

theorem hasOwnKeys_imageProperties (attributes : TextMap) : HasOwnKeys (imageProperties attributes) :=
  ((hasOwnKeys_empty.copyAttribute attributes "url" (by decide)).insert (by decide) _).copyAttribute
    attributes "title" (by decide)

theorem isOwn_listElement (attributes : TextMap) {items : List HtmlNode} (h : AreOwn others items) :
    IsOwn others (listElement attributes items) := by
  have hChildren : AreOwn others (HtmlNode.enclosed items) := HtmlNode.everyElementOf_enclosed h
  unfold listElement
  dsimp only
  split
  · refine isOwn_element (by decide) ?_ hChildren
    split
    · split
      · exact hasOwnKeys_empty
      · exact hasOwnKeys_empty.insert (by decide) _
    · exact hasOwnKeys_empty
  · exact isOwn_ofTag (by decide) hChildren

theorem areOwn_checkBox_append (checked : Bool) {content : List HtmlNode} (h : AreOwn others content) :
    AreOwn others (checkBox checked ++ content) := by
  have hBox : HasOwnKeys
      ((TextMap.insert ∅ (text "type") (text "checkbox")).insert (text "disabled") []) :=
    (hasOwnKeys_empty.insert (by decide) _).insert (by decide) _
  refine areOwn_cons (isOwn_element (by decide) ?_ areOwn_nil) (areOwn_cons rfl h)
  split
  · exact hBox.insert (by decide) _
  · exact hBox

/-- An item is written with tags and keys of conversion, with or without a check box. -/
theorem isOwn_itemElement (attributes : TextMap) (phrasing : Bool) {children : List HtmlNode}
    (h : AreOwn others children) : IsOwn others (itemElement attributes phrasing children) := by
  have hContent : AreOwn others (if phrasing then children else HtmlNode.enclosed children) := by
    split
    · exact h
    · exact HtmlNode.everyElementOf_enclosed h
  unfold itemElement
  dsimp only
  split
  · exact isOwn_element (by decide) (hasOwnKeys_empty.insert (by decide) _)
      (areOwn_checkBox_append _ hContent)
  · exact isOwn_ofTag (by decide) hContent

/-- A table is written with tags and keys of conversion around its rows. -/
theorem isOwn_tableElement {rows : List (Bool × HtmlNode)} (h : ∀ row ∈ rows, IsOwn others row.2) :
    IsOwn others (tableElement rows) := by
  have hPart : ∀ header : Bool,
      AreOwn others ((rows.filter fun row => row.1 == header).map Prod.snd) := by
    intro header
    refine (areOwn_iff _).2 fun made hMade => ?_
    obtain ⟨row, hRow, rfl⟩ := List.mem_map.1 hMade
    exact h row (List.mem_filter.1 hRow).1
  refine isOwn_ofTag (by decide) (HtmlNode.everyElementOf_joinLines ((areOwn_iff _).2 ?_))
  intro node hMem
  rcases List.mem_append.1 hMem with hMem | hMem
  · dsimp only at hMem
    split at hMem
    · cases hMem
    · rw [List.mem_singleton.1 hMem]
      exact isOwn_ofTag (by decide) (HtmlNode.everyElementOf_joinLines (hPart true))
  · dsimp only at hMem
    split at hMem
    · cases hMem
    · rw [List.mem_singleton.1 hMem]
      exact isOwn_ofTag (by decide) (HtmlNode.everyElementOf_joinLines (hPart false))

theorem hasOwnKeys_cellProperties (alignment : Option Text) :
    HasOwnKeys (cellProperties alignment) := by
  unfold cellProperties
  split
  · split
    · exact hasOwnKeys_empty
    · exact hasOwnKeys_empty.insert (by decide) _
  · exact hasOwnKeys_empty

theorem areOwn_allToHtml {nodes : List Node}
    (h : ∀ node ∈ nodes, ∀ made ∈ node.toHtml? false, IsOwn others made) :
    AreOwn others (Node.allToHtml false nodes) := by
  rw [areOwn_iff, Node.allToHtml_eq_filterMap]
  intro made hMem
  obtain ⟨node, hNode, hMade⟩ := List.mem_filterMap.1 hMem
  exact h node hNode made hMade

theorem areOwn_cellsToHtml (header : Bool) (alignments : List Text) {nodes : List Node}
    (h : ∀ node ∈ nodes, AreOwn others (Node.allToHtml false node.children)) :
    AreOwn others (Node.cellsToHtml false header alignments nodes) := by
  rw [areOwn_iff, Node.cellsToHtml_eq_mapIdx]
  intro made hMem
  obtain ⟨column, hColumn, rfl⟩ := List.mem_mapIdx.1 hMem
  have hTag : (if header then text "th" else text "td") ∈ conversionTags := by
    cases header <;> decide
  exact isOwn_element hTag (hasOwnKeys_cellProperties _) (h _ (List.getElem_mem hColumn))

theorem isOwn_rowsToHtml (alignments : List Text) {nodes : List Node}
    (h : ∀ node ∈ nodes, ∀ header alignments,
      AreOwn others (Node.cellsToHtml false header alignments node.children)) :
    ∀ row ∈ Node.rowsToHtml false alignments nodes, IsOwn others row.2 := by
  rw [Node.rowsToHtml_eq_map]
  intro row hMem
  obtain ⟨node, hNode, rfl⟩ := List.mem_map.1 hMem
  exact isOwn_ofTag (by decide) (HtmlNode.everyElementOf_joinLines (h node hNode _ _))

/-- A tree as the rules leave it becomes elements with own tags and keys only, and the cells that it
would have as a row of a table do so as well. -/
theorem isOwn_toHtml? {element : Text} {node : Node}
    (hNode : node.Everywhere (Node.IsAnnotated element)) :
    (∀ made ∈ node.toHtml? false, IsOwn [element] made) ∧
      AreOwn [element] (Node.allToHtml false node.children) ∧
      ∀ header alignments,
        AreOwn [element] (Node.cellsToHtml false header alignments node.children) := by
  induction hNode with
  | @intro node hHere hBelow ih =>
      have hChildren := areOwn_allToHtml fun child hChild => (ih child hChild).1
      refine ⟨?_, hChildren, fun header alignments =>
        areOwn_cellsToHtml header alignments fun child hChild => (ih child hChild).2.1⟩
      have hRows := fun alignments =>
        isOwn_rowsToHtml alignments fun child hChild => (ih child hChild).2.2
      have hCells := areOwn_cellsToHtml (isHeaderRow node.attributes) [] fun child hChild =>
        (ih child hChild).2.1
      obtain ⟨kind, name, attributes, metadata, children, value⟩ := node
      intro made hMade
      cases metadata with
      | some metadata =>
          rw [Node.toHtml?] at hMade
          cases hMade
          have hTag := hHere.metadata metadata rfl
          unfold IsOwn HtmlNode.everyElement
          rw [hTag]
          exact hChildren
      | none =>
          cases kind <;> rw [Node.toHtml?] at hMade
          case html => cases hMade
          all_goals obtain rfl := Option.some.inj hMade
          case root => exact HtmlNode.everyElementOf_separated hChildren
          case heading =>
            refine isOwn_element ?_ hasOwnKeys_empty hChildren
            have hDepths : ∀ depth ∈ headingDepths, 'h' :: depth ∈ conversionTags := by decide
            exact hDepths _ (hHere.depth rfl)
          case «break» => exact areOwn_cons (isOwn_ofTag (by decide) areOwn_nil) (areOwn_text _)
          case blockQuote =>
            exact isOwn_ofTag (by decide) (HtmlNode.everyElementOf_enclosed hChildren)
          case list => exact isOwn_listElement attributes hChildren
          case listItem => exact isOwn_itemElement attributes _ hChildren
          case code => exact isOwn_codeBlock attributes value
          case link =>
            exact isOwn_element (by decide)
              ((hasOwnKeys_empty.copyAttribute attributes "url" (by decide)).copyAttribute attributes
                "title" (by decide)) hChildren
          case image =>
            exact isOwn_element (by decide) (hasOwnKeys_imageProperties attributes) areOwn_nil
          case table => exact isOwn_tableElement (hRows _)
          case tableRow => exact isOwn_ofTag (by decide) (HtmlNode.everyElementOf_joinLines hCells)
          case text => rfl
          case thematicBreak => exact isOwn_ofTag (by decide) areOwn_nil
          case inlineCode => exact isOwn_ofTag (by decide) (areOwn_text value)
          all_goals exact isOwn_ofTag (by decide) hChildren

/-- Without raw HTML the tree of a document has no other tags than those of conversion and the
chosen element. -/
theorem isOwn_toHtml {element : Text} {node : Node}
    (hNode : node.Everywhere (Node.IsAnnotated element)) : IsOwn [element] (node.toHtml false) := by
  unfold Node.toHtml
  cases hMade : node.toHtml? false with
  | none => rfl
  | some made => exact (isOwn_toHtml? hNode).1 made (by rw [hMade]; rfl)

end Conversion

/-- Metadata of a callout name the configured element, and give it a header and a variant. -/
theorem CalloutConfig.exists_of_metadata? {config : CalloutConfig} {node : Node} {metadata : Metadata}
    (h : config.metadata? node = some metadata) : ∃ category title, metadata =
      { targetElement := config.element
        targetProperties := .ofList [(text "header", title), (text "variant", category)] } := by
  unfold CalloutConfig.metadata? at h
  split at h
  · next category _ _ =>
      split at h
      · obtain ⟨title, -, rfl⟩ := Option.map_eq_some_iff.1 h
        exact ⟨category, title, rfl⟩
      · cases h
  · cases h

/-- The tag of a callout has the configured element's name and own keys. -/
theorem isOwnTag_callout (element category title : Text) :
    isOwnTag [element] element (.ofList [(text "header", title), (text "variant", category)]) =
      true := by
  have hKeys : HasOwnKeys (.ofList [(text "header", title), (text "variant", category)]) :=
    (hasOwnKeys_empty.insert (by decide) _).insert (by decide) _
  simpa [isOwnTag, HasOwnKeys] using hKeys

/-- A configuration makes a rule only if its element has a proper name. -/
theorem CalloutRule.isTagName_of_ofConfig {config : CalloutConfig} {rule : CalloutRule}
    (h : CalloutRule.ofConfig config = .ok rule) : isTagName config.element = true := by
  unfold CalloutRule.ofConfig at h
  split at h
  · assumption
  · cases h

/-- Successful stages are the parsed, the rewritten and the converted tree, and its text. -/
theorem Pipeline.eq_of_stages {pipeline : Pipeline} {source : Text} {stages : Stages}
    (h : pipeline.stages source = .ok stages) : ∃ rewritten,
      pipeline.rewrite (pipeline.parse source) = ⟨rewritten, none⟩ ∧
      stages = { source := pipeline.parse source, rewritten
                 target := rewritten.toHtml pipeline.rawHtml
                 html := (rewritten.toHtml pipeline.rawHtml).write } := by
  unfold Pipeline.stages at h
  dsimp only at h
  split at h
  · cases h
  · next rewritten hRewrite =>
      cases h
      exact ⟨rewritten, hRewrite, rfl⟩

/-- The rules choose no element but that of callouts, and a video takes no part in conversion. -/
theorem isAnnotated_standardForm (callouts : CalloutConfig) {node : Node}
    (hNode : node.Everywhere Node.IsRead) :
    (node.standardForm callouts).Everywhere (Node.IsAnnotated callouts.element) := by
  induction hNode with
  | @intro node hHere hBelow ih =>
      cases hVideo : Video.isVideo node with
      | true =>
          rw [Node.standardForm_of_isVideo callouts hVideo]
          exact ⟨⟨nofun, hasDepth_of_kind nofun⟩, nofun⟩
      | false =>
          rw [Node.standardForm_of_not_isVideo callouts hVideo]
          refine ⟨⟨?_, hHere.depth⟩, ?_⟩
          · intro metadata hMetadata
            have hCallout : callouts.metadata? node = some metadata := by
              simpa [CalloutConfig.metadataAfter?, hHere.metadata] using hMetadata
            obtain ⟨category, title, rfl⟩ := CalloutConfig.exists_of_metadata? hCallout
            exact isOwnTag_callout callouts.element category title
          · intro child hChild
            obtain ⟨child, hMem, rfl⟩ := List.mem_map.1 hChild
            exact ih child hMem

section Pieces

variable {element : Text}

/-- Own tags and keys are plain names, if the element of callouts has one. -/
theorem isPlainTag_of_isOwnTag (hElement : isTagName element = true) {tag : Text}
    {properties : TextMap} (h : isOwnTag [element] tag properties = true) :
    isPlainTag tag properties = true ∧ tag ∈ element :: conversionTags := by
  simp only [isOwnTag, List.singleton_append, Bool.and_eq_true, List.contains_iff_mem,
    List.all_eq_true] at h
  obtain ⟨hTag, hKeys⟩ := h
  have hTags : ∀ tag ∈ conversionTags, isTagName tag = true := by decide
  have hPlainKeys : ∀ key ∈ conversionKeys, isPropertyKey key = true := by decide
  refine ⟨?_, hTag⟩
  simp only [isPlainTag, Bool.and_eq_true, List.all_eq_true]
  refine ⟨?_, fun key hKey => hPlainKeys key (hKeys key hKey)⟩
  rcases List.mem_cons.1 hTag with rfl | hTag
  · exact hElement
  · exact hTags tag hTag

/-- The pieces of a tree with own tags can be told from text, and all tags among them are own. -/
theorem markup_of_isOwn (hElement : isTagName element = true) {node : HtmlNode}
    (h : IsOwn [element] node) : ∀ piece ∈ node.markup,
      piece.isPlain = true ∧ ∀ tag ∈ piece.tag?, tag ∈ element :: conversionTags := by
  refine HtmlNode.markup_of_everyElement ?_ ?_ ?_ node h
  · exact fun c => ⟨rfl, nofun⟩
  · intro tag properties _ hOwn
    obtain ⟨hPlain, hTag⟩ := isPlainTag_of_isOwnTag hElement hOwn
    exact ⟨hPlain, by rintro _ ⟨⟩; exact hTag⟩
  · intro tag properties _ hOwn
    obtain ⟨hPlain, hTag⟩ := isPlainTag_of_isOwnTag hElement hOwn
    rw [isPlainTag, Bool.and_eq_true] at hPlain
    exact ⟨hPlain.1, by rintro _ ⟨⟩; exact hTag⟩

end Pieces

namespace Pipeline

/-- What the standard pipeline rewrites without an error gets its standard form. -/
theorem eq_standardForm_of_rewrite {callouts : CalloutConfig} {callout : CalloutRule}
    (hCallout : CalloutRule.ofConfig callouts = .ok callout) {policy : VideoPolicy}
    {gfm rawHtml : Bool} {tree rewritten : Node}
    (h : rewrite { rules := [Video.rule policy, callout.toRule], gfm, rawHtml } tree =
      ⟨rewritten, none⟩) : rewritten = tree.standardForm callouts := by
  have hOutcome := rewrite_outcome hCallout policy gfm rawHtml tree
  rw [h] at hOutcome
  cases hRefusal : tree.firstRefusal? Video.isVideo (Video.refusal? policy) [] with
  | some error => rw [hRefusal] at hOutcome; cases hOutcome
  | none =>
      rw [hRefusal] at hOutcome
      exact Except.ok.inj hOutcome

/-- Without raw HTML the standard pipeline writes own markup only: the HTML tree has no raw markup,
and own tags and keys. What is written is the pieces of that tree, and the character that opens tags
stands in it only where one of the pieces with an own tag starts. -/
theorem standard_markup_is_own {callouts : CalloutConfig} {callout : CalloutRule}
    (hCallout : CalloutRule.ofConfig callouts = .ok callout) (policy : VideoPolicy) (gfm : Bool) :
    ∃ pipeline, standard policy callouts gfm false = .ok pipeline ∧
      ∀ source stages, pipeline.stages source = .ok stages →
        stages.target.everyElement
            (fun tag properties _ => isOwnTag [callouts.element] tag properties) = true ∧
        stages.html = stages.target.markup.flatMap Markup.write ∧
        ∀ before after, stages.html = before ++ '<' :: after →
          ∃ earlier piece later tag, stages.target.markup = earlier ++ piece :: later ∧
            earlier.flatMap Markup.write = before ∧ piece.tag? = some tag ∧
            tag ∈ callouts.element :: conversionTags := by
  refine ⟨_, standard_eq hCallout policy gfm false, ?_⟩
  intro source stages hStages
  have hElement := CalloutRule.isTagName_of_ofConfig hCallout
  obtain ⟨rewritten, hRewrite, rfl⟩ := eq_of_stages hStages
  have hOwn : IsOwn [callouts.element] (rewritten.toHtml false) := by
    rw [eq_standardForm_of_rewrite hCallout hRewrite]
    exact isOwn_toHtml (isAnnotated_standardForm callouts (everywhere_isRead gfm source))
  have hPieces := markup_of_isOwn hElement hOwn
  have hHtml : (rewritten.toHtml false).write =
      (rewritten.toHtml false).markup.flatMap Markup.write := (HtmlNode.flatMap_markup _).symm
  refine ⟨hOwn, hHtml, ?_⟩
  intro before after hLess
  obtain ⟨earlier, piece, later, tag, hMarkup, hBefore, hTag⟩ :=
    Markup.exists_tag_of_flatMap_write (fun piece hMem => (hPieces piece hMem).1)
      (hHtml.symm.trans hLess)
  refine ⟨earlier, piece, later, tag, hMarkup, hBefore, hTag, ?_⟩
  have hMem : piece ∈ (rewritten.toHtml false).markup := by
    rw [hMarkup]
    exact List.mem_append_right _ (List.mem_cons_self ..)
  exact (hPieces piece hMem).2 tag hTag

/-- Raw HTML in a source is left out, and what stands as text there or in a title is escaped. -/
theorem standard_markup_is_own_tip :
    let callouts : CalloutConfig :=
      ⟨"aside".toList, ["tip".toList], .ofList [("tip".toList, "Tip <1>".toList)]⟩
    ∃ callout, CalloutRule.ofConfig callouts = .ok callout ∧
    ∃ pipeline, standard .lenient callouts true false = .ok pipeline ∧
    ∃ stages, pipeline.stages ":::tip\na <b> > 1\n:::\n".toList = .ok stages ∧
      stages.html = ("<aside header=\"Tip &lt;1&gt;\" variant=\"tip\">".toList ++
        "<p>a  &gt; 1</p></aside>".toList) ∧
      stages.target.everyElement
        (fun tag properties _ => isOwnTag ["aside".toList] tag properties) = true := by
  intro callouts
  have hOk : CalloutRule.ofConfig callouts =
      .ok ⟨"aside".toList, .ofList [("tip".toList, "Tip <1>".toList)]⟩ := rfl
  obtain ⟨pipeline, hPipeline, hMarkup⟩ := standard_markup_is_own hOk .lenient true
  refine ⟨_, hOk, pipeline, hPipeline, ?_⟩
  have hRender : (pipeline.render ":::tip\na <b> > 1\n:::\n".toList).toOption =
      some ("<aside header=\"Tip &lt;1&gt;\" variant=\"tip\">".toList ++
        "<p>a  &gt; 1</p></aside>".toList) := by
    rw [standard_eq hOk] at hPipeline
    cases hPipeline
    decide +kernel
  unfold render at hRender
  cases hStages : pipeline.stages ":::tip\na <b> > 1\n:::\n".toList with
  | error error => rw [hStages] at hRender; cases hRender
  | ok stages =>
      rw [hStages] at hRender
      exact ⟨stages, rfl, Option.some.inj hRender, (hMarkup _ _ hStages).1⟩

end Pipeline

end DirectiveMarkdown
