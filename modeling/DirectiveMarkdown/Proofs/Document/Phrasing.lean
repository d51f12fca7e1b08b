import DirectiveMarkdown.Html.Conversion
import DirectiveMarkdown.Proofs.Document.LabelHtml
import DirectiveMarkdown.Proofs.Document.Rereading
import DirectiveMarkdown.Proofs.Shape.Document

/-! What the label of a directive is read as. A label is read as a source, and only the paragraphs
around its content are taken away. So its content is phrasing exactly if Markdown finds no block in it
but paragraphs and raw HTML. -/
namespace DirectiveMarkdown

open Markdown

namespace Node

def IsPhrasing (node : Node) : Prop := node.Everywhere fun other => other.kind.isPhrasing = true

/-- The children of directives without block content are phrasing content. -/
def HoldsPhrasing (node : Node) : Prop :=
  node.kind = .leafDirective ∨ node.kind = .textDirective → ∀ child ∈ node.children, child.IsPhrasing

/-- The node is phrasing content if a paragraph around its children is taken away. -/
def UnwrapsToPhrasing (node : Node) : Prop :=
  ∀ inner ∈ if node.kind = .paragraph then node.children else [node], inner.IsPhrasing

/-- A property of trees that phrasing content has, and that text keeps, whatever its value. -/
structure AllowsPhrasing (p : Node → Prop) : Prop where
  phrasing : ∀ {node : Node}, node.IsPhrasing → p node
  value : ∀ {node : Node} (value : Text), node.kind = .text → (p { node with value } ↔ p node)

variable {p : Node → Prop} {node : Node}

theorem isPhrasing_of_childless (hKind : node.kind.isPhrasing = true) (hNone : node.children = []) :
    node.IsPhrasing :=
  everywhere_iff.2 ⟨hKind, hNone ▸ List.forall_mem_nil _⟩

/-- A node of a phrasing kind is phrasing content exactly if its children are. -/
theorem isPhrasing_iff_of_kind (hKind : node.kind.isPhrasing = true) :
    node.IsPhrasing ↔ ∀ child ∈ node.children, child.IsPhrasing :=
  everywhere_iff.trans (and_iff_right hKind)

/-- A node that is no such directive leaves the question to its children. -/
theorem everywhere_holdsPhrasing_iff (hKind : node.kind ≠ .leafDirective ∧ node.kind ≠ .textDirective) :
    node.Everywhere HoldsPhrasing ↔ ∀ child ∈ node.children, child.Everywhere HoldsPhrasing :=
  everywhere_iff.trans (and_iff_right fun hLabel => absurd hLabel (not_or.2 hKind))

/-- In phrasing content every directive holds phrasing content. -/
theorem IsPhrasing.everywhere_holdsPhrasing (h : node.IsPhrasing) : node.Everywhere HoldsPhrasing := by
  induction h with
  | intro _ hBelow ih => exact .intro (fun _ => hBelow) ih

/-- A directive without block content holds phrasing content everywhere exactly if its children are
phrasing content. -/
theorem everywhere_holdsPhrasing_of_label (hKind : node.kind = .leafDirective ∨ node.kind = .textDirective) :
    node.Everywhere HoldsPhrasing ↔ ∀ child ∈ node.children, child.IsPhrasing := by
  constructor
  · rintro ⟨hHere, -⟩
    exact hHere hKind
  · intro hLabel
    exact .intro (fun _ => hLabel) fun child hMem => (hLabel child hMem).everywhere_holdsPhrasing

theorem allowsPhrasing_isPhrasing : AllowsPhrasing IsPhrasing where
  phrasing := fun h => h
  value := fun _ _ => by
    rw [IsPhrasing, IsPhrasing, everywhere_iff, everywhere_iff]

/-- Phrasing content stays what it is when paragraphs around it are taken away. -/
theorem allowsPhrasing_unwraps : AllowsPhrasing UnwrapsToPhrasing where
  phrasing := fun {node} h => by
    unfold UnwrapsToPhrasing
    split
    · obtain ⟨-, hBelow⟩ := h
      exact hBelow
    · exact List.forall_mem_singleton.2 h
  value := fun {node} value hText => by
    have hKind : node.kind ≠ .paragraph := by
      rw [hText]
      decide
    rw [UnwrapsToPhrasing, UnwrapsToPhrasing, if_neg hKind, if_neg hKind, List.forall_mem_singleton,
      List.forall_mem_singleton]
    exact allowsPhrasing_isPhrasing.value value hText

theorem allowsPhrasing_holdsPhrasing : AllowsPhrasing (Everywhere HoldsPhrasing) where
  phrasing := IsPhrasing.everywhere_holdsPhrasing
  value := fun _ _ => by
    rw [everywhere_iff, everywhere_iff]
    exact Iff.rfl

theorem unwrapsToPhrasing_of_paragraph (h : node.kind = .paragraph) :
    node.UnwrapsToPhrasing ↔ ∀ child ∈ node.children, child.IsPhrasing := by
  rw [UnwrapsToPhrasing, if_pos h]

theorem not_unwrapsToPhrasing (hKind : node.kind.isPhrasing = false) (hParagraph : node.kind ≠ .paragraph) :
    ¬node.UnwrapsToPhrasing := by
  rw [UnwrapsToPhrasing, if_neg hParagraph, List.forall_mem_singleton]
  rintro ⟨hHere, -⟩
  rw [hKind] at hHere
  cases hHere

/-- What is left of nodes is phrasing content exactly if each of them leaves phrasing content. -/
theorem forall_unwrapParagraphs_iff {nodes : List Node} :
    (∀ inner ∈ unwrapParagraphs nodes, inner.IsPhrasing) ↔ ∀ node ∈ nodes, node.UnwrapsToPhrasing :=
  List.forall_mem_flatMap

namespace AllowsPhrasing

/-- More text does not change whether all nodes have the property. -/
theorem forall_addText_iff (h : AllowsPhrasing p) (nodes : List Node) (value : Text) :
    (∀ child ∈ addText nodes value, p child) ↔ ∀ child ∈ nodes, p child := by
  have hNew : p (ofText value) := h.phrasing (isPhrasing_of_childless rfl rfl)
  rcases List.eq_nil_or_concat nodes with rfl | ⟨before, last, rfl⟩
  · exact iff_of_true (List.forall_mem_singleton.2 hNew) (List.forall_mem_nil _)
  · rw [List.concat_eq_append, addText_concat]
    split
    · next hText =>
        rw [List.forall_mem_append, List.forall_mem_append, List.forall_mem_singleton,
          List.forall_mem_singleton, h.value _ hText]
    · rw [List.forall_mem_append, List.forall_mem_singleton, and_iff_left hNew]

theorem forall_appendChild_iff (node child : Node) :
    (∀ other ∈ (node.appendChild child).children, p other) ↔
      (∀ other ∈ node.children, p other) ∧ p child := by
  rw [appendChild, List.forall_mem_append, List.forall_mem_singleton]

/-- Content that is no thematic break adds nothing but phrasing content. -/
theorem forall_grow_iff (h : AllowsPhrasing p) {event : Event} (hEvent : event.isContent = true)
    (hRule : event = .thematicBreak → p { kind := .thematicBreak }) (node : Node) :
    (∀ child ∈ (event.grow node).children, p child) ↔ ∀ child ∈ node.children, p child := by
  have hText : ∀ value : Text, (∀ child ∈ (node.appendText value).children, p child) ↔
      ∀ child ∈ node.children, p child := by
    intro value
    rw [appendText_eq]
    split
    · exact Iff.rfl
    · exact h.forall_addText_iff node.children value
  have hChild : ∀ made : Node, p made → ((∀ child ∈ (node.appendChild made).children, p child) ↔
      ∀ child ∈ node.children, p child) := fun made hMade =>
    (forall_appendChild_iff node made).trans (and_iff_left hMade)
  have hLeaf : ∀ made : Node, made.kind.isPhrasing = true → made.children = [] → p made :=
    fun made hKind hNone => h.phrasing (isPhrasing_of_childless hKind hNone)
  cases event with
  | text value => exact hText value
  | softBreak => exact hText ['\n']
  | code value => exact hChild _ (hLeaf _ rfl rfl)
  | hardBreak => exact hChild _ (hLeaf _ rfl rfl)
  | thematicBreak => exact hChild _ (hRule rfl)
  | html value =>
      rw [Event.grow, appendHtml]
      split
      · exact Iff.rfl
      · exact hChild _ (hLeaf _ rfl rfl)
  | _ => cases hEvent

end AllowsPhrasing

end Node

section Markdown

variable {read : Text → List Node} {source : Text}

theorem kind_finish (tag : Tag) (node : Node) : (tag.finish node).kind = node.kind := by
  cases tag <;> rfl

/-- An element makes a node of the kind that it starts with, read again or not. -/
theorem kind_elementNode {tag : Tag} {inner : List Event} (hInner : Nested tag.isItem inner) :
    (elementNode (reread? read source) tag inner).kind = tag.node.kind := by
  rw [elementNode, reread?_eq]
  cases hContent : rereadContent? source tag inner with
  | some content => exact kind_rereadNode (isContainer_of_rereadContent? hContent) inner _
  | none =>
      rw [Option.map_none, Option.getD_none, kind_finish, kind_grown hInner Tag.kind_node_of_isItem]

/-- An element in running text is phrasing content if what stands in it is. -/
theorem isPhrasing_elementNode {tag : Tag} {content : List Inline}
    (hTag : tag.node.kind.isPhrasing = true) (hContainer : tag.isContainer = false)
    (hContent : ∀ child ∈ (grown (reread? read source) (Inline.allEvents content)
      tag.node).children, child.IsPhrasing) :
    (elementNode (reread? read source) tag (Inline.allEvents content)).IsPhrasing := by
  have hNested : Nested tag.isItem (Inline.allEvents content) :=
    (Inline.nested_allEvents content).1.weaken
  have hKind : (elementNode (reread? read source) tag (Inline.allEvents content)).kind.isPhrasing =
      true := by
    rw [kind_elementNode hNested, hTag]
  rw [Node.isPhrasing_iff_of_kind hKind, elementNode_of_not_isContainer hContainer]
  cases hImage : tag.isImage with
  | false =>
      rw [Tag.finish_of_not_image hImage]
      exact hContent
  | true =>
      cases tag with
      | image url title => exact List.forall_mem_nil _
      | _ => cases hImage

mutual

/-- Running text adds nothing but phrasing content. -/
theorem Markdown.Inline.forall_grown_iff {p : Node → Prop} (h : Node.AllowsPhrasing p)
    (inline : Inline) (node : Node) :
    (∀ child ∈ (grown (reread? read source) inline.events node).children, p child) ↔
      ∀ child ∈ node.children, p child := by
  have hContent : ∀ event : Event, event.isContent = true → event ≠ .thematicBreak →
      ((∀ child ∈ (grown (reread? read source) [event] node).children, p child) ↔
        ∀ child ∈ node.children, p child) := by
    intro event hEvent hRule
    rw [grown_content hEvent]
    exact h.forall_grow_iff hEvent (fun hEq => absurd hEq hRule) node
  have hElement : ∀ (tag : Tag) (content : List Inline), tag.node.kind.isPhrasing = true →
      tag.isContainer = false →
      (∀ child ∈ (grown (reread? read source) (Inline.allEvents content) tag.node).children,
        child.IsPhrasing) →
      ((∀ child ∈ (grown (reread? read source) (tag.around (Inline.allEvents content))
        node).children, p child) ↔ ∀ child ∈ node.children, p child) := by
    intro tag content hTag hContainer hContent
    rw [grown_single (Inline.nested_allEvents content).1.weaken,
      Node.AllowsPhrasing.forall_appendChild_iff]
    exact and_iff_left (h.phrasing (isPhrasing_elementNode hTag hContainer hContent))
  have hInner : ∀ (tag : Tag) (content : List Inline),
      ((∀ child ∈ (grown (reread? read source) (Inline.allEvents content) tag.node).children,
        child.IsPhrasing) ↔ ∀ child ∈ tag.node.children, child.IsPhrasing) →
      ∀ child ∈ (grown (reread? read source) (Inline.allEvents content) tag.node).children,
        child.IsPhrasing := by
    intro tag content hContent
    rw [hContent, Tag.children_node]
    exact List.forall_mem_nil _
  match inline with
  | .text value => exact hContent (.text value) rfl nofun
  | .softBreak => exact hContent (.softBreak) rfl nofun
  | .hardBreak => exact hContent (.hardBreak) rfl nofun
  | .code value => exact hContent (.code value) rfl nofun
  | .html value => exact hContent (.html value) rfl nofun
  | .emphasis content =>
      exact hElement .emphasis content rfl rfl
        (hInner _ _ (Inline.forall_grown_all_iff Node.allowsPhrasing_isPhrasing content _))
  | .strong content =>
      exact hElement .strong content rfl rfl
        (hInner _ _ (Inline.forall_grown_all_iff Node.allowsPhrasing_isPhrasing content _))
  | .strikethrough content =>
      exact hElement .strikethrough content rfl rfl
        (hInner _ _ (Inline.forall_grown_all_iff Node.allowsPhrasing_isPhrasing content _))
  | .link url title content =>
      exact hElement (.link url title) content (congrArg _ (Node.kind_withTitle ..)) rfl
        (hInner _ _ (Inline.forall_grown_all_iff Node.allowsPhrasing_isPhrasing content _))
  | .image url title content =>
      exact hElement (.image url title) content (congrArg _ (Node.kind_withTitle ..)) rfl
        (hInner _ _ (Inline.forall_grown_all_iff Node.allowsPhrasing_isPhrasing content _))

/-- Inline content only adds children that have the property. -/
theorem Markdown.Inline.forall_grown_all_iff {p : Node → Prop} (h : Node.AllowsPhrasing p)
    (content : List Inline) (node : Node) :
    (∀ child ∈ (grown (reread? read source) (Inline.allEvents content) node).children, p child) ↔
      ∀ child ∈ node.children, p child := by
  match content with
  | [] => exact Iff.rfl
  | inline :: rest =>
      rw [Inline.allEvents, grown_append (Inline.nested_events inline).1,
        Inline.forall_grown_all_iff h rest, Inline.forall_grown_iff h inline]

end

end Markdown

/-- The block is running text or raw HTML: it leaves no block behind when the paragraphs around its
content are taken away. -/
def Markdown.Block.isRunning : Block (List Inline) → Bool
  | .paragraph _ | .plain _ | .html _ => true
  | .heading _ _ | .thematicBreak | .code _ _ | .quote _ _ | .list _ _ | .table _ _ _ => false

/-- Markdown finds no block in the label but running text and raw HTML. -/
def RunsOn (gfm : Bool) (label : Text) : Prop := ∀ block ∈ blocks gfm label, block.isRunning = true

section Label

variable {read : Text → List Node} {source : Text}

/-- A block adds what unwraps to phrasing content exactly if it is running text. -/
theorem Markdown.Block.forall_grown_iff (block : Block (List Inline)) (node : Node) :
    (∀ child ∈ (grown (reread? read source) block.events node).children,
        child.UnwrapsToPhrasing) ↔
      (∀ child ∈ node.children, child.UnwrapsToPhrasing) ∧ block.isRunning = true := by
  have hElement : ∀ {tag : Tag} {inner : List Event}, Nested tag.isItem inner →
      ((∀ child ∈ (grown (reread? read source) (tag.around inner) node).children,
          child.UnwrapsToPhrasing) ↔
        (∀ child ∈ node.children, child.UnwrapsToPhrasing) ∧
          (elementNode (reread? read source) tag inner).UnwrapsToPhrasing) := by
    intro tag inner hInner
    rw [grown_single hInner, Node.AllowsPhrasing.forall_appendChild_iff]
  have hBlock : ∀ {tag : Tag} {inner : List Event}, Nested tag.isItem inner →
      tag.node.kind.isPhrasing = false ∧ tag.node.kind ≠ .paragraph →
      ((∀ child ∈ (grown (reread? read source) (tag.around inner) node).children,
          child.UnwrapsToPhrasing) ↔
        (∀ child ∈ node.children, child.UnwrapsToPhrasing) ∧ false = true) := by
    intro tag inner hInner hKind
    rw [hElement hInner]
    refine and_congr Iff.rfl (iff_of_false ?_ Bool.false_ne_true)
    rw [← kind_elementNode hInner] at hKind
    exact Node.not_unwrapsToPhrasing hKind.1 hKind.2
  match block with
  | .paragraph content =>
      have hNested : Nested Tag.paragraph.isItem (Inline.allEvents content) :=
        (Inline.nested_allEvents content).1
      refine (hElement hNested).trans (and_congr Iff.rfl (iff_of_true ?_ rfl))
      rw [Node.unwrapsToPhrasing_of_paragraph (kind_elementNode hNested),
        elementNode_of_not_isContainer rfl, Tag.finish_of_not_image rfl,
        Inline.forall_grown_all_iff Node.allowsPhrasing_isPhrasing]
      exact List.forall_mem_nil _
  | .plain content =>
      rw [Block.events, Inline.forall_grown_all_iff Node.allowsPhrasing_unwraps]
      exact (and_iff_left rfl).symm
  | .html value =>
      have hNested : Nested Tag.htmlBlock.isItem [.html value] := .single rfl
      refine (hElement hNested).trans (and_congr Iff.rfl (iff_of_true ?_ rfl))
      rw [elementNode_of_not_isContainer rfl, Tag.finish_of_not_image rfl, grown_content rfl]
      exact Node.allowsPhrasing_unwraps.phrasing (Node.isPhrasing_of_childless rfl rfl)
  | .thematicBreak =>
      refine (Node.AllowsPhrasing.forall_appendChild_iff ..).trans
        (and_congr Iff.rfl (iff_of_false ?_ Bool.false_ne_true))
      exact Node.not_unwrapsToPhrasing rfl (by decide : NodeKind.thematicBreak ≠ .paragraph)
  | .heading level content =>
      exact hBlock (Inline.nested_allEvents content).1
        ⟨rfl, (by decide : NodeKind.heading ≠ .paragraph)⟩
  | .code info value =>
      have hKind : (Tag.code info).node.kind = .code := by
        rw [Tag.node]
        split <;> rfl
      exact hBlock (nested_codeEvents value) (by rw [hKind]; exact ⟨rfl, by decide⟩)
  | .quote span blocks =>
      exact hBlock (Block.nested_allEvents blocks) ⟨rfl, (by decide : NodeKind.blockQuote ≠ .paragraph)⟩
  | .list first items =>
      have hKind : (Tag.list first).node.kind = .list := by cases first <;> rfl
      exact hBlock (Item.nested_allEvents items) (by rw [hKind]; exact ⟨rfl, by decide⟩)
  | .table columns header rows =>
      exact hBlock (nested_rowEvents header rows) ⟨rfl, (by decide : NodeKind.table ≠ .paragraph)⟩

/-- Blocks add what unwraps to phrasing content exactly if all of them are running text. -/
theorem Markdown.Block.forall_grown_all_iff (blocks : List (Block (List Inline))) (node : Node) :
    (∀ child ∈ (grown (reread? read source) (Block.allEvents blocks) node).children,
        child.UnwrapsToPhrasing) ↔
      (∀ child ∈ node.children, child.UnwrapsToPhrasing) ∧
        ∀ block ∈ blocks, block.isRunning = true := by
  induction blocks generalizing node with
  | nil => exact (and_iff_left (List.forall_mem_nil _)).symm
  | cons block rest ih =>
      rw [Block.allEvents, grown_append (Block.nested_events block), ih, block.forall_grown_iff,
        List.forall_mem_cons, and_assoc]

/-- The content of a label is phrasing exactly if its blocks are running text and raw HTML. It makes no
difference how the content of quotes and items is read. -/
theorem isPhrasing_labelNodes_iff (gfm : Bool) (read : Text → List Node) (label : Text) :
    (∀ node ∈ labelNodes (markdownNodes gfm read) label, node.IsPhrasing) ↔ RunsOn gfm label := by
  unfold labelNodes
  split
  · next hEmpty =>
      rw [List.isEmpty_iff.1 hEmpty]
      exact iff_of_true (List.forall_mem_nil _) (List.forall_mem_nil _)
  · have hRoot : ∀ child ∈ Node.children { kind := .root }, child.UnwrapsToPhrasing :=
      List.forall_mem_nil _
    rw [Node.forall_unwrapParagraphs_iff, markdownNodes, finish_assemble (nested_events gfm label),
      events, Block.forall_grown_all_iff, and_iff_right hRoot, RunsOn]

end Label

end DirectiveMarkdown
