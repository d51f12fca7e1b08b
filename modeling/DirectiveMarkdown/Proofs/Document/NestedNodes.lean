import DirectiveMarkdown.Proofs.Document.Growth
import DirectiveMarkdown.Proofs.Document.Invariant
import DirectiveMarkdown.Proofs.Markdown.EventTree
import DirectiveMarkdown.Proofs.TextMap
import Mathlib.Data.List.Chain

/-! The nodes of a forest of events, by recursion. An element is one node, and what stands in it adds
children and a value to the node. Neighbouring texts are one text. A check box belongs to the innermost
item around it. -/
namespace DirectiveMarkdown

open Markdown

namespace Node

/-- A node and those behind it, with neighbouring texts made one. -/
def joinOnto (last : Node) : List Node → List Node
  | [] => [last]
  | next :: rest =>
    if last.kind = .text ∧ next.kind = .text then
      joinOnto { last with value := last.value ++ next.value } rest
    else last :: joinOnto next rest

/-- Nodes with neighbouring texts made one. -/
def joinTexts : List Node → List Node
  | [] => []
  | first :: rest => joinOnto first rest

/-- Of two neighbours one at most is a text. -/
def TextsApart (nodes : List Node) : Prop :=
  nodes.IsChain fun a b => ¬(a.kind = .text ∧ b.kind = .text)

def checkedBy (node : Node) : Option Bool → Node
  | some checked => node.withAttribute (text "checked") (checkedValue checked)
  | none => node

end Node

namespace Markdown

/-- The nodes that an event adds to a node of the given kind. Text and line ends in code and raw HTML
in a block of it add none. -/
def Event.nodesIn (parent : NodeKind) : Event → List Node
  | .text value => if parent = .code then [] else [.ofText value]
  | .softBreak => if parent = .code then [] else [.ofText ['\n']]
  | .code value => [{ kind := .inlineCode, value }]
  | .html value => if parent = .html then [] else [.ofHtml value]
  | .hardBreak => [{ kind := .break }]
  | .thematicBreak => [{ kind := .thematicBreak }]
  | .start _ | .stop _ | .taskMarker _ => []

/-- What an event adds to the value of a node of the given kind. -/
def Event.valueIn (parent : NodeKind) : Event → Text
  | .text value => if parent = .code then value else []
  | .softBreak => if parent = .code then ['\n'] else []
  | .html value => if parent = .html then value else []
  | _ => []

def Event.mark? : Event → Option Bool
  | .taskMarker checked => some checked
  | _ => none

/-- The node of an element with the given children, value and check box. An image has the text of its
content as an attribute instead of the content. -/
def Tag.nodeWith (tag : Tag) (children : List Node) (value : Text) (mark : Option Bool) : Node :=
  if tag.isImage then tag.node.withAttribute (text "alt") (Node.allTextContent children)
  else { (if tag.isItem then tag.node.checkedBy mark else tag.node) with children, value }

namespace EventTree

def valueIn (parent : NodeKind) : EventTree → Text
  | leaf event _ => event.valueIn parent
  | element _ _ => []

def allValuesIn (parent : NodeKind) (trees : List EventTree) : Text :=
  trees.flatMap (valueIn parent)

mutual

/-- The state of the last check box of a tree that belongs to no item in the tree. -/
def mark? : EventTree → Option Bool
  | leaf event _ => event.mark?
  | element tag content => if tag.isItem then none else lastMark? content

/-- The state of the last check box of trees that belongs to no item in them. -/
def lastMark? : List EventTree → Option Bool
  | [] => none
  | tree :: rest => (lastMark? rest).or tree.mark?

end

mutual

/-- The nodes that a tree adds to a node of the given kind: one for an element. -/
def nodesIn (parent : NodeKind) : EventTree → List Node
  | leaf event _ => event.nodesIn parent
  | element tag content =>
    [tag.nodeWith (Node.joinTexts (allNodesIn tag.node.kind content))
      (allValuesIn tag.node.kind content) (lastMark? content)]

/-- The nodes that trees add to a node of the given kind, in order. -/
def allNodesIn (parent : NodeKind) : List EventTree → List Node
  | [] => []
  | tree :: rest => tree.nodesIn parent ++ allNodesIn parent rest

end

end EventTree

end Markdown

namespace Node

/-- Nodes with one more at the end, of which a text goes on with a text. -/
def addNode (nodes : List Node) (node : Node) : List Node :=
  if node.kind = .text then addText nodes node.value else nodes ++ [node]

/-- The node with more children and more value. -/
def extend (node : Node) (nodes : List Node) (value : Text) : Node :=
  { node with children := nodes.foldl addNode node.children, value := node.value ++ value }

@[simp]
theorem kind_extend (node : Node) (nodes : List Node) (value : Text) :
    (node.extend nodes value).kind = node.kind := rfl

theorem extend_extend (node : Node) (nodes more : List Node) (value other : Text) :
    (node.extend nodes value).extend more other = node.extend (nodes ++ more) (value ++ other) := by
  simp [extend]

theorem extend_nil (node : Node) : node.extend [] [] = node := by
  obtain ⟨_, _, _, _, _, _⟩ := node
  simp [extend]

theorem appendChild_eq_extend {child : Node} (h : child.kind ≠ .text) (node : Node) :
    node.appendChild child = node.extend [child] [] := by
  simp [appendChild, extend, addNode, h]

/-- Of two values for one attribute the later counts. -/
theorem withAttribute_withAttribute (node : Node) (key value other : Text) :
    (node.withAttribute key other).withAttribute key value = node.withAttribute key value := by
  simp [withAttribute, TextMap.insert_insert]

theorem kind_checkedBy (node : Node) (mark : Option Bool) : (node.checkedBy mark).kind = node.kind := by
  cases mark <;> rfl

/-- A check box and more content are given to an item in either order. -/
theorem checkedBy_extend (node : Node) (nodes : List Node) (value : Text) (mark : Option Bool) :
    (node.extend nodes value).checkedBy mark = (node.checkedBy mark).extend nodes value := by
  cases mark <;> rfl

theorem checkedBy_checkedBy (node : Node) (mark later : Option Bool) :
    (node.checkedBy mark).checkedBy later = node.checkedBy (later.or mark) := by
  cases later with
  | none => cases mark <;> rfl
  | some checked =>
      cases mark with
      | none => rfl
      | some earlier => exact node.withAttribute_withAttribute ..

/-- Texts are made of text only. -/
def PlainTexts (nodes : List Node) : Prop := ∀ node ∈ nodes, node.kind = .text → node = ofText node.value

/-- A text joins a text at the end, and any other node stands by itself. -/
theorem addNode_concat (before : List Node) (last : Node) {next : Node}
    (h : next.kind = .text → next = ofText next.value) :
    addNode (before ++ [last]) next =
      if last.kind = .text ∧ next.kind = .text then
        before ++ [{ last with value := last.value ++ next.value }]
      else before ++ [last] ++ [next] := by
  by_cases hNext : next.kind = .text
  · rw [addNode, if_pos hNext, addText_concat, ← h hNext]
    simp [hNext]
  · simp [addNode, hNext]

/-- Adding nodes one by one joins neighbouring texts onto the last node. -/
theorem foldl_addNode_concat (before : List Node) (last : Node) {nodes : List Node}
    (h : PlainTexts nodes) :
    nodes.foldl addNode (before ++ [last]) = before ++ joinOnto last nodes := by
  induction nodes generalizing before last with
  | nil => rfl
  | cons next rest ih =>
      obtain ⟨hNext, hRest⟩ := List.forall_mem_cons.1 h
      rw [List.foldl_cons, addNode_concat before last hNext, joinOnto]
      split
      · exact ih before _ hRest
      · rw [ih (before ++ [last]) next hRest, List.append_assoc]
        rfl

/-- Nodes that are added one after the other have neighbouring texts made one. -/
theorem foldl_addNode {nodes : List Node} (h : PlainTexts nodes) :
    nodes.foldl addNode [] = joinTexts nodes := by
  cases nodes with
  | nil => rfl
  | cons first rest =>
      obtain ⟨hFirst, hRest⟩ := List.forall_mem_cons.1 h
      have hAdd : addNode [] first = [] ++ [first] := by
        by_cases hText : first.kind = .text
        · rw [addNode, if_pos hText]
          exact congrArg ([·]) (hFirst hText).symm
        · rw [addNode, if_neg hText]
      rw [List.foldl_cons, hAdd, foldl_addNode_concat [] first hRest]
      rfl

/-- Joining leaves no two texts side by side, and the first node keeps its kind. -/
theorem textsApart_joinOnto (last : Node) (nodes : List Node) :
    TextsApart (joinOnto last nodes) ∧
      ∃ first rest, joinOnto last nodes = first :: rest ∧ first.kind = last.kind := by
  induction nodes generalizing last with
  | nil => exact ⟨.singleton last, last, [], rfl, rfl⟩
  | cons next rest ih =>
      rw [joinOnto]
      split
      · exact ih _
      · next hApart =>
        obtain ⟨hChain, first, more, hJoined, hKind⟩ := ih next
        rw [hJoined] at hChain ⊢
        exact ⟨.cons_cons (hKind ▸ hApart) hChain, last, first :: more, rfl, rfl⟩

theorem textsApart_joinTexts (nodes : List Node) : TextsApart (joinTexts nodes) := by
  cases nodes with
  | nil => exact .nil
  | cons first rest => exact (textsApart_joinOnto first rest).1

/-- What holds below all nodes holds below them when texts are joined, if it asks for the children
only. -/
theorem everywhere_joinOnto {p : List Node → Prop} {last : Node} {nodes : List Node}
    (hLast : last.Everywhere fun node => p node.children)
    (hNodes : ∀ node ∈ nodes, node.Everywhere fun node => p node.children) :
    ∀ node ∈ joinOnto last nodes, node.Everywhere fun node => p node.children := by
  induction nodes generalizing last with
  | nil => exact List.forall_mem_singleton.2 hLast
  | cons next rest ih =>
      obtain ⟨hNext, hRest⟩ := List.forall_mem_cons.1 hNodes
      rw [joinOnto]
      split
      · cases hLast with
        | intro hHere hBelow => exact ih (.intro hHere hBelow) hRest
      · exact List.forall_mem_cons.2 ⟨hLast, ih hNext hRest⟩

/-- Joining neighbouring texts leaves what stands below the nodes as it is. -/
theorem everywhere_joinTexts {p : List Node → Prop} {nodes : List Node}
    (h : ∀ node ∈ nodes, node.Everywhere fun node => p node.children) :
    ∀ node ∈ joinTexts nodes, node.Everywhere fun node => p node.children := by
  cases nodes with
  | nil => exact h
  | cons first rest =>
      obtain ⟨hFirst, hRest⟩ := List.forall_mem_cons.1 h
      exact everywhere_joinOnto hFirst hRest

end Node

namespace Markdown

/-- What an event adds has no children, and if it is text it is nothing else. -/
theorem Event.mem_nodesIn {event : Event} {parent : NodeKind} {node : Node}
    (h : node ∈ event.nodesIn parent) :
    node.children = [] ∧ (node.kind = .text → node = .ofText node.value) := by
  have hOther : ∀ (kind : NodeKind) (value : Text), kind ≠ .text →
      node ∈ [({ kind, value } : Node)] →
      node.children = [] ∧ (node.kind = .text → node = .ofText node.value) := by
    intro kind value hKind hMem
    obtain rfl := List.mem_singleton.1 hMem
    exact ⟨rfl, fun hText => absurd hText hKind⟩
  have hText : ∀ value : Text, node ∈ (if parent = .code then [] else [Node.ofText value]) →
      node.children = [] ∧ (node.kind = .text → node = .ofText node.value) := by
    intro value hMem
    split at hMem
    · cases hMem
    · obtain rfl := List.mem_singleton.1 hMem
      exact ⟨rfl, fun _ => rfl⟩
  cases event with
  | text value => exact hText value h
  | softBreak => exact hText ['\n'] h
  | html value =>
      rw [Event.nodesIn] at h
      split at h
      · cases h
      · exact hOther .html value (by decide) h
  | code value => exact hOther .inlineCode value (by decide) h
  | hardBreak => exact hOther .break [] (by decide) h
  | thematicBreak => exact hOther .thematicBreak [] (by decide) h
  | _ => cases h

theorem Tag.value_node (tag : Tag) : tag.node.value = [] := by
  have hTitle : ∀ (node : Node) (title : Text), (node.withTitle title).value = node.value := by
    intro node title
    unfold Node.withTitle
    split <;> rfl
  cases tag with
  | code info =>
      rw [Tag.node]
      split <;> rfl
  | list first => cases first <;> rfl
  | link url title => exact hTitle ..
  | image url title => exact hTitle ..
  | _ => rfl

/-- Only the tag of an item starts a list item. -/
theorem Tag.kind_node_listItem_iff (tag : Tag) : tag.node.kind = .listItem ↔ tag.isItem = true := by
  have hOther : ∀ kind : NodeKind, kind ≠ .listItem → tag.isItem = false →
      (kind = .listItem ↔ tag.isItem = true) := by
    intro kind hKind hItem
    rw [hItem]
    exact iff_of_false hKind Bool.false_ne_true
  cases tag with
  | item span => exact iff_of_true rfl rfl
  | code info =>
      rw [Tag.node]
      split <;> exact hOther .code (by decide) rfl
  | list first => cases first <;> exact hOther .list (by decide) rfl
  | link url title =>
      rw [Tag.node, Node.kind_withTitle]
      exact hOther .link (by decide) rfl
  | image url title =>
      rw [Tag.node, Node.kind_withTitle]
      exact hOther .image (by decide) rfl
  | heading level => exact hOther .heading (by decide) rfl
  | quote span => exact hOther .blockQuote (by decide) rfl
  | table columns => exact hOther .table (by decide) rfl
  | _ => exact hOther _ (by decide) rfl

theorem Tag.kind_nodeWith (tag : Tag) (children : List Node) (value : Text) (mark : Option Bool) :
    (tag.nodeWith children value mark).kind = tag.node.kind := by
  unfold Tag.nodeWith
  split
  · rfl
  · split
    · exact Node.kind_checkedBy ..
    · rfl

/-- Of all elements only images forget their children. -/
theorem Tag.children_nodeWith (tag : Tag) (children : List Node) (value : Text)
    (mark : Option Bool) :
    (tag.nodeWith children value mark).children = if tag.isImage then [] else children := by
  unfold Tag.nodeWith
  split
  · exact tag.children_node
  · rfl

namespace EventTree

/-- A tree adds what one event adds, or the one node of an element. -/
theorem nodesIn_eq_or (tree : EventTree) (parent : NodeKind) :
    (∃ event, tree.nodesIn parent = Event.nodesIn parent event) ∨
      ∃ tag children value mark, tree.nodesIn parent = [Tag.nodeWith tag children value mark] := by
  cases tree with
  | leaf event _ => exact .inl ⟨event, rfl⟩
  | element tag content => exact .inr ⟨tag, _, _, _, rfl⟩

/-- Texts that trees add are nothing but text. -/
theorem plainTexts_allNodesIn (parent : NodeKind) (trees : List EventTree) :
    Node.PlainTexts (allNodesIn parent trees) := by
  induction trees with
  | nil => exact List.forall_mem_nil _
  | cons tree rest ih =>
      refine List.forall_mem_append.2 ⟨?_, ih⟩
      rcases tree.nodesIn_eq_or parent with ⟨event, hNodes⟩ | ⟨tag, children, value, mark, hNodes⟩
      · rw [hNodes]
        exact fun node hMem => (Event.mem_nodesIn hMem).2
      · rw [hNodes]
        refine List.forall_mem_singleton.2 fun hText => absurd hText ?_
        rw [Tag.kind_nodeWith]
        exact tag.kind_node_ne.1

mutual

/-- Nowhere below what a tree adds do two texts stand side by side. -/
theorem textsApart_nodesIn (parent : NodeKind) (tree : EventTree) :
    ∀ node ∈ tree.nodesIn parent, node.Everywhere fun node => Node.TextsApart node.children := by
  match tree with
  | leaf event _ =>
      intro node hMem
      have hChildren := (Event.mem_nodesIn hMem).1
      exact .intro (hChildren ▸ .nil) (hChildren ▸ List.forall_mem_nil _)
  | element tag content =>
      have hJoined := Node.textsApart_joinTexts (allNodesIn tag.node.kind content)
      have hBelow := Node.everywhere_joinTexts (textsApart_allNodesIn tag.node.kind content)
      refine List.forall_mem_singleton.2 (.intro ?_ ?_) <;> rw [Tag.children_nodeWith] <;> split
      · exact .nil
      · exact hJoined
      · exact List.forall_mem_nil _
      · exact hBelow

/-- In the nodes of trees no text has a text next to it. -/
theorem textsApart_allNodesIn (parent : NodeKind) (trees : List EventTree) :
    ∀ node ∈ allNodesIn parent trees,
      node.Everywhere fun node => Node.TextsApart node.children := by
  match trees with
  | [] => exact List.forall_mem_nil _
  | tree :: rest =>
      exact List.forall_mem_append.2
        ⟨textsApart_nodesIn parent tree, textsApart_allNodesIn parent rest⟩

end

end EventTree

end Markdown

end DirectiveMarkdown
