import Mathlib
import DirectiveMarkdown.Proofs.NodeRecursion
import DirectiveMarkdown.Proofs.Document.Invariant
import DirectiveMarkdown.Proofs.Markdown.AlphabetEvents

/-! Raw HTML and labels. The label of a directive in running text is cut out of text whose escapes and
character references are resolved already, and is read as Markdown once more. This is the only step of
expansion that HTML can come from. -/
namespace DirectiveMarkdown

open Markdown

namespace Node

variable {p : Node → Prop} {node : Node}

theorem everywhere_iff :
    node.Everywhere p ↔ p node ∧ ∀ child ∈ node.children, child.Everywhere p :=
  ⟨fun ⟨hHere, hBelow⟩ => ⟨hHere, hBelow⟩, fun ⟨hHere, hBelow⟩ => .intro hHere hBelow⟩

/-- A property holds everywhere if it holds of each node in pre-order. -/
theorem everywhere_iff_preorder (above : List Node) :
    node.Everywhere p ↔ ∀ entry ∈ node.preorder above, p entry.2 := by
  induction node using inductionOnChildren generalizing above with
  | step node ih =>
      rw [preorder_eq, List.forall_mem_cons, everywhere_iff]
      refine and_congr Iff.rfl ?_
      constructor
      · intro h entry hMem
        obtain ⟨child, hChild, hMem⟩ := List.mem_flatMap.1 hMem
        exact (ih child hChild _).1 (h child hChild) entry hMem
      · intro h child hChild
        exact (ih child hChild (node :: above)).2 fun entry hMem =>
          h entry (List.mem_flatMap.2 ⟨child, hChild, hMem⟩)

/-- No node of the tree is HTML. -/
def HoldsNoHtml (node : Node) : Prop := node.Everywhere fun other => other.kind ≠ .html

/-- A tree holds no HTML exactly if none of its nodes in pre-order is HTML. -/
theorem holdsNoHtml_iff_kinds :
    node.HoldsNoHtml ↔ .html ∉ (node.preorder []).map fun entry => entry.2.kind := by
  rw [HoldsNoHtml, everywhere_iff_preorder [], List.mem_map]
  exact ⟨fun h ⟨entry, hMem, hKind⟩ => h entry hMem hKind,
    fun h entry hMem hKind => h ⟨entry, hMem, hKind⟩⟩

instance : Decidable node.HoldsNoHtml := decidable_of_iff _ holdsNoHtml_iff_kinds.symm

mutual

/-- The labels of the directives in the text nodes below a node, each with the text it stands in. -/
def labels : Node → List (Text × Text)
  | ⟨_, _, _, _, children, _⟩ => allLabels children

def allLabels : List Node → List (Text × Text)
  | [] => []
  | node :: rest =>
    (if node.kind = .text ∧ (InlineDirective.find? none node.value).isSome then
        (InlineDirective.findAll none node.value).map fun found =>
          (node.value, found.body.arguments.label)
      else node.labels) ++ allLabels rest

end

/-- The property `p` holds of text, and of a directive in running text exactly if `content` holds of what
its label is read as. -/
structure OfLabels (p content : Node → Prop) : Prop where
  ofText : ∀ value, p (.ofText value)
  directive : ∀ label body, p (directiveNode label body) ↔
    ∀ made ∈ label body.arguments.label, content made

section Labels

variable {content : Node → Prop} {label : Text → Text → List Node}

/-- The pieces of a text have the property exactly if the labels in it have theirs. -/
theorem OfLabels.forall_splitTextUpTo_iff (h : OfLabels p content) (label : Text → List Node)
    (fuel : Nat) (previous : Option Char) (s : Text) :
    (∀ made ∈ splitTextUpTo label fuel previous s, p made) ↔
      ∀ found ∈ InlineDirective.findAllUpTo fuel previous s,
        ∀ made ∈ label found.body.arguments.label, content made := by
  have hText : ∀ value : Text, ∀ made ∈ textPiece value, p made := by
    intro value made hMem
    unfold textPiece at hMem
    split at hMem
    · cases hMem
    · rw [List.mem_singleton.1 hMem]
      exact h.ofText value
  fun_induction splitTextUpTo label fuel previous s with
  | case1 => exact iff_of_true (hText _) (List.forall_mem_nil _)
  | case2 fuel previous s hNone =>
      rw [InlineDirective.findAllUpTo, hNone]
      exact iff_of_true (hText _) (List.forall_mem_nil _)
  | case3 fuel previous s found hFound ih =>
      rw [InlineDirective.findAllUpTo, hFound, List.forall_mem_append, List.forall_mem_cons,
        List.forall_mem_cons, and_iff_right (hText _)]
      exact and_congr (h.directive _ _) ih

/-- Nodes have the property after expansion exactly if they had it before and the labels in them have
theirs, if this is so of each node. -/
theorem OfLabels.forall_expandAll_iff (h : OfLabels p content) {nodes : List Node}
    (hText : ∀ node ∈ nodes, node.kind = .text → p node)
    (hNodes : ∀ node ∈ nodes, p (node.expandWith label) ↔
      p node ∧ ∀ entry ∈ node.labels, ∀ made ∈ label entry.1 entry.2, content made) :
    (∀ made ∈ expandAll label nodes, p made) ↔
      (∀ node ∈ nodes, p node) ∧
        ∀ entry ∈ allLabels nodes, ∀ made ∈ label entry.1 entry.2, content made := by
  induction nodes with
  | nil => exact iff_of_true (List.forall_mem_nil _) ⟨List.forall_mem_nil _, List.forall_mem_nil _⟩
  | cons node rest ih =>
      obtain ⟨hFirst, hRestText⟩ := List.forall_mem_cons.1 hText
      obtain ⟨hNode, hRest⟩ := List.forall_mem_cons.1 hNodes
      rw [expandAll, allLabels, List.forall_mem_append, List.forall_mem_append,
        List.forall_mem_cons, ih hRestText hRest, and_and_and_comm]
      refine and_congr ?_ Iff.rfl
      split
      · next hFound =>
          rw [h.forall_splitTextUpTo_iff, List.forall_mem_map, and_iff_right (hFirst hFound.1)]
          exact Iff.rfl
      · rw [List.forall_mem_singleton]
        exact hNode

theorem ofLabels_holdsNoHtml : OfLabels HoldsNoHtml HoldsNoHtml where
  ofText := fun _ => .intro (by decide : NodeKind.text ≠ .html) (List.forall_mem_nil _)
  directive := fun _ _ =>
    everywhere_iff.trans (and_iff_right (by decide : NodeKind.textDirective ≠ .html))

/-- Expansion of a tree without HTML makes HTML of the content of labels only. -/
theorem holdsNoHtml_expandWith_iff (h : node.HoldsNoHtml) :
    (node.expandWith label).HoldsNoHtml ↔
      ∀ entry ∈ node.labels, ∀ made ∈ label entry.1 entry.2, made.HoldsNoHtml := by
  induction h with
  | @intro node hHere hBelow ih =>
      obtain ⟨kind, name, attributes, metadata, children, value⟩ := node
      have hChildren := ofLabels_holdsNoHtml.forall_expandAll_iff (fun child hMem _ =>
        hBelow child hMem) fun child hMem => (ih child hMem).trans (and_iff_right (hBelow child hMem)).symm
      exact (everywhere_iff.trans (and_iff_right hHere)).trans
        (hChildren.trans (and_iff_right hBelow))

end Labels

end Node

/-- The text of the node is over the alphabet, and it is HTML only if angle brackets belong to the
alphabet. -/
structure Node.Over (a : Alphabet) (node : Node) : Prop where
  kind : a.holds '<' = false → node.kind ≠ .html
  value : node.kind = .text → node.value.Over a

section Alphabets

variable {a : Alphabet}

theorem readingKeeps_over (a : Alphabet) : ReadingKeeps (a.holds · = true) (Node.Over a) where
  children := fun _ h => ⟨h.kind, h.value⟩
  value := fun h hValue => ⟨h.kind, fun hText => (h.value hText).append hValue⟩
  withAttribute := fun _ _ h => ⟨h.kind, h.value⟩
  made := fun hKind _ _ => by
    refine ⟨?_, fun _ => List.forall_mem_nil _⟩
    rintro - rfl
    exact absurd hKind (by decide)
  ofText := fun hValue => ⟨fun _ => (by decide : NodeKind.text ≠ .html), fun _ => hValue⟩
  content := fun h => h.value
  newline := a.feed

/-- An event over an alphabet adds nodes over it. -/
theorem Markdown.Event.Over.adds {event : Event} (h : event.Over a) :
    event.Adds (a.holds · = true) (Node.Over a) := by
  cases event with
  | start tag =>
      refine ⟨fun hNone => tag.kind_node_ne.2 ?_, fun hText => absurd hText tag.kind_node_ne.1⟩
      rintro rfl
      have hOpens : a.holds '<' = true := h
      rw [hNone] at hOpens
      cases hOpens
  | text value => exact h
  | code value => exact ⟨fun _ => (by decide : NodeKind.inlineCode ≠ .html), nofun⟩
  | html value =>
      obtain ⟨hOpens, hValue⟩ := h
      refine ⟨⟨fun hNone => ?_, nofun⟩, hValue⟩
      rw [hNone] at hOpens
      cases hOpens
  | _ => trivial

end Alphabets

def isMild (c : Char) : Bool := c != '<' && c != '&'

def Text.IsMild (s : Text) : Prop := ∀ c ∈ s, isMild c = true

instance {s : Text} : Decidable s.IsMild := decidable_of_iff (s.all isMild = true) List.all_eq_true

/-- The alphabet without angle brackets and ampersands. -/
def mildAlphabet : Alphabet where
  holds := isMild
  reference := rfl
  space := rfl
  feed := rfl
  exclamation := rfl
  opening := rfl
  closing := rfl
  replacement := rfl

/-- Expansion makes HTML of a tree without any exactly if the content of one of its labels holds some.
No label does in which neither HTML nor a character reference can start, however deep the labels are
nested in each other. -/
theorem Node.holdsNoHtml_expandDirectives_iff (gfm : Bool) {node : Node} (h : node.HoldsNoHtml) :
    ((node.expandDirectives gfm).HoldsNoHtml ↔
        ∀ entry ∈ node.labels, ∀ made ∈ expandedLabel gfm entry.1.length entry.2,
          made.HoldsNoHtml) ∧
      ((∀ entry ∈ node.labels, entry.2.IsMild) → (node.expandDirectives gfm).HoldsNoHtml) := by
  refine ⟨holdsNoHtml_expandWith_iff h, ?_⟩
  intro hLabels
  refine (holdsNoHtml_expandWith_iff h).2 ?_
  intro entry hEntry made hMade
  have hOver : made.Everywhere (Node.Over mildAlphabet) :=
    everywhere_expandedLabel (readingKeeps_over mildAlphabet)
      (fun source hSource event hEvent => (over_events gfm hSource event hEvent).adds) _
      (hLabels entry hEntry) made hMade
  exact hOver.mono fun _ hNode => hNode.kind rfl

/-- A label with emphasis and a label inside it makes no HTML. -/
theorem Node.holdsNoHtml_expandDirectives_nested :
    let tree : Node := { kind := .root, children := [.ofText ":a[*b* :c[d] > e]".toList] }
    tree.HoldsNoHtml ∧ (∀ entry ∈ tree.labels, entry.2.IsMild) ∧
      (tree.expandDirectives true).HoldsNoHtml := by
  intro tree
  have hTree : tree.HoldsNoHtml := by decide
  have hLabels : tree.labels = [(":a[*b* :c[d] > e]".toList, "*b* :c[d] > e".toList)] := by cbv
  have hMild : ∀ entry ∈ tree.labels, entry.2.IsMild := by
    rw [hLabels]
    exact List.forall_mem_singleton.2 (by decide)
  exact ⟨hTree, hMild, (holdsNoHtml_expandDirectives_iff true hTree).2 hMild⟩

/-- Escaped characters in a label become live HTML: the tree of the fragment holds none, and its
expansion does. -/
theorem Node.holdsHtml_expandDirectives_escaped :
    let tree : Node := { kind := .root, children := fragment true ":a[\\<b>]\n".toList }
    tree.HoldsNoHtml ∧ ¬(tree.expandDirectives true).HoldsNoHtml := by
  have hFragment : (preorder []
      { kind := .root, children := fragment true ":a[\\<b>]\n".toList }).map
        (fun entry => entry.2.kind) = [.root, .paragraph, .text] := by cbv
  have hDocument : ((parseDocument true ":a[\\<b>]\n".toList).preorder []).map
      (fun entry => entry.2.kind) = [.root, .paragraph, .textDirective, .html] := by cbv
  intro tree
  constructor
  · rw [holdsNoHtml_iff_kinds, hFragment]
    decide
  · have hTree : tree.expandDirectives true = parseDocument true ":a[\\<b>]\n".toList := rfl
    rw [hTree, holdsNoHtml_iff_kinds, hDocument]
    decide

end DirectiveMarkdown
