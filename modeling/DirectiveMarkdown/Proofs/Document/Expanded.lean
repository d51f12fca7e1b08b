import DirectiveMarkdown.Proofs.Directive.Division
import DirectiveMarkdown.Proofs.Document.LabelContent

/-! Expanded trees. Expansion divides each text with directives into its parts, and the label of each
directive is expanded in turn. No text of the outcome holds a directive, so that there is nothing left to
be expanded. -/
namespace DirectiveMarkdown

open InlineDirective

def TextPart.node (label : Text → List Node) : TextPart → Node
  | plain value => .ofText value
  | directive body _ => directiveNode label body

/-- The nodes of a text are those of the parts around the directives that are found. -/
theorem splitTextUpTo_eq (label : Text → List Node) (fuel : Nat) (previous : Option Char) (s : Text) :
    splitTextUpTo label fuel previous s =
      (TextPart.around s (findAllUpTo fuel previous s)).map (TextPart.node label) := by
  have hWhole (value : Text) :
      textPiece value = (TextPart.whole value).map (TextPart.node label) := by
    cases value <;> rfl
  fun_induction findAllUpTo fuel previous s with
  | case1 previous s => exact hWhole s
  | case2 fuel previous s hNone =>
      rw [splitTextUpTo, hNone]
      exact hWhole s
  | case3 fuel previous s found hFound ih =>
      rw [splitTextUpTo, hFound]
      dsimp only
      rw [ih, hWhole, TextPart.around, List.map_append, List.map_cons]
      rfl

namespace Node

variable {label : Text → Text → List Node}

/-- Sibling nodes are expanded one by one. -/
theorem expandAll_eq_flatMap (label : Text → Text → List Node) (nodes : List Node) :
    expandAll label nodes = nodes.flatMap fun node =>
      if node.kind = .text ∧ (find? none node.value).isSome then
        (textParts node.value).map (TextPart.node (label node.value))
      else [node.expandWith label] := by
  induction nodes with
  | nil => rfl
  | cons node rest ih =>
      rw [expandAll, ih, List.flatMap_cons]
      congr 1
      split
      · exact splitTextUpTo_eq ..
      · rfl

/-- A node among expanded ones is an expanded node without a directive in its own text, or a part of a
text. -/
theorem exists_of_mem_expandAll {nodes : List Node} {made : Node} (h : made ∈ expandAll label nodes) :
    (∃ child ∈ nodes, made = child.expandWith label ∧
        (child.kind = .text → find? none child.value = none)) ∨
      ∃ s, ∃ part ∈ textParts s, made = part.node (label s) := by
  rw [expandAll_eq_flatMap] at h
  obtain ⟨child, hChild, hMade⟩ := List.mem_flatMap.1 h
  split at hMade
  · obtain ⟨part, hPart, rfl⟩ := List.mem_map.1 hMade
    exact .inr ⟨_, part, hPart, rfl⟩
  · next hNone =>
      refine .inl ⟨child, hChild, List.mem_singleton.1 hMade, fun hText => ?_⟩
      simpa [hText] using hNone

/-- A part of a text is expanded if the content of labels is. -/
theorem isExpanded_part {content : Text → List Node}
    (hContent : ∀ s, ∀ made ∈ content s, made.IsExpanded) {s : Text} {part : TextPart}
    (h : part ∈ textParts s) : (part.node content).IsExpanded := by
  cases part with
  | plain value =>
      have hNone : find? none value = none := TextPart.find?_of_plain_mem rfl (Nat.le_refl _) h
      exact .intro (fun _ => hNone) (List.forall_mem_nil _)
  | directive body written =>
      refine .intro (fun hText => ?_) (hContent body.arguments.label)
      cases hText

/-- Expansion leaves no directive below a node, if it leaves none in the content of labels. -/
theorem isExpanded_expandWith (hLabel : ∀ value s, ∀ made ∈ label value s, made.IsExpanded)
    {node : Node} (h : node.kind = .text → find? none node.value = none) :
    (node.expandWith label).IsExpanded := by
  induction node using inductionOnChildren with
  | step node ih =>
      rw [expandWith_eq]
      refine .intro h fun made hMade => ?_
      rcases exists_of_mem_expandAll hMade with ⟨child, hChild, rfl, hNone⟩ | ⟨s, part, hPart, rfl⟩
      · exact ih child hChild hNone
      · exact isExpanded_part (hLabel s) hPart

/-- Expansion leaves no directive in text if the content of labels holds none. -/
theorem isExpanded_expandAll (hLabel : ∀ value s, ∀ made ∈ label value s, made.IsExpanded)
    {nodes : List Node} : ∀ made ∈ expandAll label nodes, made.IsExpanded := by
  intro made hMade
  rcases exists_of_mem_expandAll hMade with ⟨child, -, rfl, hNone⟩ | ⟨s, part, hPart, rfl⟩
  · exact isExpanded_expandWith hLabel hNone
  · exact isExpanded_part (hLabel s) hPart

end Node

/-- The content of labels is expanded, however deep they are nested. -/
theorem isExpanded_expandedLabel (gfm : Bool) (fuel : Nat) (label : Text) :
    ∀ made ∈ expandedLabel gfm fuel label, made.IsExpanded := by
  induction fuel generalizing label with
  | zero => exact List.forall_mem_nil _
  | succ fuel ih => exact Node.isExpanded_expandAll fun _ => ih

namespace Node

/-- A text with directives in it becomes the nodes of its parts, where the content of a label is
expanded as well. Any other node, an empty text too, stays, and what is below it is expanded. -/
def divide (gfm : Bool) (node : Node) : List Node :=
  if node.kind = .text ∧ (find? none node.value).isSome then
    (textParts node.value).map (TextPart.node (labelContent gfm))
  else [node.expandDirectives gfm]

/-- The content of a label is the same wherever the label stands. -/
theorem expandDirectives_eq_expandWith (gfm : Bool) (node : Node) :
    node.expandDirectives gfm = node.expandWith fun _ => labelContent gfm := by
  refine expandWith_congr node fun entry hEntry => ?_
  obtain ⟨value, label⟩ := entry
  have hShorter := length_lt_of_mem_labels hEntry
  cases value with
  | nil => cases hShorter
  | cons c rest => exact expandedLabel_eq_labelContent gfm (Nat.le_of_lt_succ hShorter)

theorem expandDirectives_eq_flatMap (gfm : Bool) (node : Node) :
    node.expandDirectives gfm = { node with children := node.children.flatMap (divide gfm) } := by
  have hDivide : divide gfm = fun child : Node =>
      if child.kind = .text ∧ (find? none child.value).isSome then
        (textParts child.value).map (TextPart.node (labelContent gfm))
      else [child.expandWith fun _ => labelContent gfm] := by
    funext child
    rw [divide, expandDirectives_eq_expandWith]
  rw [expandDirectives_eq_expandWith, expandWith_eq, expandAll_eq_flatMap, hDivide]

/-- Expansion leaves no directive in any text below a node, the content of labels included, and expanding
the tree again changes nothing. Each text with directives is divided into its parts, with the content of
labels expanded in the same way. The parts of a text in order are the text, and none of them is empty. -/
theorem expandDirectives_leaves_none (gfm : Bool) {node : Node} (h : node.kind ≠ .text) :
    (node.expandDirectives gfm).IsExpanded ∧
    (∀ again, (node.expandDirectives gfm).expandDirectives again = node.expandDirectives gfm) ∧
    node.expandDirectives gfm = { node with children := node.children.flatMap (divide gfm) } ∧
    (∀ label, labelContent gfm label = (inlineNodes gfm label).flatMap (divide gfm)) ∧
    ∀ s, (textParts s).flatMap TextPart.written = s ∧ ∀ part ∈ textParts s, part.written ≠ [] := by
  have hExpanded : (node.expandDirectives gfm).IsExpanded :=
    isExpanded_expandWith (fun value => isExpanded_expandedLabel gfm _) fun hText => absurd hText h
  refine ⟨hExpanded, fun again => hExpanded.expandWith_eq_self _,
    expandDirectives_eq_flatMap gfm node, fun label => ?_, fun s => ?_⟩
  · exact congrArg children
      (expandDirectives_eq_flatMap gfm { kind := .root, children := inlineNodes gfm label })
  · exact ⟨TextPart.flatMap_written_around .., fun part => TextPart.written_ne_nil⟩

/-- A directive in the label of another one, with text on both sides, and one in strong text. -/
theorem expandDirectives_leaves_none_nested :
    let tree : Node :=
      { kind := .root
        children := [{
          kind := .paragraph
          children := [
            .ofText (text "1:2 :a[x :b[y]] z"),
            { kind := .strong, children := [.ofText (text ":c\x7bd\x7d")] }] }] }
    tree.kind ≠ .text ∧ (tree.expandDirectives true).IsExpanded ∧
      (tree.expandDirectives true).expandDirectives false = tree.expandDirectives true ∧
      ((tree.expandDirectives true).preorder []).map (fun entry => (entry.2.kind, entry.2.value)) =
        [(.root, []), (.paragraph, []), (.text, text "1:2 "), (.textDirective, []),
          (.text, text "x "), (.textDirective, []), (.text, text "y"), (.text, text " z"),
          (.strong, []), (.textDirective, [])] := by
  intro tree
  have hRoot : tree.kind ≠ .text := by decide
  obtain ⟨hExpanded, hAgain, -⟩ := expandDirectives_leaves_none true hRoot
  refine ⟨hRoot, hExpanded, hAgain false, ?_⟩
  cbv

end Node

end DirectiveMarkdown
