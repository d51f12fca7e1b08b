import DirectiveMarkdown.Proofs.Section.Conservation
import DirectiveMarkdown.Proofs.Shape.Markdown

/-! The shape of documents. Every directive has the name that was read for it, whatever it stands in,
and reads no other names than proper ones. Expansion replaces text by text and directives and leaves
all other nodes where they are, so it keeps the shape. -/
namespace DirectiveMarkdown

open Markdown

def Mark.body? : Mark → Option DirectiveBody
  | leaf directive | opening directive => some directive
  | closing => none

/-- A mark with a directive comes from a line with this directive. -/
theorem Mark.exists_line {opened : List Nat} {directive : Option BlockLine} {mark : Mark}
    (h : (Mark.next opened directive).1 = some mark) {body : DirectiveBody}
    (hBody : mark.body? = some body) : ∃ line, directive = some line ∧ line.body? = some body := by
  match directive with
  | none => cases h
  | some (.leaf other) =>
      cases h
      exact ⟨_, rfl, hBody⟩
  | some (.opening colons other) =>
      cases h
      exact ⟨_, rfl, hBody⟩
  | some (.closing colons) =>
      cases opened with
      | nil => cases h
      | cons innermost outer =>
          rw [Mark.next] at h
          split at h <;> cases h
          cases hBody

theorem exists_of_mem_markLines {opened : List Nat} {entries : List (Option BlockLine × Text)}
    {mark : Option Mark} {line : Text} (h : (mark, line) ∈ markLines opened entries) :
    ∃ opened directive, (directive, line) ∈ entries ∧ (Mark.next opened directive).1 = mark := by
  induction entries generalizing opened with
  | nil => cases h
  | cons entry rest ih =>
      rcases List.mem_cons.1 h with hFirst | hRest
      · cases hFirst
        exact ⟨opened, entry.1, List.mem_cons_self .., rfl⟩
      · obtain ⟨opened, directive, hMem, hMark⟩ := ih hRest
        exact ⟨opened, directive, List.mem_cons_of_mem _ hMem, hMark⟩

/-- All directives that are started have a proper name. -/
def ProperlyNamed (pieces : List Piece) : Prop :=
  ∀ mark body, Piece.mark mark ∈ pieces → mark.body? = some body →
    isDirectiveName body.name = true

/-- The directives of a source are those of its lines, and have proper names. -/
theorem Section.properlyNamed_split (source : Text) : ProperlyNamed (piecesAll (split source)) := by
  intro mark body hMem hBody
  obtain ⟨-, unclosed, hPieces⟩ := pieces_split source
  rw [hPieces, List.mem_append] at hMem
  rcases hMem with hMem | hMem
  · have hMark : mark ∈ (((markedLines source).foldl Reading.next ⟨[], []⟩).finish).filterMap
        Piece.mark? := List.mem_filterMap.2 ⟨_, hMem, rfl⟩
    rw [Reading.mark_foldl_next, List.filterMap_nil, List.nil_append] at hMark
    obtain ⟨⟨_, line⟩, hLine, rfl⟩ := List.mem_filterMap.1 hMark
    obtain ⟨opened, directive, hEntry, hNext⟩ := exists_of_mem_markLines hLine
    obtain ⟨blockLine, rfl, hBlockLine⟩ := Mark.exists_line hNext hBody
    obtain ⟨_, _, _, -, hRead⟩ :=
      BlockLine.exists_readDirectiveBody? (read?_of_mem_scanLines hEntry rfl) hBlockLine
    exact isDirectiveName_of_readDirectiveBody? hRead
  · cases List.eq_of_mem_replicate hMem
    cases hBody

/-- A directive with a proper name may stand anywhere, with children that may. -/
theorem Node.isFlow_directive {kind : NodeKind} (hKind : kind.isDirective = true) {name : Text}
    (hName : isDirectiveName name = true) (attributes : TextMap) {children : List Node}
    (hChildren : ∀ child ∈ children, child.IsFlow) :
    IsFlow { kind, name := some name, attributes, children } := by
  have hDirective : kind.isFlow = true ∧ kind.holdsFlow = true ∧ kind ≠ .heading := by
    cases kind <;> first | exact ⟨rfl, rfl, by decide⟩ | cases hKind
  obtain ⟨hFlow, hHolds, hHeading⟩ := hDirective
  have hOwn : HasOwnShape { kind, name := some name, attributes, children } :=
    { metadata := rfl
      named := hKind.symm
      name := by
        rintro _ ⟨⟩
        exact hName
      value := fun hValue => absurd rfl hValue
      depth := fun hDepth => absurd hDepth hHeading }
  exact ⟨hOwn.everywhere_isShaped hHolds hChildren, hFlow⟩

section Sections

variable {markdown : Text → List Node}

/-- The content of a label may stand in any node if that of every run may. -/
theorem isFlow_labelNodes (hMarkdown : ∀ run, ∀ node ∈ markdown run, node.IsFlow) (label : Text) :
    ∀ node ∈ labelNodes markdown label, node.IsFlow := by
  unfold labelNodes
  split
  · exact List.forall_mem_nil _
  · exact isFlow_unwrapParagraphs (hMarkdown label)

/-- A container directive with a proper name has its shape. -/
theorem isFlow_containerNode {directive : DirectiveBody}
    (hName : isDirectiveName directive.name = true) {children : List Node}
    (hChildren : ∀ child ∈ children, child.IsFlow) : (containerNode directive children).IsFlow := by
  unfold containerNode
  dsimp only
  split
  · exact Node.isFlow_directive rfl hName _ hChildren
  · exact Node.isFlow_directive rfl hName
      (directive.arguments.toAttributes.insert (text "label") directive.arguments.label) hChildren

mutual

/-- The nodes of a section may stand anywhere, if those of runs of Markdown may. -/
theorem Section.isFlow_nodes (hMarkdown : ∀ run, ∀ node ∈ markdown run, node.IsFlow)
    (piece : Section) (hNames : ProperlyNamed piece.pieces) :
    ∀ node ∈ piece.nodes markdown, node.IsFlow := by
  match piece with
  | .markdown source => exact hMarkdown source
  | .leaf directive =>
      have hName := hNames (.leaf directive) directive (List.mem_singleton_self _) rfl
      exact List.forall_mem_singleton.2
        (Node.isFlow_directive rfl hName _ (isFlow_labelNodes hMarkdown _))
  | .container directive content =>
      have hName := hNames (.opening directive) directive (List.mem_cons_self ..) rfl
      have hContent := Section.isFlow_allNodes hMarkdown content fun mark body hMem =>
        hNames mark body (List.mem_cons_of_mem _ (List.mem_append_left _ hMem))
      exact List.forall_mem_singleton.2 (isFlow_containerNode hName hContent)

/-- Sections of properly named directives make nodes with their shape. -/
theorem Section.isFlow_allNodes (hMarkdown : ∀ run, ∀ node ∈ markdown run, node.IsFlow)
    (sections : List Section) (hNames : ProperlyNamed (piecesAll sections)) :
    ∀ node ∈ Section.allNodes markdown sections, node.IsFlow := by
  match sections with
  | [] => exact List.forall_mem_nil _
  | piece :: rest =>
      have hFirst := Section.isFlow_nodes hMarkdown piece fun mark body hMem =>
        hNames mark body (List.mem_append_left _ hMem)
      have hRest := Section.isFlow_allNodes hMarkdown rest fun mark body hMem =>
        hNames mark body (List.mem_append_right _ hMem)
      exact List.forall_mem_append.2 ⟨hFirst, hRest⟩

end

end Sections

/-- The nodes of a source may stand anywhere. -/
theorem isFlow_fragmentUpTo (gfm : Bool) (fuel : Nat) (source : Text) :
    ∀ node ∈ fragmentUpTo gfm fuel source, node.IsFlow := by
  induction fuel generalizing source with
  | zero => exact List.forall_mem_nil _
  | succ fuel ih =>
      exact Section.isFlow_allNodes (isFlow_markdownNodes gfm ih) _
        (Section.properlyNamed_split source)

theorem isFlow_inlineNodes (gfm : Bool) (label : Text) :
    ∀ node ∈ inlineNodes gfm label, node.IsFlow :=
  isFlow_labelNodes (isFlow_markdownNodes gfm (isFlow_fragmentUpTo gfm label.length)) label

section Expansion

/-- The pieces of a text may stand anywhere, if the content of labels may. -/
theorem isFlow_splitTextUpTo {label : Text → List Node}
    (hLabel : ∀ s, ∀ node ∈ label s, node.IsFlow) (fuel : Nat) (previous : Option Char) (s : Text) :
    ∀ node ∈ splitTextUpTo label fuel previous s, node.IsFlow := by
  have hPiece : ∀ value : Text, ∀ node ∈ textPiece value, node.IsFlow := by
    intro value
    unfold textPiece
    split
    · exact List.forall_mem_nil _
    · exact List.forall_mem_singleton.2 (Node.isFlow_literal rfl ∅ value)
  induction fuel generalizing previous s with
  | zero => exact hPiece s
  | succ fuel ih =>
      unfold splitTextUpTo
      split
      · exact hPiece s
      · next found hFound =>
          have hDirective : (directiveNode label found.body).IsFlow :=
            Node.isFlow_directive rfl (InlineDirective.isDirectiveName_of_find? hFound) _
              (hLabel _)
          exact List.forall_mem_append.2
            ⟨hPiece found.before, List.forall_mem_cons.2 ⟨hDirective, ih _ found.after⟩⟩

variable {label : Text → Text → List Node}

theorem Node.expandWith_eq (label : Text → Text → List Node) (node : Node) :
    node.expandWith label = { node with children := expandAll label node.children } := by
  obtain ⟨_, _, _, _, _, _⟩ := node
  rfl

/-- Nodes that are no text are expanded one by one. -/
theorem Node.expandAll_of_not_text {nodes : List Node} (h : ∀ node ∈ nodes, node.kind ≠ .text) :
    expandAll label nodes = nodes.map (expandWith label) := by
  induction nodes with
  | nil => rfl
  | cons node rest ih =>
      obtain ⟨hNode, hRest⟩ := List.forall_mem_cons.1 h
      rw [expandAll, if_neg fun hText => hNode hText.1, ih hRest]
      rfl

variable (hLabel : ∀ value s, ∀ node ∈ label value s, node.IsFlow)

include hLabel

/-- Expansion keeps the shape: text may stand only where directives may. -/
theorem everywhere_isShaped_expandWith {node : Node} (hNode : node.Everywhere Node.IsShaped) :
    (node.expandWith label).Everywhere Node.IsShaped := by
  induction hNode with
  | @intro node hHere hBelow ih =>
      rw [Node.expandWith_eq]
      have hOwn := hHere.toHasOwnShape.with_children (Node.expandAll label node.children)
      rcases node.kind.isChildless_or_holdsFlow_or_part with hNone | hFlow | ⟨part, hPart, hText⟩
      · rw [hHere.childless hNone] at hOwn ⊢
        exact (hOwn.isFlow rfl hNone hHere.description).shaped
      · have hChildren := Node.isFlow_children (.intro hHere hBelow) hFlow
        refine hOwn.everywhere_isShaped hFlow fun made hMade => ?_
        obtain ⟨child, hChild, rfl | ⟨-, hPiece⟩⟩ := mem_expandAll hMade
        · refine ⟨ih child hChild, ?_⟩
          rw [Node.expandWith_eq]
          exact (hChildren child hChild).kind
        · exact isFlow_splitTextUpTo (hLabel child.value) _ none child.value made hPiece
      · have hKind := hHere.kind_of_part hPart
        have hParts : Node.expandAll label node.children = _ :=
          Node.expandAll_of_not_text fun child hChild => (hKind child hChild).symm ▸ hText
        rw [hParts] at hOwn ⊢
        refine hOwn.everywhere_of_parts hPart ?_ fun hTable => ?_
        · intro made hMade
          obtain ⟨child, hChild, rfl⟩ := List.mem_map.1 hMade
          refine ⟨ih child hChild, ?_⟩
          rw [Node.expandWith_eq]
          exact hKind child hChild
        · obtain ⟨head, rest, hEq, hHeader, hOthers⟩ := hHere.header hTable
          refine ⟨head.expandWith label, rest.map (Node.expandWith label), ?_, ?_, ?_⟩
          · rw [hEq]
            rfl
          · rw [Node.expandWith_eq]
            exact hHeader
          · intro made hMade
            obtain ⟨row, hRow, rfl⟩ := List.mem_map.1 hMade
            rw [Node.expandWith_eq]
            exact hOthers row hRow

/-- Expansion keeps nodes that may stand anywhere such nodes. -/
theorem isFlow_expandAll {nodes : List Node} (hNodes : ∀ node ∈ nodes, node.IsFlow) :
    ∀ node ∈ Node.expandAll label nodes, node.IsFlow := by
  intro made hMade
  obtain ⟨child, hChild, rfl | ⟨-, hPiece⟩⟩ := mem_expandAll hMade
  · refine ⟨everywhere_isShaped_expandWith hLabel (hNodes child hChild).shaped, ?_⟩
    rw [Node.expandWith_eq]
    exact (hNodes child hChild).kind
  · exact isFlow_splitTextUpTo (hLabel child.value) _ none child.value made hPiece

end Expansion

/-- The content of labels may stand anywhere, however deep they are nested. -/
theorem isFlow_expandedLabel (gfm : Bool) (fuel : Nat) (label : Text) :
    ∀ node ∈ expandedLabel gfm fuel label, node.IsFlow := by
  induction fuel generalizing label with
  | zero => exact List.forall_mem_nil _
  | succ fuel ih => exact isFlow_expandAll (fun _ => ih) (isFlow_inlineNodes gfm label)

/-- The tree of a document has a root, and every node in it has its shape: the fields and the
children of its kind. -/
theorem parseDocument_isShaped (gfm : Bool) (source : Text) :
    (parseDocument gfm source).kind = .root ∧
      (parseDocument gfm source).Everywhere Node.IsShaped := by
  refine ⟨rfl, everywhere_isShaped_expandWith (fun value => isFlow_expandedLabel gfm _) ?_⟩
  have hOwn : Node.HasOwnShape { kind := .root, children := fragment gfm source } :=
    Node.hasOwnShape_plain rfl (by decide) ∅ _
  exact hOwn.everywhere_isShaped rfl (isFlow_fragmentUpTo gfm _ source)

end DirectiveMarkdown
