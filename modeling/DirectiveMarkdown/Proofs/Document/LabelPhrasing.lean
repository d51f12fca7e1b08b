import DirectiveMarkdown.Proofs.Document.Depth
import DirectiveMarkdown.Proofs.Document.Phrasing

/-! The directives of a document and their labels. Directives are found in the sections of a source and
in the text of its nodes. Those without block content hold phrasing content exactly if every label that
is read in the document makes such content. -/
namespace DirectiveMarkdown

open Markdown

section Directives

variable {gfm : Bool} {read : Text → List Node} {source : Text}

/-- Taking paragraphs away does not change which directives hold phrasing content. -/
theorem forall_unwrapParagraphs_holdsPhrasing_iff {nodes : List Node} :
    (∀ node ∈ unwrapParagraphs nodes, node.Everywhere Node.HoldsPhrasing) ↔
      ∀ node ∈ nodes, node.Everywhere Node.HoldsPhrasing := by
  refine List.forall_mem_flatMap.trans (forall₂_congr fun node _ => ?_)
  split
  · next hKind => exact (Node.everywhere_holdsPhrasing_iff (by rw [hKind]; decide)).symm
  · exact List.forall_mem_singleton

/-- A container that is read again holds no directives but those of its content. -/
theorem everywhere_rereadNode_iff {tag : Tag} (hTag : tag.isContainer = true) (inner : List Event)
    (content : List Node) :
    (rereadNode tag inner content).Everywhere Node.HoldsPhrasing ↔
      ∀ node ∈ content, node.Everywhere Node.HoldsPhrasing := by
  have hKind := kind_rereadNode hTag inner content
  cases tag with
  | quote span => exact Node.everywhere_holdsPhrasing_iff (hKind ▸ Tag.kind_node_not_directive _)
  | item span =>
      rw [Node.everywhere_holdsPhrasing_iff (hKind ▸ Tag.kind_node_not_directive _)]
      have hChildren : (rereadNode (.item span) inner content).children =
          if hasParagraph 0 inner then content else unwrapParagraphs content := by
        unfold rereadNode
        dsimp only
        split <;> rfl
      rw [hChildren]
      split
      · exact Iff.rfl
      · exact forall_unwrapParagraphs_holdsPhrasing_iff
  | _ => cases hTag

/-- Events make no directives. What they add holds those of the contents that are read again. -/
theorem forall_grown_holdsPhrasing_iff {ofItem : Bool} {events : List Event}
    (h : Nested ofItem events) {node : Node} (hItem : ofItem = true → node.kind = .listItem) :
    (∀ child ∈ (grown (reread? read source) events node).children,
        child.Everywhere Node.HoldsPhrasing) ↔
      (∀ child ∈ node.children, child.Everywhere Node.HoldsPhrasing) ∧
        ∀ container ∈ rereadings source 0 events,
          ∀ made ∈ read container.content, made.Everywhere Node.HoldsPhrasing := by
  induction h generalizing node with
  | nil => exact (and_iff_left (List.forall_mem_nil _)).symm
  | content hEvent _ ih =>
      have hRule : Node.Everywhere Node.HoldsPhrasing { kind := .thematicBreak } :=
        (Node.everywhere_holdsPhrasing_iff (by decide)).2 (List.forall_mem_nil _)
      rw [grown_content hEvent, ih (by simp),
        Node.allowsPhrasing_holdsPhrasing.forall_grow_iff hEvent fun _ => hRule,
        rereadings_cons (Event.not_isBoundary_of_isContent hEvent)]
  | task _ ih =>
      rw [grown_task _ (hItem rfl), ih (by simp), rereadings_cons rfl]
      exact Iff.rfl
  | @element _ tag inner _ hImage hInner _ ihInner ihMore =>
      have hElement : (elementNode (reread? read source) tag inner).Everywhere Node.HoldsPhrasing ↔
          ∀ container ∈ elementRereadings source tag inner,
            ∀ made ∈ read container.content, made.Everywhere Node.HoldsPhrasing := by
        unfold elementRereadings rereading?
        cases hContent : rereadContent? source tag inner with
        | some content =>
            rw [(elementNode_of_reread read hInner hContent).1]
            rw [Option.map_some, List.forall_mem_singleton]
            exact everywhere_rereadNode_iff (isContainer_of_rereadContent? hContent) inner _
        | none =>
            have hKind : (elementNode (reread? read source) tag inner).kind = tag.node.kind :=
              kind_elementNode hInner
            rw [Node.everywhere_holdsPhrasing_iff (hKind ▸ tag.kind_node_not_directive), elementNode,
              reread?_eq, hContent]
            cases hTag : tag.isImage with
            | false =>
                have hChildren : ∀ child ∈ tag.node.children,
                    child.Everywhere Node.HoldsPhrasing := by
                  rw [Tag.children_node]
                  exact List.forall_mem_nil _
                rw [Option.map_none, Option.getD_none, Tag.finish_of_not_image hTag,
                  ihInner Tag.kind_node_of_isItem, and_iff_right hChildren]
                exact Iff.rfl
            | true =>
                have hNoContainer : rereadings source 0 inner = [] :=
                  rereadings_eq_nil (hImage hTag) 0
                rw [Option.map_none, hNoContainer]
                cases tag with
                | image url title =>
                    exact iff_of_true (List.forall_mem_nil _) (List.forall_mem_nil _)
                | _ => cases hTag
      rw [grown_around hInner, rereadings_around hInner (rereadings_append hInner), ihMore (by simp),
        Node.AllowsPhrasing.forall_appendChild_iff, hElement, List.forall_mem_append, and_assoc]

/-- A run of Markdown holds the directives of the contents that are read again. -/
theorem forall_markdownNodes_holdsPhrasing_iff (gfm : Bool) (read : Text → List Node)
    (source : Text) :
    (∀ node ∈ markdownNodes gfm read source, node.Everywhere Node.HoldsPhrasing) ↔
      ∀ container ∈ rereadings source 0 (events gfm source),
        ∀ made ∈ read container.content, made.Everywhere Node.HoldsPhrasing := by
  have hNested := nested_events gfm source
  have hRoot : ∀ child ∈ Node.children { kind := .root }, child.Everywhere Node.HoldsPhrasing :=
    List.forall_mem_nil _
  rw [markdownNodes, finish_assemble hNested, forall_grown_holdsPhrasing_iff hNested (by simp),
    and_iff_right hRoot]

/-- A container directive may hold blocks, so only what stands in it counts. -/
theorem everywhere_containerNode_iff (directive : DirectiveBody) (children : List Node) :
    (containerNode directive children).Everywhere Node.HoldsPhrasing ↔
      ∀ child ∈ children, child.Everywhere Node.HoldsPhrasing := by
  have hKind : NodeKind.containerDirective ≠ .leafDirective ∧
      NodeKind.containerDirective ≠ .textDirective := by decide
  unfold containerNode
  dsimp only
  split
  · exact Node.everywhere_holdsPhrasing_iff hKind
  · exact Node.everywhere_holdsPhrasing_iff hKind

mutual

/-- A section holds the directives of its runs of Markdown and its leaf directives. -/
theorem Section.forall_nodes_iff (markdown : Text → List Node) (piece : Section) :
    (∀ node ∈ piece.nodes markdown, node.Everywhere Node.HoldsPhrasing) ↔
      (∀ run, .markdown run ∈ piece.pieces →
        ∀ node ∈ markdown run, node.Everywhere Node.HoldsPhrasing) ∧
      ∀ directive, .mark (.leaf directive) ∈ piece.pieces →
        ∀ node ∈ labelNodes markdown directive.arguments.label, node.IsPhrasing := by
  match piece with
  | .markdown source => simp [Section.nodes, Section.pieces]
  | .leaf directive =>
      rw [Section.nodes, List.forall_mem_singleton, Node.everywhere_holdsPhrasing_of_label (.inl rfl)]
      simp [Section.pieces, leafNode]
  | .container directive content =>
      rw [Section.nodes, List.forall_mem_singleton, everywhere_containerNode_iff,
        Section.forall_allNodes_iff markdown content]
      simp [Section.pieces]

/-- The directives of sections are those of their Markdown and the leaves, whose labels are read. -/
theorem Section.forall_allNodes_iff (markdown : Text → List Node) (sections : List Section) :
    (∀ node ∈ Section.allNodes markdown sections, node.Everywhere Node.HoldsPhrasing) ↔
      (∀ run, .markdown run ∈ piecesAll sections →
        ∀ node ∈ markdown run, node.Everywhere Node.HoldsPhrasing) ∧
      ∀ directive, .mark (.leaf directive) ∈ piecesAll sections →
        ∀ node ∈ labelNodes markdown directive.arguments.label, node.IsPhrasing := by
  match sections with
  | [] => simp [Section.allNodes, Section.piecesAll]
  | piece :: rest =>
      rw [Section.allNodes, List.forall_mem_append, Section.forall_nodes_iff markdown piece,
        Section.forall_allNodes_iff markdown rest, and_and_and_comm]
      simp only [Section.piecesAll, List.mem_append, or_imp, forall_and]

end

theorem Section.exists_of_mem_piecesAll {sections : List Section} {piece : Piece}
    (h : piece ∈ piecesAll sections) : ∃ part ∈ sections, piece ∈ part.pieces := by
  induction sections with
  | nil => cases h
  | cons part rest ih =>
      rcases List.mem_append.1 h with h | h
      · exact ⟨part, List.mem_cons_self .., h⟩
      · obtain ⟨other, hOther, hPiece⟩ := ih h
        exact ⟨other, List.mem_cons_of_mem _ hOther, hPiece⟩

/-- The Markdown in a section stands in the source. -/
theorem Section.Within.sublist_of_mem_pieces {part : Section} (h : part.Within source) {run : Text}
    (hRun : .markdown run ∈ part.pieces) : run.Sublist source := by
  induction h with
  | markdown hSource =>
      cases List.mem_singleton.1 hRun
      exact hSource
  | leaf _ => cases List.mem_singleton.1 hRun
  | container _ ih =>
      simp only [Section.pieces, List.mem_cons, List.mem_append, List.not_mem_nil, reduceCtorEq,
        false_or, or_false] at hRun
      obtain ⟨part, hPart, hRun⟩ := Section.exists_of_mem_piecesAll hRun
      exact ih part hPart hRun

/-- The texts that are divided into sections when a source is read: the source, and each content of a
quote or an item that is read again. -/
inductive Divides (gfm : Bool) : Text → Text → Prop
  | source {source : Text} : Divides gfm source source
  | content {source run text : Text} {container : Rereading}
    (hRun : .markdown run ∈ Section.piecesAll (Section.split source))
    (hContainer : container ∈ rereadings run 0 (events gfm run))
    (hText : Divides gfm container.content text) : Divides gfm source text

/-- A leaf directive of a text that is divided has the label. -/
def LeafLabel (gfm : Bool) (source label : Text) : Prop :=
  ∃ text directive, Divides gfm source text ∧
    .mark (.leaf directive) ∈ Section.piecesAll (Section.split text) ∧
    directive.arguments.label = label

/-- The leaf directives of a source hold phrasing content exactly if their labels are running text. -/
theorem forall_fragment_holdsPhrasing_iff (gfm : Bool) (source : Text) :
    (∀ node ∈ fragment gfm source, node.Everywhere Node.HoldsPhrasing) ↔
      ∀ label, LeafLabel gfm source label → RunsOn gfm label := by
  induction hLength : source.length using Nat.strongRecOn generalizing source with
  | ind length ih =>
      have hContent : ∀ run, .markdown run ∈ Section.piecesAll (Section.split source) →
          ∀ container ∈ rereadings run 0 (events gfm run),
            (∀ node ∈ fragment gfm container.content, node.Everywhere Node.HoldsPhrasing) ↔
              ∀ label, LeafLabel gfm container.content label → RunsOn gfm label := by
        intro run hRun container hContainer
        obtain ⟨tag, inner, hFound⟩ := exists_of_mem_rereadings hContainer
        have hShorter := (rereadContent?_sublist hFound).2
        obtain ⟨part, hPart, hRun⟩ := Section.exists_of_mem_piecesAll hRun
        have hWithin := ((Section.within_split source part hPart).sublist_of_mem_pieces hRun).length_le
        exact ih _ (by omega) _ rfl
      rw [fragment_eq, Section.forall_allNodes_iff]
      simp only [forall_markdownNodes_holdsPhrasing_iff, isPhrasing_labelNodes_iff]
      constructor
      · rintro ⟨hRuns, hLeaves⟩ label ⟨text, directive, hText, hLeaf, rfl⟩
        cases hText with
        | source => exact hLeaves directive hLeaf
        | content hRun hContainer hText =>
            exact (hContent _ hRun _ hContainer).1 (hRuns _ hRun _ hContainer) _
              ⟨text, directive, hText, hLeaf, rfl⟩
      · intro hLabels
        refine ⟨fun run hRun container hContainer => ?_, fun directive hLeaf => ?_⟩
        · refine (hContent run hRun container hContainer).2 ?_
          rintro label ⟨text, directive, hText, hLeaf, rfl⟩
          exact hLabels _ ⟨text, directive, .content hRun hContainer hText, hLeaf, rfl⟩
        · exact hLabels _ ⟨source, directive, .source, hLeaf, rfl⟩

end Directives

section Expansion

variable {label : Text → Text → List Node} {node : Node} {nodes : List Node}

theorem ofLabels_isPhrasing : Node.OfLabels Node.IsPhrasing Node.IsPhrasing where
  ofText := fun _ => Node.isPhrasing_of_childless rfl rfl
  directive := fun _ _ => Node.isPhrasing_iff_of_kind rfl

theorem ofLabels_holdsPhrasing :
    Node.OfLabels (Node.Everywhere Node.HoldsPhrasing) Node.IsPhrasing where
  ofText := fun value => by
    have hText : (Node.ofText value).IsPhrasing := Node.isPhrasing_of_childless rfl rfl
    exact hText.everywhere_holdsPhrasing
  directive := fun _ _ => Node.everywhere_holdsPhrasing_of_label (.inr rfl)

/-- A text node has no children, so it is phrasing content throughout. -/
theorem isPhrasing_of_text (h : node.Everywhere Node.IsShaped) (hText : node.kind = .text) :
    node.IsPhrasing := by
  obtain ⟨hHere, -⟩ := h
  have hChildless : node.kind.isChildless = true := by rw [hText]; rfl
  exact Node.isPhrasing_of_childless (by rw [hText]; rfl) (hHere.childless hChildless)

theorem Node.labels_eq (node : Node) : node.labels = allLabels node.children := by
  obtain ⟨_, _, _, _, _, _⟩ := node
  rfl

/-- Expansion keeps phrasing content exactly if the labels in it are read as such. -/
theorem isPhrasing_expandWith_iff (h : node.Everywhere Node.IsShaped) :
    (node.expandWith label).IsPhrasing ↔
      node.IsPhrasing ∧ ∀ entry ∈ node.labels, ∀ made ∈ label entry.1 entry.2, made.IsPhrasing := by
  induction h with
  | @intro node _ hBelow ih =>
      have hChildren := ofLabels_isPhrasing.forall_expandAll_iff
        (fun child hMem => isPhrasing_of_text (hBelow child hMem)) ih
      rw [Node.expandWith_eq, node.labels_eq, Node.IsPhrasing, Node.everywhere_iff, Node.IsPhrasing,
        Node.everywhere_iff, and_assoc]
      exact and_congr Iff.rfl hChildren

/-- Expanded nodes are phrasing content exactly if the nodes and the contents of all labels in their
text are. -/
theorem isPhrasing_expandAll_iff (h : ∀ node ∈ nodes, node.Everywhere Node.IsShaped) :
    (∀ made ∈ Node.expandAll label nodes, made.IsPhrasing) ↔
      (∀ node ∈ nodes, node.IsPhrasing) ∧
        ∀ entry ∈ Node.allLabels nodes, ∀ made ∈ label entry.1 entry.2, made.IsPhrasing :=
  ofLabels_isPhrasing.forall_expandAll_iff (fun child hMem => isPhrasing_of_text (h child hMem))
    fun child hMem => isPhrasing_expandWith_iff (h child hMem)

/-- After expansion directives hold phrasing content exactly if they did before and the labels in the
text are read as such. -/
theorem everywhere_expandWith_iff (h : node.Everywhere Node.IsShaped) :
    (node.expandWith label).Everywhere Node.HoldsPhrasing ↔
      node.Everywhere Node.HoldsPhrasing ∧
        ∀ entry ∈ node.labels, ∀ made ∈ label entry.1 entry.2, made.IsPhrasing := by
  induction h with
  | @intro node _ hBelow ih =>
      rw [Node.expandWith_eq, node.labels_eq]
      by_cases hLabel : node.kind = .leafDirective ∨ node.kind = .textDirective
      · have hExpanded : Node.Everywhere Node.HoldsPhrasing
              { node with children := Node.expandAll label node.children } ↔ _ :=
          Node.everywhere_holdsPhrasing_of_label hLabel
        rw [hExpanded, Node.everywhere_holdsPhrasing_of_label hLabel]
        exact isPhrasing_expandAll_iff hBelow
      · have hChildren := ofLabels_holdsPhrasing.forall_expandAll_iff (fun child hMem hText =>
          (isPhrasing_of_text (hBelow child hMem) hText).everywhere_holdsPhrasing) ih
        have hExpanded : Node.Everywhere Node.HoldsPhrasing
              { node with children := Node.expandAll label node.children } ↔ _ :=
          Node.everywhere_holdsPhrasing_iff (not_or.1 hLabel)
        rw [hExpanded, Node.everywhere_holdsPhrasing_iff (not_or.1 hLabel)]
        exact hChildren

/-- The labels of directives in the text of nodes, and in the content of such labels, however deep. -/
inductive TextLabel (gfm : Bool) : List Node → Text → Prop
  | here {nodes : List Node} {entry : Text × Text} (hEntry : entry ∈ Node.allLabels nodes) :
    TextLabel gfm nodes entry.2
  | within {nodes : List Node} {entry : Text × Text} {label : Text}
    (hEntry : entry ∈ Node.allLabels nodes)
    (hLabel : TextLabel gfm (inlineNodes gfm entry.2) label) : TextLabel gfm nodes label

/-- What holds of all labels holds of those in the text and of all labels in their contents. -/
theorem forall_textLabel_iff {gfm : Bool} {p : Text → Prop} :
    (∀ label, TextLabel gfm nodes label → p label) ↔
      ∀ entry ∈ Node.allLabels nodes,
        p entry.2 ∧ ∀ label, TextLabel gfm (inlineNodes gfm entry.2) label → p label := by
  constructor
  · exact fun h entry hEntry => ⟨h _ (.here hEntry), fun label hLabel => h _ (.within hEntry hLabel)⟩
  · intro h label hLabel
    cases hLabel with
    | here hEntry => exact (h _ hEntry).1
    | within hEntry hLabel => exact (h _ hEntry).2 label hLabel

/-- The content of a label is phrasing, with its own directives expanded, exactly if it and all labels
in it are running text. -/
theorem isPhrasing_expandedLabel_iff (gfm : Bool) {fuel : Nat} {label : Text}
    (h : label.countP (fun c => !isAsciiBlank c) < fuel) :
    (∀ made ∈ expandedLabel gfm fuel label, made.IsPhrasing) ↔
      RunsOn gfm label ∧ ∀ inner, TextLabel gfm (inlineNodes gfm label) inner → RunsOn gfm inner := by
  induction fuel generalizing label with
  | zero => exact absurd h (Nat.not_lt_zero _)
  | succ fuel ih =>
      have hFits := textFits_inlineOver (addsNoText_events gfm) label
      rw [← fragmentUpTo_eq] at hFits
      rw [expandedLabel, isPhrasing_expandAll_iff fun node hMem =>
        (isFlow_inlineNodes gfm label node hMem).shaped, forall_textLabel_iff]
      refine and_congr (isPhrasing_labelNodes_iff gfm _ label) ?_
      refine forall₂_congr fun entry hEntry => ih ?_
      have hCount := Node.countP_lt_of_mem_allLabels rfl hFits hEntry
      omega

/-- A label that is read in a source: that of a leaf directive, or of one in running text. -/
def ReadsLabel (gfm : Bool) (source label : Text) : Prop :=
  LeafLabel gfm source label ∨ TextLabel gfm (fragment gfm source) label

/-- What a label is read as is phrasing content exactly if Markdown finds no block in it but running text
and raw HTML: a heading, a list, a quote, code, a table or a thematic break stays as it is. So the
directives of a document hold phrasing content exactly if this is so of every label that is read in it,
those in the content of labels included. -/
theorem holdsPhrasing_parseDocument_iff (gfm : Bool) :
    (∀ label, (∀ node ∈ inlineNodes gfm label, node.IsPhrasing) ↔ RunsOn gfm label) ∧
      ∀ source, (parseDocument gfm source).Everywhere Node.HoldsPhrasing ↔
        ∀ label, ReadsLabel gfm source label → RunsOn gfm label := by
  refine ⟨fun label => isPhrasing_labelNodes_iff gfm _ label, fun source => ?_⟩
  have hRoot : Node.Everywhere Node.IsShaped { kind := .root, children := fragment gfm source } :=
    (Node.hasOwnShape_plain rfl (by decide) ∅ _).everywhere_isShaped rfl
      (isFlow_fragmentUpTo gfm _ source)
  have hLabels : (∀ entry ∈ Node.allLabels (fragment gfm source),
      ∀ made ∈ expandedLabel gfm entry.1.length entry.2, made.IsPhrasing) ↔
      ∀ label, TextLabel gfm (fragment gfm source) label → RunsOn gfm label := by
    rw [forall_textLabel_iff]
    refine forall₂_congr fun entry hEntry => isPhrasing_expandedLabel_iff gfm ?_
    have hRootLabels : entry ∈ Node.labels { kind := .root, children := fragment gfm source } :=
      hEntry
    have hShort := Node.length_lt_of_mem_labels hRootLabels
    have hCount := entry.2.countP_le_length (p := fun c => !isAsciiBlank c)
    omega
  have hKind : NodeKind.root ≠ .leafDirective ∧ NodeKind.root ≠ .textDirective := by decide
  rw [parseDocument, Node.expandDirectives, everywhere_expandWith_iff hRoot,
    Node.everywhere_holdsPhrasing_iff hKind, forall_fragment_holdsPhrasing_iff]
  refine (and_congr Iff.rfl hLabels).trans ?_
  simp only [ReadsLabel, or_imp, forall_and]

/-- The kinds of the nodes that stand directly in directives without block content. -/
def Node.labelKinds (node : Node) : List NodeKind :=
  ((node.preorder []).filter fun entry =>
    entry.2.kind = .leafDirective ∨ entry.2.kind = .textDirective).flatMap
      fun entry => entry.2.children.map Node.kind

/-- What stands directly in a directive without block content is of a phrasing kind. -/
theorem Node.isPhrasing_of_mem_labelKinds (h : node.Everywhere HoldsPhrasing) :
    ∀ kind ∈ node.labelKinds, kind.isPhrasing = true := by
  intro kind hMem
  obtain ⟨entry, hEntry, hMem⟩ := List.mem_flatMap.1 hMem
  obtain ⟨child, hChild, rfl⟩ := List.mem_map.1 hMem
  obtain ⟨hEntry, hLabel⟩ := List.mem_filter.1 hEntry
  obtain ⟨hKind, -⟩ := (everywhere_iff_preorder []).1 h entry hEntry (by simpa using hLabel) child hChild
  exact hKind

/-- A heading in the label of a leaf directive stays a heading, and a list in the label of a directive in
running text stays a list. -/
theorem not_holdsPhrasing_parseDocument_heading :
    ¬(∀ node ∈ inlineNodes true "# x".toList, node.IsPhrasing) ∧
      ¬(parseDocument true "::a[# x]\n".toList).Everywhere Node.HoldsPhrasing ∧
      ¬(parseDocument true ":a[- x]\n".toList).Everywhere Node.HoldsPhrasing := by
  have hLabel : (inlineNodes true "# x".toList).map Node.kind = [.heading] := by cbv
  have hLeaf : (parseDocument true "::a[# x]\n".toList).labelKinds = [.heading] := by cbv
  have hText : (parseDocument true ":a[- x]\n".toList).labelKinds = [.list] := by cbv
  refine ⟨fun h => ?_, fun h => ?_, fun h => ?_⟩
  · have hKind : NodeKind.heading ∈ (inlineNodes true "# x".toList).map Node.kind := by
      rw [hLabel]
      exact List.mem_singleton_self _
    obtain ⟨node, hMem, hHeading⟩ := List.mem_map.1 hKind
    obtain ⟨hHere, -⟩ := h node hMem
    rw [hHeading] at hHere
    cases hHere
  · have hKind := Node.isPhrasing_of_mem_labelKinds h .heading (by rw [hLeaf]; decide)
    cases hKind
  · have hKind := Node.isPhrasing_of_mem_labelKinds h .list (by rw [hText]; decide)
    cases hKind

end Expansion

end DirectiveMarkdown
