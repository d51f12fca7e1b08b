import DirectiveMarkdown.Proofs.Document.LabelHtml
import DirectiveMarkdown.Proofs.Document.TextBound
import DirectiveMarkdown.Proofs.Markdown.InkEvents

/-! How deep a document is read. Block quotes and list items hand what stands in them back to the reading
of sources, and directives in running text hand their labels back to the reading of inline content.
What is handed back is shorter, although it is rewritten on the way: markers are taken out of it, and a
label is text whose escapes and references are resolved already. So what would be read below a depth
that the length of the source bounds does not matter, because nothing is. This asks no more of the
parser for Markdown than that it makes no text longer. -/
namespace DirectiveMarkdown

open Markdown

/-- What stands for the levels below the deepest one that is read: the nodes of a source, and the
inline content of a label. -/
structure Floor where
  fragment : Text → List Node
  label : Text → List Node

def Floor.empty : Floor := ⟨fun _ => [], fun _ => []⟩

section Levels

variable (parse : Text → List Event)

/-- The nodes of a run of Markdown with the given parser, with `read` for the content of quotes and
items that may hold directives. -/
def markdownOver (read : Text → List Node) (source : Text) : List Node :=
  (assemble (reread? read source) 0 {} (parse source)).finish

variable (floor : Floor)

/-- The nodes of a source whose quotes and items are read again `depth` levels deep. -/
def fragmentOver : Nat → Text → List Node
  | 0, source => floor.fragment source
  | depth + 1, source =>
    Section.allNodes (markdownOver parse (fragmentOver depth)) (Section.split source)

/-- The inline content of a label whose own directives are expanded `depth` levels deep. In each label
quotes and items are read again at most as deep as it is long. -/
def labelOver : Nat → Text → List Node
  | 0, label => floor.label label
  | depth + 1, label =>
    Node.expandAll (fun _ => labelOver depth)
      (labelNodes (markdownOver parse (fragmentOver parse floor label.length)) label)

/-- The syntax tree of a document that is read `depth` levels deep. -/
def documentOver (depth : Nat) (source : Text) : Node :=
  { kind := .root, children := fragmentOver parse floor depth source : Node }.expandWith
    fun _ => labelOver parse floor depth

end Levels

section Fragments

variable {parse : Text → List Event}

/-- Only shorter texts than the run are read again, whatever the parser is. -/
theorem markdownOver_congr {read other : Text → List Node} {source : Text}
    (h : ∀ content : Text, content.length < source.length → read content = other content) :
    markdownOver parse read source = markdownOver parse other source := by
  rw [markdownOver, reread?_congr h, markdownOver]

/-- As deep as the source is long, nothing is left to be read. -/
theorem fragmentOver_congr (floor other : Floor) {depth more : Nat} {source : Text}
    (hDepth : source.length < depth) (hMore : source.length < more) :
    fragmentOver parse floor depth source = fragmentOver parse other more source := by
  induction depth generalizing more source with
  | zero => exact absurd hDepth (Nat.not_lt_zero _)
  | succ depth ih =>
      obtain ⟨more, rfl⟩ : ∃ fewer, more = fewer + 1 := ⟨more - 1, by omega⟩
      refine Section.allNodes_congr fun piece hPiece =>
        Section.nodes_congr ?_ (Section.within_split source piece hPiece)
      intro run hRun
      have hLength := hRun.length_le
      exact markdownOver_congr fun content hContent => ih (by omega) (by omega)

/-- In a label nothing is left to be read as deep as it is long. -/
theorem inlineOver_congr (floor other : Floor) (label : Text) :
    labelNodes (markdownOver parse (fragmentOver parse floor label.length)) label =
      labelNodes (markdownOver parse (fragmentOver parse other label.length)) label := by
  have hMarkdown : markdownOver parse (fragmentOver parse floor label.length) label =
      markdownOver parse (fragmentOver parse other label.length) label :=
    markdownOver_congr fun content hContent => fragmentOver_congr floor other hContent hContent
  rw [labelNodes, labelNodes, hMarkdown]

variable {counts : Char → Bool}

/-- The text nodes of a source have no more of the counted characters than the source. -/
theorem textFits_fragmentOver (hParse : AddsNoText counts parse) (depth : Nat) (source : Text) :
    ∀ node ∈ fragmentOver parse .empty depth source,
      node.Everywhere (Node.TextFits counts (source.countP counts)) := by
  induction depth generalizing source with
  | zero => exact List.forall_mem_nil _
  | succ depth ih =>
      intro node hMem
      obtain ⟨piece, hPiece, hNode⟩ := mem_allNodes hMem
      exact textFits_sectionNodes
        (fun run _ => textFits_finish_assemble (hParse run) fun content _ => ih content)
        (Section.within_split source piece hPiece) node hNode

/-- The text of a label's content fits into the label. -/
theorem textFits_inlineOver (hParse : AddsNoText counts parse) (label : Text) :
    ∀ node ∈ labelNodes (markdownOver parse (fragmentOver parse .empty label.length)) label,
      node.Everywhere (Node.TextFits counts (label.countP counts)) :=
  everywhere_labelNodes (textFits_finish_assemble (hParse label) fun content _ =>
    textFits_fragmentOver hParse _ content)

end Fragments

/-- Every directive in a text starts with a colon before its label. -/
theorem InlineDirective.label_sublist_of_mem_findAllUpTo {fuel : Nat} {previous : Option Char}
    {s : Text} {found : InlineDirective} (h : found ∈ findAllUpTo fuel previous s) :
    (':' :: found.body.arguments.label).Sublist s := by
  fun_induction findAllUpTo fuel previous s with
  | case1 => cases h
  | case2 => cases h
  | case3 fuel previous s first hFirst ih =>
      obtain ⟨-, hLabel, hAfter⟩ := find?_sublist hFirst
      rcases List.mem_cons.1 h with rfl | hMem
      · exact hLabel
      · exact (ih hMem).trans hAfter

/-- The pieces of a text depend on nothing but the content of the labels in it. -/
theorem splitTextUpTo_congr {label other : Text → List Node} {fuel : Nat} {previous : Option Char}
    {s : Text} (h : ∀ found ∈ InlineDirective.findAllUpTo fuel previous s,
      label found.body.arguments.label = other found.body.arguments.label) :
    splitTextUpTo label fuel previous s = splitTextUpTo other fuel previous s := by
  fun_induction InlineDirective.findAllUpTo fuel previous s with
  | case1 => rfl
  | case2 fuel previous s hNone => rw [splitTextUpTo, splitTextUpTo, hNone]
  | case3 fuel previous s found hFound ih =>
      obtain ⟨hHere, hRest⟩ := List.forall_mem_cons.1 h
      rw [splitTextUpTo, splitTextUpTo, hFound]
      dsimp only
      rw [ih hRest, directiveNode, directiveNode, hHere]

namespace Node

variable {label other : Text → Text → List Node} {p : Node → Prop}

mutual

/-- Expansion depends on nothing but the content of the labels in the tree. -/
theorem expandWith_congr (node : Node)
    (h : ∀ entry ∈ node.labels, label entry.1 entry.2 = other entry.1 entry.2) :
    node.expandWith label = node.expandWith other := by
  match node with
  | ⟨kind, name, attributes, metadata, children, value⟩ =>
      rw [expandWith, expandWith, expandAll_congr children h]

theorem expandAll_congr (nodes : List Node)
    (h : ∀ entry ∈ allLabels nodes, label entry.1 entry.2 = other entry.1 entry.2) :
    expandAll label nodes = expandAll other nodes := by
  match nodes with
  | [] => rfl
  | node :: rest =>
      rw [allLabels] at h
      obtain ⟨hNode, hRest⟩ := List.forall_mem_append.1 h
      rw [expandAll, expandAll, expandAll_congr rest hRest]
      congr 1
      split
      · next hText =>
          rw [if_pos hText] at hNode
          exact splitTextUpTo_congr (List.forall_mem_map.1 hNode)
      · next hText =>
          rw [if_neg hText] at hNode
          rw [expandWith_congr node hNode]

end

/-- A label of sibling nodes is one of a node below them, or stands in one of them that is text. -/
theorem mem_allLabels {nodes : List Node} {entry : Text × Text} (h : entry ∈ allLabels nodes) :
    ∃ node ∈ nodes, entry ∈ node.labels ∨
      node.kind = .text ∧ entry.1 = node.value ∧ (':' :: entry.2).Sublist node.value := by
  induction nodes with
  | nil => cases h
  | cons node rest ih =>
      rcases List.mem_append.1 h with h | h
      · refine ⟨node, List.mem_cons_self .., ?_⟩
        split at h
        · next hText =>
            obtain ⟨found, hFound, rfl⟩ := List.mem_map.1 h
            exact .inr ⟨hText.1, rfl, InlineDirective.label_sublist_of_mem_findAllUpTo hFound⟩
        · exact .inl h
      · obtain ⟨other, hOther, hEntry⟩ := ih h
        exact ⟨other, List.mem_cons_of_mem _ hOther, hEntry⟩

/-- A label stands in the text node that it is found in, after a colon. -/
theorem exists_of_mem_labels {node : Node} (hNode : node.Everywhere p) {entry : Text × Text}
    (h : entry ∈ node.labels) :
    ∃ other, p other ∧ other.kind = .text ∧ entry.1 = other.value ∧
      (':' :: entry.2).Sublist entry.1 := by
  induction hNode with
  | @intro node _ hBelow ih =>
      obtain ⟨kind, name, attributes, metadata, children, value⟩ := node
      obtain ⟨child, hChild, hEntry | ⟨hText, hValue, hLabel⟩⟩ := mem_allLabels h
      · exact ih child hChild hEntry
      · obtain ⟨hHere, -⟩ := hBelow child hChild
        exact ⟨child, hHere, hText, hValue, hValue ▸ hLabel⟩

theorem everywhere_true (node : Node) : node.Everywhere fun _ => True := by
  induction node using inductionOnChildren with
  | step node ih => exact .intro trivial ih

/-- A label is shorter than the text node that it is found in. -/
theorem length_lt_of_mem_labels {node : Node} {entry : Text × Text} (h : entry ∈ node.labels) :
    entry.2.length < entry.1.length := by
  obtain ⟨-, -, -, -, hLabel⟩ := exists_of_mem_labels node.everywhere_true h
  exact hLabel.length_le

/-- A label in text nodes that fit has fewer of the counted characters, if colons count. -/
theorem countP_lt_of_mem_allLabels {counts : Char → Bool} (hColon : counts ':' = true) {bound : Nat}
    {nodes : List Node} (hNodes : ∀ node ∈ nodes, node.Everywhere (TextFits counts bound))
    {entry : Text × Text} (h : entry ∈ allLabels nodes) : entry.2.countP counts < bound := by
  have hRoot : Everywhere (TextFits counts bound) { kind := .root, children := nodes } :=
    everywhere_textFits_of_kind (by decide : NodeKind.root ≠ .text) hNodes
  obtain ⟨other, hFits, hText, hValue, hLabel⟩ := exists_of_mem_labels hRoot h
  have hCount := hLabel.countP_le (p := counts)
  rw [List.countP_cons_of_pos hColon, hValue] at hCount
  exact Nat.lt_of_lt_of_le hCount (hFits hText)

end Node

section Labels

variable {parse : Text → List Event} {counts : Char → Bool}

/-- As deep as a label has counted characters, no label is left in it. -/
theorem labelOver_congr (hColon : counts ':' = true) (hParse : AddsNoText counts parse)
    (floor other : Floor) {depth more : Nat} {label : Text} (hDepth : label.countP counts < depth)
    (hMore : label.countP counts < more) :
    labelOver parse floor depth label = labelOver parse other more label := by
  induction depth generalizing more label with
  | zero => exact absurd hDepth (Nat.not_lt_zero _)
  | succ depth ih =>
      obtain ⟨more, rfl⟩ : ∃ fewer, more = fewer + 1 := ⟨more - 1, by omega⟩
      rw [labelOver, labelOver, inlineOver_congr floor .empty, inlineOver_congr other .empty]
      refine Node.expandAll_congr _ fun entry hEntry => ?_
      have hCount := Node.countP_lt_of_mem_allLabels hColon (textFits_inlineOver hParse label) hEntry
      exact ih (by omega) (by omega)

/-- As deep as a document is long, nothing is left to be read. -/
theorem documentOver_congr (hColon : counts ':' = true) (hParse : AddsNoText counts parse)
    (floor other : Floor) {depth more : Nat} {source : Text} (hDepth : source.length < depth)
    (hMore : source.length < more) :
    documentOver parse floor depth source = documentOver parse other more source := by
  rw [documentOver, documentOver, fragmentOver_congr floor .empty hDepth hDepth,
    fragmentOver_congr other .empty hMore hDepth]
  refine Node.expandWith_congr _ fun entry hEntry => ?_
  have hCount := Node.countP_lt_of_mem_allLabels hColon (textFits_fragmentOver hParse depth source)
    hEntry
  have hLength := source.countP_le_length (p := counts)
  exact labelOver_congr hColon hParse floor other (by omega) (by omega)

end Labels

section Model

variable (gfm : Bool)

/-- Markdown adds no ink to the source. -/
theorem addsNoText_events : AddsNoText (fun c => !isAsciiBlank c) (events gfm) := by
  have hInk : ∀ events : List Event,
      (events.flatMap Event.written).countP (fun c => !isAsciiBlank c) = total Event.ink events := by
    intro events
    induction events with
    | nil => rfl
    | cons event rest ih =>
        rw [List.flatMap_cons, List.countP_append, ih, total_cons]
        cases event <;> rfl
  intro source
  rw [hInk]
  exact total_events_le gfm source

/-- Reading with fuel is reading to that depth, with nothing below. -/
theorem fragmentUpTo_eq (fuel : Nat) :
    fragmentUpTo gfm fuel = fragmentOver (events gfm) .empty fuel := by
  induction fuel with
  | zero => rfl
  | succ fuel ih =>
      funext source
      rw [fragmentUpTo, ih]
      rfl

/-- Expanding labels with fuel is expanding them to that depth, with nothing below. -/
theorem expandedLabel_eq (fuel : Nat) :
    expandedLabel gfm fuel = labelOver (events gfm) .empty fuel := by
  induction fuel with
  | zero => rfl
  | succ fuel ih =>
      funext label
      rw [expandedLabel, inlineNodes, fragmentUpTo_eq, ih]
      rfl

/-- Reading a document as deep as it is long is reading it. -/
theorem documentOver_events (floor : Floor) {depth : Nat} {source : Text}
    (hDepth : source.length < depth) :
    documentOver (events gfm) floor depth source = parseDocument gfm source := by
  rw [parseDocument, Node.expandDirectives, fragment, fragmentUpTo_eq, documentOver,
    fragmentOver_congr floor .empty hDepth (Nat.lt_succ_self _)]
  refine Node.expandWith_congr _ fun entry hEntry => ?_
  have hParse := addsNoText_events gfm
  have hCount := Node.countP_lt_of_mem_allLabels rfl (textFits_fragmentOver hParse _ source) hEntry
  have hLength := source.countP_le_length (p := fun c => !isAsciiBlank c)
  have hShort := Node.length_lt_of_mem_labels hEntry
  have hLabel := entry.2.countP_le_length (p := fun c => !isAsciiBlank c)
  rw [expandedLabel_eq]
  exact labelOver_congr rfl hParse floor .empty (by omega) (by omega)

end Model

/-- Reading a document ends, however it is nested. A container is read again only from a text that is
shorter than what was written of it, for an item from the start of its first line on, and expansion
reads only labels that are shorter than the text nodes they are found in. So with any parser for Markdown that makes no text longer, where it may be
that only some characters are counted, both kinds of nesting are less deep than the source is long:
what would be read below that depth makes no difference. Ranges that a parser reports play no part in
this, since one that leaves the source is cut off at its end. The document is what is read in this way
with the parser that there is. -/
theorem parseDocument_bounded_depth :
    (∀ (run : Text) (tag : Tag) (inner : List Event),
      (∀ read, reread? read run tag inner = none) ∨
        ∃ (span : Span) (content : Text),
          (tag = .quote span ∧ content.length < (span.slice run).length ∨
            tag = .item span ∧ content.length < (span.sliceLines run).length) ∧
          ∀ read, reread? read run tag inner = some (rereadNode tag inner (read content))) ∧
    (∀ node : Node, (∀ entry ∈ node.labels, entry.2.length < entry.1.length) ∧
      ∀ label other : Text → Text → List Node,
        (∀ entry ∈ node.labels, label entry.1 entry.2 = other entry.1 entry.2) →
          node.expandWith label = node.expandWith other) ∧
    (∀ (counts : Char → Bool) (parse : Text → List Event), counts ':' = true →
      AddsNoText counts parse → ∀ (floor other : Floor) (depth more : Nat) (source : Text),
        source.length < depth → source.length < more →
          documentOver parse floor depth source = documentOver parse other more source) ∧
    ∀ (gfm : Bool) (floor : Floor) (depth : Nat) (source : Text), source.length < depth →
      documentOver (events gfm) floor depth source = parseDocument gfm source := by
  refine ⟨fun run tag inner => ?_, fun node => ?_, ?_, ?_⟩
  · cases hContent : rereadContent? run tag inner with
    | none =>
        refine .inl fun read => ?_
        rw [reread?_eq, hContent, Option.map_none]
    | some content =>
        obtain ⟨span, written, hWritten, -, -, hLength⟩ := rereadContent?_slice hContent
        refine .inr ⟨span, content, ?_, fun read => ?_⟩
        · rcases hWritten with ⟨hTag, rfl⟩ | ⟨hTag, rfl⟩
          · exact .inl ⟨hTag, hLength⟩
          · exact .inr ⟨hTag, hLength⟩
        · rw [reread?_eq, hContent, Option.map_some]
  · exact ⟨fun entry hEntry => Node.length_lt_of_mem_labels hEntry,
      fun label other h => node.expandWith_congr h⟩
  · intro counts parse hColon hParse floor other depth more source hDepth hMore
    exact documentOver_congr hColon hParse floor other hDepth hMore
  · intro gfm floor depth source hDepth
    exact documentOver_events gfm floor hDepth

/-- A quote with a directive is read again, and the labels in it, one inside the other, are read at
fewer levels than it has characters, whatever stands for the levels below. -/
theorem parseDocument_bounded_depth_nested :
    (∃ content : Text, content.length < 16 ∧ ∀ read,
      reread? read (text "> :a[:b[c]] ::d\n") (.quote ⟨0, 16⟩) [] =
        some (rereadNode (.quote ⟨0, 16⟩) [] (read content))) ∧
    ∀ floor : Floor,
      documentOver (events true) floor 20 (text "> :a[:b[c]] ::d\n") =
          documentOver (events true) .empty 17 (text "> :a[:b[c]] ::d\n") ∧
        documentOver (events true) floor 20 (text "> :a[:b[c]] ::d\n") =
          parseDocument true (text "> :a[:b[c]] ::d\n") := by
  obtain ⟨hReread, -, hDepth, hDocument⟩ := parseDocument_bounded_depth
  refine ⟨?_, fun floor => ⟨?_, hDocument true floor 20 _ (by decide)⟩⟩
  · rcases hReread (text "> :a[:b[c]] ::d\n") (.quote ⟨0, 16⟩) [] with hNone | hSome
    · have hRead := hNone fun _ => []
      exact absurd hRead (by decide)
    · obtain ⟨span, content, ⟨hTag, hLength⟩ | ⟨hTag, -⟩, hRead⟩ := hSome
      · cases hTag
        exact ⟨content, hLength, hRead⟩
      · cases hTag
  · exact hDepth (fun c => !isAsciiBlank c) (events true) rfl (addsNoText_events true) floor .empty
      20 17 _ (by decide) (by decide)

end DirectiveMarkdown
