import Mathlib
import DirectiveMarkdown.Proofs.Document.OneParagraph
import DirectiveMarkdown.Proofs.Markdown.ReferenceText
import DirectiveMarkdown.Proofs.Section.RoundTrip
import DirectiveMarkdown.Proofs.Shape.Markdown

/-! References to links and containers. What stands between two directive lines is read as Markdown of
its own, so a link that is defined outside of a container is not known inside of it: its reference is a
link in a document without directives, and stays text once directive lines are put around it. -/
namespace DirectiveMarkdown

open Markdown

section Beginning

variable {value : Text} {node : Node}

/-- The node is a paragraph that begins with text, and this with the given text. -/
def Node.Begins (value : Text) (node : Node) : Prop :=
  ∃ more rest, node = { kind := .paragraph, children := .ofText (value ++ more) :: rest }

theorem Node.Begins.appendChild (h : node.Begins value) (child : Node) :
    (node.appendChild child).Begins value := by
  obtain ⟨more, rest, rfl⟩ := h
  exact ⟨more, rest ++ [child], rfl⟩

/-- More text leaves the beginning of the first text in place. -/
theorem Node.Begins.appendText (h : node.Begins value) (added : Text) :
    (node.appendText added).Begins value := by
  obtain ⟨more, rest, rfl⟩ := h
  rw [appendText_eq, if_neg (by decide : NodeKind.paragraph ≠ .code)]
  rcases List.eq_nil_or_concat rest with rfl | ⟨inner, last, rfl⟩
  · exact ⟨more ++ added, [], by simp [addText, Node.ofText]⟩
  · dsimp only
    rw [List.concat_eq_append, ← List.cons_append, addText_concat]
    split
    · exact ⟨more, _, rfl⟩
    · exact ⟨more, _, rfl⟩

theorem Node.Begins.appendHtml (h : node.Begins value) (added : Text) :
    (node.appendHtml added).Begins value := by
  obtain ⟨more, rest, rfl⟩ := h
  exact ⟨more, rest ++ [.ofHtml added], rfl⟩

/-- Events inside a paragraph leave its beginning as it is. -/
theorem Node.Begins.grown {reread : Tag → List Event → Option Node} {events : List Event}
    (hEvents : Nested false events) (h : node.Begins value) :
    (grown reread events node).Begins value := by
  generalize hItem : false = ofItem at hEvents
  induction hEvents generalizing node with
  | nil => exact h
  | @content _ event _ hEvent _ ih =>
      rw [grown_content hEvent]
      refine ih ?_ rfl
      cases event with
      | text added => exact h.appendText added
      | softBreak => exact h.appendText ['\n']
      | code value => exact h.appendChild _
      | html value => exact h.appendHtml value
      | hardBreak => exact h.appendChild _
      | thematicBreak => exact h.appendChild _
      | _ => cases hEvent
  | task => cases hItem
  | element _ hInner _ _ ihMore =>
      rw [grown_around hInner]
      exact ihMore (h.appendChild _) rfl

/-- A directive in a text comes after a part of the text without colon. -/
theorem InlineDirective.before_of_find? {previous : Option Char} {s : Text}
    {found : InlineDirective} (hColon : ':' ∉ value)
    (h : InlineDirective.find? previous (value ++ s) = some found) :
    ∃ more, found.before = value ++ more := by
  induction value generalizing previous found with
  | nil => exact ⟨found.before, rfl⟩
  | cons c value ih =>
      rw [List.mem_cons, not_or] at hColon
      rw [List.cons_append, find?, if_neg fun hStart => hColon.1 hStart.1.symm] at h
      obtain ⟨inner, hInner, hEq⟩ := Option.map_eq_some_iff.1 h
      obtain ⟨more, hMore⟩ := ih hColon.2 hInner
      refine ⟨more, ?_⟩
      rw [← hEq, hMore]
      rfl

/-- Expansion leaves the beginning of a paragraph as it is, if it holds no colon. -/
theorem Node.Begins.expandWith (label : Text → Text → List Node) (hColon : ':' ∉ value)
    (hNe : value ≠ []) (h : node.Begins value) : (node.expandWith label).Begins value := by
  obtain ⟨more, rest, rfl⟩ := h
  rw [Node.expandWith_eq, Node.expandAll]
  split
  · next hDirective =>
      obtain ⟨found, hFound⟩ := Option.isSome_iff_exists.1 hDirective.2
      obtain ⟨before, hBefore⟩ := InlineDirective.before_of_find? hColon hFound
      have hFound : InlineDirective.find? none (value ++ more) = some found := hFound
      have hPiece : textPiece (value ++ before) = [.ofText (value ++ before)] := by
        rw [textPiece, if_neg (by simp [hNe])]
      obtain ⟨less, hLength⟩ : ∃ less, (value ++ more).length = less + 1 :=
        Nat.exists_eq_succ_of_ne_zero (by simp [hNe])
      refine ⟨before, ?_⟩
      rw [show (Node.ofText (value ++ more)).value = value ++ more from rfl, hLength, splitTextUpTo,
        hFound]
      dsimp only
      rw [hBefore, hPiece]
      exact ⟨_, rfl⟩
  · exact ⟨more, _, rfl⟩

end Beginning

/-- A line is the label of a link, as it is read. -/
structure IsLinkLabel (label : Text) : Prop where
  oneLine : '\n' ∉ label ∧ '\r' ∉ label
  label : linkLabel? ('[' :: (label.map readCharacter ++ [']'])) = some (label.map readCharacter, [])

/-- A line is the destination of a link to the given URL, as it is read. -/
structure IsDestination (target url : Text) : Prop where
  oneLine : '\n' ∉ target ∧ '\r' ∉ target
  nonempty : target ≠ []
  target : linkDestination? (target.map readCharacter) = some (url, [])

/-- The line `[label]: target`, which defines a link. -/
def definitionLine (label target : Text) : Text := '[' :: (label ++ ']' :: ':' :: ' ' :: target)

section Lines

variable {label target url : Text}

/-- The sentence with the reference is a line of a paragraph, and is read with its label. -/
theorem IsLinkLabel.isTextLine_sentence (h : IsLinkLabel label) :
    IsTextLine (sentence label) ∧
      (sentence label).map readCharacter = sentence (label.map readCharacter) := by
  have hRead : (sentence label).map readCharacter = sentence (label.map readCharacter) := by
    simp [sentence, readCharacter]
  refine ⟨⟨?_, ?_, ?_⟩, hRead⟩
  · obtain ⟨hFeed, hReturn⟩ := h.oneLine
    simp [sentence, hFeed, hReturn]
  · rw [hRead]
    exact ⟨'S', _, rfl, by decide, by decide⟩
  · rw [hRead]
    exact endsNoNumber_of_head (by decide) (by decide) (by decide) _

/-- The definition starts as a line of a paragraph, and is read with its label and destination. -/
theorem isTextLine_definitionLine (hLabel : IsLinkLabel label) (hTarget : IsDestination target url) :
    IsTextLine (definitionLine label target) ∧
      (definitionLine label target).map readCharacter =
        definitionLine (label.map readCharacter) (target.map readCharacter) := by
  have hRead : (definitionLine label target).map readCharacter =
      definitionLine (label.map readCharacter) (target.map readCharacter) := by
    simp [definitionLine, readCharacter]
  refine ⟨⟨?_, ?_, ?_⟩, hRead⟩
  · obtain ⟨hFeed, hReturn⟩ := hLabel.oneLine
    obtain ⟨hTargetFeed, hTargetReturn⟩ := hTarget.oneLine
    simp [definitionLine, hFeed, hReturn, hTargetFeed, hTargetReturn]
  · rw [hRead]
    exact ⟨'[', _, rfl, by decide, by decide⟩
  · rw [hRead]
    exact endsNoNumber_of_head (by decide) (by decide) (by decide) _

/-- The definition that the line holds. -/
theorem leadingDefinitions_definitionLine (hLabel : IsLinkLabel label)
    (hTarget : IsDestination target url) :
    leadingDefinitions 1 ((definitionLine label target).map readCharacter) =
      ([(normalizeLabel (label.map readCharacter), ⟨url, []⟩)], []) := by
  have hNe : target.map readCharacter ≠ [] := by
    simpa using hTarget.nonempty
  rw [(isTextLine_definitionLine hLabel hTarget).2, leadingDefinitions, definitionLine,
    definition?_line hLabel.label hTarget.target hNe]
  rfl

/-- The sentence as a source is one paragraph, and no definition is known to it. -/
theorem structureOf_sentence (gfm : Bool) (h : IsLinkLabel label) :
    structureOf gfm (sentence label ++ ['\n']) =
      ([.paragraph (sentence (label.map readCharacter))], []) := by
  obtain ⟨hLine, hRead⟩ := h.isTextLine_sentence
  have hBracket : ((sentence label).map readCharacter).head? ≠ some '[' := by
    simp [sentence, readCharacter]
  rw [structureOf_line hLine hBracket (.inr rfl), hRead]

/-- With the definition after it, the same paragraph knows the link. -/
theorem structureOf_sentence_definition (gfm : Bool) (hLabel : IsLinkLabel label)
    (hTarget : IsDestination target url) :
    structureOf gfm (sentence label ++ '\n' :: '\n' :: (definitionLine label target ++ ['\n'])) =
      ([.paragraph (sentence (label.map readCharacter))],
        [(normalizeLabel (label.map readCharacter), ⟨url, []⟩)]) := by
  obtain ⟨hLine, hRead⟩ := hLabel.isTextLine_sentence
  have hBracket : ((sentence label).map readCharacter).head? ≠ some '[' := by
    simp [sentence, readCharacter]
  rw [structureOf_reference hLine hBracket (isTextLine_definitionLine hLabel hTarget).1
    (leadingDefinitions_definitionLine hLabel hTarget), hRead]

/-- Markdown takes the line for a definition and has no block in its place. -/
theorem structureOf_definitionLine (gfm : Bool) (hLabel : IsLinkLabel label)
    (hTarget : IsDestination target url) :
    structureOf gfm ('\n' :: (definitionLine label target ++ ['\n'])) =
      ([], [(normalizeLabel (label.map readCharacter), ⟨url, []⟩)]) :=
  structureOf_definition (isTextLine_definitionLine hLabel hTarget).1
    (leadingDefinitions_definitionLine hLabel hTarget)

end Lines

section Sections

variable {label target url name : Text}

/-- The lines of the sentence, and of the definition after a blank line. -/
theorem lines_sentence (h : IsLinkLabel label) (rest : Text) :
    Text.lines (sentence label ++ '\n' :: rest) = (sentence label ++ ['\n']) :: Text.lines rest :=
  Text.lines_append_newline h.isTextLine_sentence.1.oneLine.1 rest

theorem lines_definitionLine (hLabel : IsLinkLabel label) (hTarget : IsDestination target url) :
    Text.lines ('\n' :: (definitionLine label target ++ ['\n'])) =
      [['\n'], definitionLine label target ++ ['\n']] := by
  have hFeed := (isTextLine_definitionLine hLabel hTarget).1.oneLine.1
  rw [Text.lines, if_pos rfl, Text.lines_append_newline hFeed]
  rfl

/-- Markdown of ended lines that hold no directive and open no code. -/
theorem Section.isPlain_of_lines {source : Text} (hEnded : source.getLast? = some '\n')
    (h : ∀ line ∈ Text.lines source, BlockLine.read? line = none ∧ CodeFence.opening? line = none) :
    IsPlain source where
  ended := hEnded
  directives := scanLines_eq_none (fun line hMem => (h line hMem).1) {}
  fence := LineScanner.fence_after (fun line hMem => (h line hMem).2) rfl

/-- The sentence and what follows a blank line hold no directive and open no code. -/
theorem forall_mem_lines_sentence (h : IsLinkLabel label) :
    ∀ line ∈ Text.lines (sentence label ++ ['\n']),
      BlockLine.read? line = none ∧ CodeFence.opening? line = none := by
  rw [lines_sentence h]
  exact List.forall_mem_singleton.2 ⟨BlockLine.read?_of_head (by decide) (by decide) _, rfl⟩

/-- No line of the definition holds a directive or opens code. -/
theorem forall_mem_lines_definition (hLabel : IsLinkLabel label) (hTarget : IsDestination target url) :
    ∀ line ∈ Text.lines ('\n' :: (definitionLine label target ++ ['\n'])),
      BlockLine.read? line = none ∧ CodeFence.opening? line = none := by
  rw [lines_definitionLine hLabel hTarget]
  refine List.forall_mem_cons.2 ⟨⟨rfl, rfl⟩, List.forall_mem_singleton.2 ⟨?_, rfl⟩⟩
  exact BlockLine.read?_of_head (by decide) (by decide) _

/-- Without directive lines the sentence and the definition are one run of Markdown. -/
theorem split_sentence_definition (hLabel : IsLinkLabel label) (hTarget : IsDestination target url) :
    Section.split (sentence label ++ '\n' :: '\n' :: (definitionLine label target ++ ['\n'])) =
      [.markdown
        (sentence label ++ '\n' :: '\n' :: (definitionLine label target ++ ['\n']))] := by
  refine Section.split_eq_run rfl ?_
  rw [lines_sentence hLabel]
  refine List.forall_mem_cons.2 ⟨BlockLine.read?_of_head (by decide) (by decide) _, ?_⟩
  exact fun line hMem => (forall_mem_lines_definition hLabel hTarget line hMem).1

theorem split_sentence (h : IsLinkLabel label) :
    Section.split (sentence label ++ ['\n']) = [.markdown (sentence label ++ ['\n'])] :=
  Section.split_eq_run rfl fun line hMem => (forall_mem_lines_sentence h line hMem).1

/-- With directive lines around it, the sentence is the content of a container, and the definition a run
of its own. -/
theorem split_container (hName : isDirectiveName name = true) (hLabel : IsLinkLabel label)
    (hTarget : IsDestination target url) :
    Section.split (text ":::" ++ name ++ '\n' :: (sentence label ++ ['\n'] ++
        (text ":::" ++ '\n' :: '\n' :: (definitionLine label target ++ ['\n'])))) =
      [.container ⟨name, {}⟩ [.markdown (sentence label ++ ['\n'])],
        .markdown ('\n' :: (definitionLine label target ++ ['\n']))] := by
  have hArguments : Arguments.Printable {} := ⟨by decide, by decide, List.forall_mem_nil _, by decide⟩
  have hOpening : (BlockLine.opening 3 ⟨name, {}⟩).Printable := ⟨Nat.le_refl 3, hName, hArguments⟩
  have hClosing : (BlockLine.closing 3).Printable := Nat.le_refl 3
  have hPrint : text ":::" ++ name = (BlockLine.opening 3 ⟨name, {}⟩).print := by
    have hNone : DirectiveBody.print ⟨name, {}⟩ = name := List.append_nil name
    rw [BlockLine.print, hNone]
    rfl
  have hSentence : Section.IsPlain (sentence label ++ ['\n']) :=
    Section.isPlain_of_lines List.getLast?_concat (forall_mem_lines_sentence hLabel)
  have hDefinition : Section.IsPlain ('\n' :: (definitionLine label target ++ ['\n'])) :=
    Section.isPlain_of_lines
      (show (('\n' :: definitionLine label target) ++ ['\n']).getLast? = _ from List.getLast?_concat)
      (forall_mem_lines_definition hLabel hTarget)
  have hNeutral : (LineScanner.after {} (Text.lines (sentence label ++ ['\n']))).IsNeutral :=
    ⟨hSentence.fence, LineScanner.allPositive_after LineScanner.isNeutral_new.list _⟩
  have hRun := Section.resume_markdown hDefinition
    { OpenSection.document with
      content := [.container ⟨name, {}⟩ [.markdown (sentence label ++ ['\n'])]] } [] []
  rw [List.append_nil] at hRun
  have hResume : Section.resume {} ⟨.document, []⟩ (text ":::" ++ name ++ '\n' ::
      (sentence label ++ ['\n'] ++
        (text ":::" ++ '\n' :: '\n' :: (definitionLine label target ++ ['\n'])))) =
      ⟨{ OpenSection.document with
        content := [.container ⟨name, {}⟩ [.markdown (sentence label ++ ['\n'])]]
        pending := '\n' :: (definitionLine label target ++ ['\n']) }, []⟩ := by
    rw [hPrint, Section.resume_directive LineScanner.isNeutral_new hOpening]
    refine (Section.resume_markdown hSentence _ _ _).trans ?_
    refine (Section.resume_directive hNeutral hClosing _ _).trans ?_
    exact hRun
  exact congrArg OpenSections.finish hResume

end Sections

section Nodes

variable {gfm : Bool} {label target url name : Text}

/-- The label is read alike with the end of the sentence after it. -/
theorem IsLinkLabel.labelBody? (h : IsLinkLabel label) :
    Markdown.labelBody? (label.map readCharacter ++ [']', '.']) =
      some (label.map readCharacter, ['.']) :=
  labelBody?_of_linkLabel? h.label ['.']

/-- The label of a link stays on one line as it is read. -/
theorem IsLinkLabel.feed_not_mem (h : IsLinkLabel label) : '\n' ∉ label.map readCharacter :=
  fun hMem => h.oneLine.1 ((mem_map_readCharacter_iff (by decide) (by decide) label).1 hMem)

/-- Without a definition the sentence begins with text up to the opening bracket of the label. -/
theorem exists_fragment_sentence (gfm : Bool) (h : IsLinkLabel label) :
    ∃ node, fragment gfm (sentence label ++ ['\n']) = [node] ∧ node.Begins (text "See [") := by
  have hNone : Definitions.find? [] (label.map readCharacter) = none := rfl
  obtain ⟨more, hInlines⟩ := inlines_sentence_of_none gfm h.labelBody? h.feed_not_mem hNone
  refine ⟨_, (fragment_run (split_sentence h)).trans
    (markdownNodes_paragraph (structureOf_sentence gfm h) _), ?_⟩
  have hStart : Node.Begins (text "See [")
      { kind := .paragraph, children := [.ofText (text "See [")] } := ⟨[], [], rfl⟩
  have hEvents : Inline.allEvents ([.text ['S', 'e', 'e', ' '], .text ['[']] ++ more) =
      .text ['S', 'e', 'e', ' '] :: .text ['['] :: Inline.allEvents more := rfl
  rw [← hInlines, hEvents, grown_content rfl, grown_content rfl]
  exact hStart.grown (Inline.nested_allEvents more).1

def linkNode (url : Text) (content : List Node) : Node :=
  { ({ kind := .link : Node }.withAttribute (text "url") url) with children := content }

/-- The paragraph of a sentence in which the reference is a link. -/
theorem exists_grown_link (read : Text → List Node) (source url : Text) (inside : List Inline) :
    ∃ content, grown (reread? read source)
        (Inline.allEvents [.text ['S', 'e', 'e', ' '], .link url [] inside, .text ['.']])
        { kind := .paragraph } =
      { kind := .paragraph
        children := [.ofText (text "See "), linkNode url content, .ofText (text ".")] } := by
  have hEvents : Inline.allEvents [.text ['S', 'e', 'e', ' '], .link url [] inside, .text ['.']] =
      .text ['S', 'e', 'e', ' '] ::
        ((Tag.link url []).around (Inline.allEvents inside) ++ [.text ['.']]) := rfl
  have hNested : Nested (Tag.link url []).isItem (Inline.allEvents inside) :=
    (Inline.nested_allEvents inside).1
  have hGains : Node.Gains (Tag.link url []).node
      (grown (reread? read source) (Inline.allEvents inside) (Tag.link url []).node) :=
    Inline.gains_allEvents inside rfl
  refine ⟨(grown (reread? read source) (Inline.allEvents inside) (Tag.link url []).node).children, ?_⟩
  rw [hEvents, grown_content rfl, grown_around hNested, grown_content rfl,
    elementNode_of_not_isContainer rfl, Tag.finish_of_not_image rfl, hGains.eq]
  rfl

/-- With the definition the reference is a link. -/
theorem exists_fragment_sentence_definition (gfm : Bool) (hLabel : IsLinkLabel label)
    (hTarget : IsDestination target url) :
    ∃ content, fragment gfm
        (sentence label ++ '\n' :: '\n' :: (definitionLine label target ++ ['\n'])) =
      [{ kind := .paragraph
         children := [.ofText (text "See "), linkNode url content, .ofText (text ".")] }] := by
  have hFound : Definitions.find? [(normalizeLabel (label.map readCharacter), ⟨url, []⟩)]
      (label.map readCharacter) = some ⟨url, []⟩ := by
    rw [Definitions.find?, List.lookup_cons_self]
  obtain ⟨inside, hInlines⟩ :=
    inlines_sentence_of_some gfm hLabel.labelBody? hLabel.feed_not_mem hFound
  obtain ⟨content, hGrown⟩ := exists_grown_link (fragment gfm)
    (sentence label ++ '\n' :: '\n' :: (definitionLine label target ++ ['\n'])) url inside
  refine ⟨content, ?_⟩
  rw [fragment_run (split_sentence_definition hLabel hTarget),
    markdownNodes_paragraph (structureOf_sentence_definition gfm hLabel hTarget), hInlines, hGrown]

/-- The container holds what the sentence is read as, and nothing comes after it. -/
theorem fragment_container (gfm : Bool) (hName : isDirectiveName name = true)
    (hLabel : IsLinkLabel label) (hTarget : IsDestination target url) :
    fragment gfm (text ":::" ++ name ++ '\n' :: (sentence label ++ ['\n'] ++
        (text ":::" ++ '\n' :: '\n' :: (definitionLine label target ++ ['\n'])))) =
      [containerNode ⟨name, {}⟩ (fragment gfm (sentence label ++ ['\n']))] := by
  rw [fragment_eq, split_container hName hLabel hTarget, fragment_run (split_sentence hLabel)]
  simp only [Section.allNodes, Section.nodes, List.append_nil,
    markdownNodes_definitions (structureOf_definitionLine gfm hLabel hTarget)]

end Nodes

section Document

variable {label target url name : Text}

/-- Expansion of a paragraph with a link. -/
theorem exists_expandAll_link (expand : Text → Text → List Node) (url : Text) (content : List Node) :
    ∃ expanded, Node.expandAll expand
        [{ kind := .paragraph
           children := [.ofText (text "See "), linkNode url content, .ofText (text ".")] }] =
      [{ kind := .paragraph
         children := [.ofText (text "See "), linkNode url expanded, .ofText (text ".")] }] :=
  ⟨Node.expandAll expand content, rfl⟩

/-- A sentence with a reference and, after a blank line, the definition of its label are a paragraph with
a link. With directive lines around the sentence, the container holds what the sentence alone is read as,
and this begins with text up to the opening bracket of the label: the definition outside the container is
not known in it, and the reference is no link. -/
theorem parseDocument_reference (gfm : Bool) (hName : isDirectiveName name = true)
    (hLabel : IsLinkLabel label) (hTarget : IsDestination target url) :
    let sentence := text "See [" ++ label ++ text "].\n"
    let definition := text "[" ++ label ++ text "]: " ++ target ++ text "\n"
    (∃ content, parseDocument gfm (sentence ++ text "\n" ++ definition) =
      { kind := .root
        children := [{ kind := .paragraph
                       children := [.ofText (text "See "), linkNode url content,
                         .ofText (text ".")] }] }) ∧
    parseDocument gfm
        (text ":::" ++ name ++ text "\n" ++ sentence ++ text ":::\n" ++ text "\n" ++ definition) =
      { kind := .root
        children := [{ kind := .containerDirective
                       name := some name
                       children := (parseDocument gfm sentence).children }] } ∧
    ∃ more rest, (parseDocument gfm sentence).children =
      [{ kind := .paragraph, children := .ofText (text "See [" ++ more) :: rest }] := by
  intro sentence definition
  have hSentence : sentence = Markdown.sentence label ++ ['\n'] := by
    simp only [sentence, Markdown.sentence, List.append_assoc, List.cons_append]
    rfl
  have hDefinition : definition = definitionLine label target ++ ['\n'] := by
    simp only [definition, definitionLine, List.append_assoc, List.cons_append]
    rfl
  have hOpen : sentence ++ text "\n" ++ definition =
      Markdown.sentence label ++ '\n' :: '\n' :: (definitionLine label target ++ ['\n']) := by
    simp only [hSentence, hDefinition, List.append_assoc]
    rfl
  have hEnclosed : text ":::" ++ name ++ text "\n" ++ sentence ++ text ":::\n" ++ text "\n" ++
      definition = text ":::" ++ name ++ '\n' :: (Markdown.sentence label ++ ['\n'] ++
        (text ":::" ++ '\n' :: '\n' :: (definitionLine label target ++ ['\n']))) := by
    simp only [hSentence, hDefinition, List.append_assoc]
    rfl
  refine ⟨?_, ?_, ?_⟩
  · obtain ⟨content, hFragment⟩ := exists_fragment_sentence_definition gfm hLabel hTarget
    obtain ⟨expanded, hExpanded⟩ :=
      exists_expandAll_link (fun value => expandedLabel gfm value.length) url content
    refine ⟨expanded, ?_⟩
    rw [hOpen, parseDocument, Node.expandDirectives, Node.expandWith_eq, hFragment, hExpanded]
  · rw [hEnclosed, hSentence, parseDocument, fragment_container gfm hName hLabel hTarget]
    rfl
  · obtain ⟨node, hFragment, hBegins⟩ := exists_fragment_sentence gfm hLabel
    obtain ⟨more, rest, hExpanded⟩ := hBegins.expandWith (fun value => expandedLabel gfm value.length)
      (by decide) (by decide)
    have hNode : node.kind ≠ .text := by
      obtain ⟨_, _, rfl⟩ := hBegins
      exact (by decide : NodeKind.paragraph ≠ .text)
    refine ⟨more, rest, ?_⟩
    rw [hSentence, parseDocument, Node.expandDirectives, Node.expandWith_eq, hFragment, ← hExpanded,
      Node.expandAll_of_not_text (List.forall_mem_singleton.2 hNode)]
    rfl

/-- A label with code and emphasis, and a destination in angle brackets. -/
theorem parseDocument_reference_code :
    isDirectiveName (text "note") = true ∧ IsLinkLabel (text "a \x60b\x60 *c*") ∧
      IsDestination (text "<x y>") (text "x y") ∧
      (∃ content, parseDocument true (text "See [a \x60b\x60 *c*].\n\n[a \x60b\x60 *c*]: <x y>\n") =
        { kind := .root
          children := [{ kind := .paragraph
                         children := [.ofText (text "See "), linkNode (text "x y") content,
                           .ofText (text ".")] }] }) ∧
      parseDocument true (text ":::note\nSee [a \x60b\x60 *c*].\n:::\n\n[a \x60b\x60 *c*]: <x y>\n") =
        { kind := .root
          children := [{ kind := .containerDirective
                         name := some (text "note")
                         children :=
                           (parseDocument true (text "See [a \x60b\x60 *c*].\n")).children }] } := by
  have hName : isDirectiveName (text "note") = true := by decide
  have hLabel : IsLinkLabel (text "a \x60b\x60 *c*") := ⟨by decide, by decide⟩
  have hTarget : IsDestination (text "<x y>") (text "x y") := ⟨by decide, by decide, by decide⟩
  obtain ⟨hOpen, hContainer, -⟩ := parseDocument_reference true hName hLabel hTarget
  exact ⟨hName, hLabel, hTarget, hOpen, hContainer⟩

/-- A definition outside a container does not resolve a reference inside it. -/
theorem parseDocument_reference_unresolved :
    parseDocument true (text ":::n\nSee [l].\n:::\n\n[l]: u\n") =
        { kind := .root
          children := [{ kind := .containerDirective
                         name := some (text "n")
                         children := [{ kind := .paragraph
                                        children := [.ofText (text "See [l].")] }] }] } ∧
      ¬ ∀ name label target url : Text, isDirectiveName name = true → IsLinkLabel label →
        IsDestination target url → ∃ content,
          parseDocument true (text ":::" ++ name ++ text "\nSee [" ++ label ++ text "].\n:::\n\n[" ++
              label ++ text "]: " ++ target ++ text "\n") =
            { kind := .root
              children := [{ kind := .containerDirective
                             name := some name
                             children := [{ kind := .paragraph
                                            children := [.ofText (text "See "), linkNode url content,
                                              .ofText (text ".")] }] }] } := by
  have hDocument : parseDocument true (text ":::n\nSee [l].\n:::\n\n[l]: u\n") =
      { kind := .root
        children := [{ kind := .containerDirective
                       name := some (text "n")
                       children := [{ kind := .paragraph
                                      children := [.ofText (text "See [l].")] }] }] } := by
    cbv
  refine ⟨hDocument, ?_⟩
  intro hResolved
  obtain ⟨content, hLink⟩ := hResolved (text "n") (text "l") (text "u") (text "u") (by decide)
    ⟨by decide, by decide⟩ ⟨by decide, by decide, by decide⟩
  have hCount : 1 = 3 := congrArg
    (fun node => ((node.children.flatMap Node.children).flatMap Node.children).length)
    (hDocument.symm.trans hLink)
  cases hCount

end Document

end DirectiveMarkdown
