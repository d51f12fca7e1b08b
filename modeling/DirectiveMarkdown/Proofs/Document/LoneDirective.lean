import DirectiveMarkdown.Proofs.Directive.Printing
import DirectiveMarkdown.Proofs.Document.Backslash
import DirectiveMarkdown.Proofs.Document.LabelContent
import DirectiveMarkdown.Proofs.Document.OneParagraph
import DirectiveMarkdown.Proofs.Document.Phrasing
import DirectiveMarkdown.Proofs.Markdown.Unmarked
import DirectiveMarkdown.Proofs.Section.Scanner

/-! Documents that are one directive with a label. On a line of its own the label is cut out of the
source. In running text it is cut out of what Markdown has made of the line. If this is text alone, both
labels are read alike. Anything else that Markdown finds in the label leaves no text node that holds the
whole directive. -/
namespace DirectiveMarkdown

open Markdown

section Leaf

variable {name label ending : Text}

/-- A line with a leaf directive is divided into this directive. -/
theorem Section.split_leaf {directive : DirectiveBody} (h : directive.Printable)
    (hEnding : ending = [] ∨ ending = ['\n']) :
    split (text "::" ++ directive.print ++ ending) = [.leaf directive] := by
  have hBlank : Text.isBlankText ending = true := by
    rcases hEnding with rfl | rfl <;> rfl
  have hRead : BlockLine.read? (':' :: ':' :: (directive.print ++ ending)) = some (.leaf directive) :=
    (BlockLine.read?_directive (Nat.le_refl 2) h hBlank).trans (if_pos rfl)
  have hFeed : '\n' ∉ text "::" ++ directive.print := by
    rw [List.mem_append, not_or]
    exact ⟨by decide, h.newline_not_mem⟩
  have hLines : Text.lines (text "::" ++ directive.print ++ ending) =
      [text "::" ++ directive.print ++ ending] := by
    rcases hEnding with rfl | rfl
    · rw [List.append_nil]
      exact Text.lines_of_newline_not_mem (List.cons_ne_nil _ _) hFeed
    · exact Text.lines_append_newline hFeed []
  have hScan : scanLines {} [text "::" ++ directive.print ++ ending] =
      [(some (.leaf directive), text "::" ++ directive.print ++ ending)] := by
    have hNext := LineScanner.isNeutral_new.next hRead
    exact congrArg (fun result => [(result.1, text "::" ++ directive.print ++ ending)]) hNext
  rw [split, hLines, hScan]
  rfl

/-- The leaf holds the content of the label. -/
theorem parseDocument_leaf (gfm : Bool) (hName : isDirectiveName name = true)
    (hLabel : IsInlineLabel label) (hEnding : ending = [] ∨ ending = ['\n']) :
    parseDocument gfm (text "::" ++ (DirectiveBody.labelled name label).print ++ ending) =
      { kind := .root
        children := [{ kind := .leafDirective
                       name := some name
                       children := labelContent gfm label }] } := by
  have hPrintable := DirectiveBody.printable_labelled hName (hLabel.not_mem (by decide))
    (hLabel.not_mem (by decide)) (hLabel.not_mem (by decide))
  have hContent (read : Text → List Node) :
      labelNodes (markdownNodes gfm read) label = inlineNodes gfm label := by
    rw [← inlineNodes_readCharacter gfm hLabel, inlineNodes, labelNodes, labelNodes, List.isEmpty_map,
      markdownNodes_readCharacter gfm (hLabel.not_mem (by decide))]
  have hFragment : fragment gfm (text "::" ++ (DirectiveBody.labelled name label).print ++ ending) =
      [{ kind := .leafDirective, name := some name, children := inlineNodes gfm label }] := by
    rw [fragment_eq, Section.split_leaf hPrintable hEnding, ← hContent (fragment gfm)]
    rfl
  rw [parseDocument, hFragment]
  rfl

end Leaf

section Line

variable {name label ending : Text}

structure IsAsciiName (name : Text) : Prop where
  nonempty : name ≠ []
  letters : ∀ c ∈ name, c.isAlpha = true

/-- ASCII letters make a proper name. -/
theorem IsAsciiName.isDirectiveName (h : IsAsciiName name) : isDirectiveName name = true := by
  have hLetter : ∀ c ∈ name, isLetter c = true := by
    intro c hMem
    have hRange := toNat_of_isAlpha (h.letters c hMem)
    rw [isLetter, if_pos (by omega)]
    exact h.letters c hMem
  obtain ⟨c, rest, rfl⟩ := List.exists_cons_of_ne_nil h.nonempty
  rw [DirectiveMarkdown.isDirectiveName, List.head?_cons, Option.map_some, Option.getD_some,
    hLetter c (List.mem_cons_self ..), Bool.true_and, List.all_eq_true]
  intro d hMem
  rw [isWordChar, hLetter d hMem]
  rfl

theorem IsAsciiName.not_mem (h : IsAsciiName name) {c : Char} (hChar : c.isAlpha = false) :
    c ∉ name := by
  intro hMem
  rw [h.letters c hMem] at hChar
  cases hChar

def directiveLine (name label : Text) : Text := ':' :: (DirectiveBody.labelled name label).print

theorem directiveLine_eq (hLabel : IsInlineLabel label) :
    directiveLine name label = ':' :: (name ++ '[' :: (label ++ [']'])) := by
  rw [directiveLine, DirectiveBody.print_labelled hLabel.nonempty]

/-- The line is the text of a paragraph. -/
theorem isTextLine_directiveLine (hName : IsAsciiName name) (hLabel : IsInlineLabel label) :
    IsTextLine (directiveLine name label) ∧
      (directiveLine name label).map readCharacter = directiveLine name (label.map readCharacter) := by
  have hRead : (directiveLine name label).map readCharacter =
      directiveLine name (label.map readCharacter) := by
    rw [directiveLine_eq hLabel, directiveLine_eq hLabel.read]
    simp [readCharacter, map_readCharacter_eq (hName.not_mem (c := '\x00') rfl)]
  refine ⟨⟨?_, ?_, ?_⟩, hRead⟩
  · have hFeed := hName.not_mem (c := '\n') rfl
    have hReturn := hName.not_mem (c := '\r') rfl
    simp [directiveLine_eq hLabel, hFeed, hReturn, hLabel.not_mem]
  · rw [hRead]
    exact ⟨':', _, rfl, by decide, by decide⟩
  · rw [hRead]
    exact endsNoNumber_of_head (by decide) (by decide) (by decide) _

/-- The line is one run of Markdown. -/
theorem Section.split_directiveLine (hName : IsAsciiName name) (hLabel : IsInlineLabel label)
    (hEnding : ending = [] ∨ ending = ['\n']) :
    split (directiveLine name label ++ ending) = [.markdown (directiveLine name label ++ ending)] := by
  refine split_line (isTextLine_directiveLine hName hLabel).1.oneLine.1 rfl hEnding ?_
  obtain ⟨c, rest, rfl⟩ := List.exists_cons_of_ne_nil hName.nonempty
  have hColon : c ≠ ':' := by
    rintro rfl
    exact hName.not_mem rfl (List.mem_cons_self ..)
  exact BlockLine.read?_of_colon hColon _

/-- The line is one paragraph. -/
theorem structureOf_directiveLine (gfm : Bool) (hName : IsAsciiName name) (hLabel : IsInlineLabel label)
    (hEnding : ending = [] ∨ ending = ['\n']) :
    structureOf gfm (directiveLine name label ++ ending) =
      ([.paragraph (directiveLine name (label.map readCharacter))], []) := by
  obtain ⟨hLine, hRead⟩ := isTextLine_directiveLine hName hLabel
  have hBracket : ((directiveLine name label).map readCharacter).head? ≠ some '[' := by
    rw [hRead]
    exact fun hHead => absurd (Option.some.inj hHead) (by decide)
  rw [structureOf_line hLine hBracket hEnding, hRead]

/-- In a label without marks Markdown finds nothing but text. -/
theorem fragment_directiveLine (gfm : Bool) (hName : IsAsciiName name) (hLabel : IsInlineLabel label)
    (hPlain : ∀ c ∈ label, c ∉ text "\\\x60<&*_~") (hEnding : ending = [] ∨ ending = ['\n']) :
    fragment gfm (directiveLine name label ++ ending) =
      [{ kind := .paragraph
         children := [.ofText (directiveLine name (label.map readCharacter))] }] := by
  have hUnmarked : IsUnmarked (':' :: (name ++ '[' :: label.map readCharacter)) := by
    intro c hMem hSpecial
    rcases List.mem_cons.1 hMem with rfl | hMem
    · cases hSpecial
    · rcases List.mem_append.1 hMem with hMem | hMem
      · have hLetter : isSpecial c = false :=
          isSpecial_eq_false (p := Char.isAlpha) rfl (hName.letters c hMem)
        rw [hLetter] at hSpecial
        cases hSpecial
      · rcases List.mem_cons.1 hMem with rfl | hMem
        · exact .inr rfl
        · rw [isSpecial_iff] at hSpecial
          have hKept : c ≠ '\x00' ∧ c ≠ '\ufffd' := by
            constructor <;> rintro rfl <;> exact absurd hSpecial (by decide)
          have hRead : c ∈ label := (mem_map_readCharacter_iff hKept.1 hKept.2 label).1 hMem
          have hMarks := hPlain c hRead
          have hOther := hLabel.plain c hRead
          simp only [List.mem_cons, List.not_mem_nil, or_false, not_or] at hSpecial hOther
          simp [text, not_or] at hMarks
          tauto
  have hLine : ':' :: (name ++ '[' :: label.map readCharacter) ++ [']'] =
      directiveLine name (label.map readCharacter) := by
    rw [directiveLine_eq hLabel.read]
    simp
  obtain ⟨values, hValues, hInlines⟩ := inlines_unmarked gfm hUnmarked (by rintro c ⟨⟩; rfl)
  rw [hLine] at hValues hInlines
  have hNe : values ≠ [] := by
    rintro rfl
    cases hValues
  rw [fragment_run (Section.split_directiveLine hName hLabel hEnding),
    markdownNodes_texts (structureOf_directiveLine gfm hName hLabel hEnding) hInlines hNe, hValues]

end Line

section Text

variable {gfm : Bool} {name label : Text}

/-- A text node that is a directive is expanded to it. -/
theorem splitTextUpTo_directiveLine (hName : IsAsciiName name) (hLabel : IsInlineLabel label)
    (content : Text → List Node) (fuel : Nat) :
    splitTextUpTo content (fuel + 1) none (directiveLine name label) =
      [{ kind := .textDirective, name := some name, children := content label }] := by
  have hPrintable := DirectiveBody.printable_labelled hName.isDirectiveName (hLabel.not_mem (by decide))
    (hLabel.not_mem (by decide)) (hLabel.not_mem (by decide))
  have hLetter : ∃ c ∈ name.head?, c.isAlpha = true := by
    obtain ⟨c, rest, rfl⟩ := List.exists_cons_of_ne_nil hName.nonempty
    exact ⟨c, rfl, hName.letters c (List.mem_cons_self ..)⟩
  have hMore : (DirectiveBody.labelled name label).print ≠ name := by
    rw [DirectiveBody.print_labelled hLabel.nonempty]
    simp
  have hFound : InlineDirective.find? none (directiveLine name label) = _ :=
    InlineDirective.find?_print hPrintable hLetter hMore rfl
  rw [splitTextUpTo, hFound]
  cases fuel <;> rfl

/-- If Markdown leaves the line as it is, it becomes the directive, with the content of its label. -/
theorem parseDocument_of_text {source : Text} (hName : IsAsciiName name) (hLabel : IsInlineLabel label)
    (hText : fragment gfm source = [{ kind := .paragraph
                                      children := [.ofText (directiveLine name label)] }]) :
    parseDocument gfm source =
      { kind := .root
        children := [{ kind := .paragraph
                       children := [{ kind := .textDirective
                                      name := some name
                                      children := labelContent gfm label }] }] } := by
  have hLength : label.length ≤ (DirectiveBody.labelled name label).print.length := by
    rw [DirectiveBody.print_labelled hLabel.nonempty]
    simp only [List.length_append, List.length_cons]
    omega
  have hChildren : Node.expandAll (fun value => expandedLabel gfm value.length)
      [.ofText (directiveLine name label)] =
      [{ kind := .textDirective, name := some name, children := labelContent gfm label }] := by
    have hNe : directiveLine name label ≠ [] := List.cons_ne_nil _ _
    rw [expandAll_ofText _ hNe, ← expandedLabel_eq_labelContent gfm hLength]
    exact splitTextUpTo_directiveLine hName hLabel _ _
  rw [parseDocument, hText, ← hChildren]
  rfl

end Text

section Single

variable {nodes : List Node} {label : Text → Text → List Node}

/-- The node is no directive in running text, and if it is text, it is nothing else. -/
def Node.IsBare (node : Node) : Prop :=
  node.kind ≠ .textDirective ∧ (node.kind = .text → node = .ofText node.value)

/-- Nodes of other kinds than text and text directives are bare. -/
theorem Node.isBare_of_kind {node : Node} (hDirective : node.kind ≠ .textDirective)
    (hText : node.kind ≠ .text) : node.IsBare :=
  ⟨hDirective, fun hEq => absurd hEq hText⟩

theorem Node.isBare_ofText (value : Text) : (ofText value).IsBare :=
  ⟨(by decide : NodeKind.text ≠ .textDirective), fun _ => rfl⟩

theorem Node.forall_appendChild_isBare {node child : Node} (h : ∀ child ∈ node.children, child.IsBare)
    (hChild : child.IsBare) : ∀ other ∈ (node.appendChild child).children, other.IsBare :=
  List.forall_mem_append.2 ⟨h, List.forall_mem_singleton.2 hChild⟩

theorem Node.forall_appendText_isBare {node : Node} (h : ∀ child ∈ node.children, child.IsBare)
    (value : Text) : ∀ other ∈ (node.appendText value).children, other.IsBare := by
  rw [Node.appendText_eq]
  split
  · exact h
  · dsimp only
    rcases List.eq_nil_or_concat node.children with hNil | ⟨before, last, hConcat⟩
    · rw [hNil]
      exact List.forall_mem_singleton.2 (isBare_ofText value)
    · rw [hConcat, List.concat_eq_append] at h ⊢
      obtain ⟨hBefore, hLast⟩ := List.forall_mem_append.1 h
      rw [Node.addText_concat]
      split
      · next hText =>
          rw [(List.forall_mem_singleton.1 hLast).2 hText]
          exact List.forall_mem_append.2 ⟨hBefore, List.forall_mem_singleton.2 (isBare_ofText _)⟩
      · exact List.forall_mem_append.2 ⟨h, List.forall_mem_singleton.2 (isBare_ofText value)⟩

/-- What Markdown adds to a node is bare. -/
theorem forall_grown_isBare {read : Text → List Node} {source : Text} {events : List Event}
    (hEvents : Nested false events) {node : Node} (h : ∀ child ∈ node.children, child.IsBare) :
    ∀ child ∈ (grown (reread? read source) events node).children, child.IsBare := by
  generalize hItem : false = ofItem at hEvents
  have hPlain {node child : Node} (hNode : ∀ child ∈ node.children, child.IsBare) (kind : NodeKind)
      (hKind : child.kind = kind) (hOther : kind ∉ [.textDirective, .text]) :
      ∀ other ∈ (node.appendChild child).children, other.IsBare := by
    rw [List.mem_cons, List.mem_singleton, not_or] at hOther
    exact Node.forall_appendChild_isBare hNode
      (Node.isBare_of_kind (hKind ▸ hOther.1) (hKind ▸ hOther.2))
  induction hEvents generalizing node with
  | nil => exact h
  | @content _ event _ hEvent _ ih =>
      rw [grown_content hEvent]
      refine ih ?_ rfl
      cases event with
      | text value => exact Node.forall_appendText_isBare h value
      | softBreak => exact Node.forall_appendText_isBare h ['\n']
      | code value => exact hPlain h .inlineCode rfl (by decide)
      | html value =>
          rw [Event.grow, Node.appendHtml]
          split
          · exact h
          · exact hPlain h .html rfl (by decide)
      | hardBreak => exact hPlain h .break rfl (by decide)
      | thematicBreak => exact hPlain h .thematicBreak rfl (by decide)
      | _ => cases hEvent
  | task => cases hItem
  | @element _ tag inner _ _ hInner _ _ ihMore =>
      have hKind : (elementNode (reread? read source) tag inner).kind = tag.node.kind :=
        kind_elementNode hInner
      have hElement : (elementNode (reread? read source) tag inner).IsBare :=
        Node.isBare_of_kind (hKind ▸ tag.kind_node_not_directive.2) (hKind ▸ tag.kind_node_ne.1)
      rw [grown_around hInner]
      exact ihMore (Node.forall_appendChild_isBare h hElement) rfl

/-- A text with a directive has pieces. -/
theorem splitTextUpTo_ne_nil {s : Text} {found : InlineDirective}
    (h : InlineDirective.find? none s = some found) (content : Text → List Node) :
    splitTextUpTo content s.length none s ≠ [] := by
  cases s with
  | nil => cases h
  | cons c rest =>
      rw [List.length_cons, splitTextUpTo, h]
      simp

/-- If all nodes together expand to one directive, they are one text node. -/
theorem exists_ofText_of_expandAll (hBare : ∀ node ∈ nodes, node.IsBare) {directive : Node}
    (hKind : directive.kind = .textDirective) (h : Node.expandAll label nodes = [directive]) :
    ∃ value, nodes = [.ofText value] := by
  have hPieces : ∀ node : Node, ∀ rest, ∃ pieces, pieces ≠ [] ∧
      Node.expandAll label (node :: rest) = pieces ++ Node.expandAll label rest ∧
      (node.kind ≠ .text → pieces = [node.expandWith label]) := by
    intro node rest
    rw [Node.expandAll]
    split
    · next hText =>
        obtain ⟨found, hFound⟩ := Option.isSome_iff_exists.1 hText.2
        exact ⟨_, splitTextUpTo_ne_nil hFound _, rfl, fun hOther => absurd hText.1 hOther⟩
    · exact ⟨_, List.cons_ne_nil _ _, rfl, fun _ => rfl⟩
  cases nodes with
  | nil => cases h
  | cons node rest =>
      obtain ⟨hNode, -⟩ := List.forall_mem_cons.1 hBare
      obtain ⟨pieces, hNe, hFirst, hOther⟩ := hPieces node rest
      obtain ⟨hOne, hNil⟩ : pieces = [directive] ∧ Node.expandAll label rest = [] := by
        rw [hFirst] at h
        obtain ⟨piece, more, rfl⟩ := List.exists_cons_of_ne_nil hNe
        obtain ⟨rfl, hMore⟩ := List.cons.inj h
        obtain ⟨rfl, hRest⟩ := List.append_eq_nil_iff.1 hMore
        exact ⟨rfl, hRest⟩
      have hRest : rest = [] := by
        cases rest with
        | nil => rfl
        | cons other rest =>
            obtain ⟨more, hMore, hEq, -⟩ := hPieces other rest
            rw [hEq] at hNil
            exact absurd (List.append_eq_nil_iff.1 hNil).1 hMore
      by_cases hText : node.kind = .text
      · rw [hRest, hNode.2 hText]
        exact ⟨node.value, rfl⟩
      · rw [hOther hText] at hOne
        have hDirective : node.kind = .textDirective := by
          rw [← hKind, ← (List.cons.inj hOne).1, Node.expandWith_eq]
        exact absurd hDirective hNode.1

end Single

section Document

variable {name label ending : Text}

/-- A line that becomes one directive in a paragraph is nothing but text for Markdown. -/
theorem exists_ofText_of_parseDocument (gfm : Bool) (hName : IsAsciiName name)
    (hLabel : IsInlineLabel label) (hEnding : ending = [] ∨ ending = ['\n']) {directive : Node}
    (hKind : directive.kind = .textDirective)
    (h : parseDocument gfm (directiveLine name label ++ ending) =
      { kind := .root, children := [{ kind := .paragraph, children := [directive] }] }) :
    ∃ value, fragment gfm (directiveLine name label ++ ending) =
      [{ kind := .paragraph, children := [.ofText value] }] := by
  have hFragment := (fragment_run (Section.split_directiveLine hName hLabel hEnding)).trans
    (markdownNodes_paragraph (structureOf_directiveLine gfm hName hLabel hEnding) (fragment gfm))
  generalize inlines gfm [] (directiveLine name (label.map readCharacter)) = content at hFragment
  generalize hMade : grown (reread? (fragment gfm) (directiveLine name label ++ ending))
    (Inline.allEvents content) { kind := .paragraph } = made at hFragment
  have hBare : ∀ child ∈ made.children, child.IsBare :=
    hMade ▸ forall_grown_isBare (Inline.nested_allEvents content).1 (List.forall_mem_nil _)
  have hGains : Node.Gains { kind := .paragraph } made :=
    hMade ▸ Inline.gains_allEvents content rfl
  have hExpanded : Node.expandAll (fun value => expandedLabel gfm value.length) made.children =
      [directive] := by
    have hParagraph : ∀ node ∈ [made], node.kind ≠ .text := by
      rw [List.forall_mem_singleton, hGains.kind]
      decide
    rw [parseDocument, hFragment, Node.expandDirectives, Node.expandWith_eq,
      Node.expandAll_of_not_text hParagraph, List.map_singleton, Node.expandWith_eq] at h
    exact congrArg Node.children (List.cons.inj (congrArg Node.children h)).1
  obtain ⟨value, hNodes⟩ := exists_ofText_of_expandAll hBare hKind hExpanded
  refine ⟨value, ?_⟩
  rw [hFragment, hGains.eq, hNodes]

/-- A leaf directive on a line of its own holds the content of its label. The same line with one colon is
a paragraph with the text directive of the same content, if Markdown takes all of the line for text, and
so it is in particular for a label in which no inline construct can start. Conversely a paragraph with a
text directive alone only comes out if Markdown makes one text of the line: emphasis, strong text, code
and raw HTML in the label keep the directive from being found. -/
theorem parseDocument_inlineLabel (gfm : Bool) (hName : IsAsciiName name) (hLabel : IsInlineLabel label)
    (hEnding : ending = [] ∨ ending = ['\n']) :
    let line := text ":" ++ name ++ text "[" ++ label ++ text "]"
    let textDirective : Node :=
      { kind := .textDirective, name := some name, children := labelContent gfm label }
    parseDocument gfm (text ":" ++ line ++ ending) =
      { kind := .root
        children := [{ kind := .leafDirective
                       name := some name
                       children := labelContent gfm label }] } ∧
    (fragment gfm (line ++ ending) =
        [{ kind := .paragraph, children := [.ofText (line.map readCharacter)] }] →
      parseDocument gfm (line ++ ending) =
        { kind := .root, children := [{ kind := .paragraph, children := [textDirective] }] }) ∧
    ((∀ c ∈ label, c ∉ text "\\\x60<&*_~") →
      fragment gfm (line ++ ending) =
        [{ kind := .paragraph, children := [.ofText (line.map readCharacter)] }]) ∧
    (∀ directive : Node, directive.kind = .textDirective →
      parseDocument gfm (line ++ ending) =
        { kind := .root, children := [{ kind := .paragraph, children := [directive] }] } →
      ∃ value, fragment gfm (line ++ ending) =
        [{ kind := .paragraph, children := [.ofText value] }]) ∧
    ('&' ∉ label → labelContent gfm label = inlineNodes gfm label) := by
  intro line textDirective
  have hLine : line = directiveLine name label := by
    simp only [line, directiveLine_eq hLabel, List.append_assoc]
    rfl
  have hLeaf : text ":" ++ line ++ ending =
      text "::" ++ (DirectiveBody.labelled name label).print ++ ending := by
    rw [hLine]
    rfl
  have hRead : line.map readCharacter = directiveLine name (label.map readCharacter) := by
    rw [hLine]
    exact (isTextLine_directiveLine hName hLabel).2
  have hContent : labelContent gfm (label.map readCharacter) = labelContent gfm label := by
    rw [labelContent, inlineNodes_readCharacter gfm hLabel, labelContent]
  refine ⟨?_, ?_, ?_, ?_, labelContent_eq_inlineNodes gfm hLabel⟩
  · rw [hLeaf]
    exact parseDocument_leaf gfm hName.isDirectiveName hLabel hEnding
  · intro hText
    rw [hRead] at hText
    rw [parseDocument_of_text hName hLabel.read hText, hContent]
  · intro hPlain
    rw [hRead, hLine]
    exact fragment_directiveLine gfm hName hLabel hPlain hEnding
  · intro directive hKind hDocument
    rw [hLine] at hDocument ⊢
    exact exists_ofText_of_parseDocument gfm hName hLabel hEnding hKind hDocument

/-- A label of two words. -/
theorem parseDocument_inlineLabel_words :
    IsAsciiName (text "note") ∧ IsInlineLabel (text "x y!") ∧
      (text "\n" = [] ∨ text "\n" = ['\n']) ∧
      parseDocument true (text "::note[x y!]\n") =
        { kind := .root
          children := [{ kind := .leafDirective
                         name := some (text "note")
                         children := inlineNodes true (text "x y!") }] } ∧
      parseDocument true (text ":note[x y!]\n") =
        { kind := .root
          children := [{ kind := .paragraph
                         children := [{ kind := .textDirective
                                        name := some (text "note")
                                        children := inlineNodes true (text "x y!") }] }] } := by
  have hName : IsAsciiName (text "note") := ⟨by decide, List.all_eq_true.1 rfl⟩
  have hLabel : IsInlineLabel (text "x y!") := ⟨by decide, by simp [text]⟩
  have hEnding : text "\n" = [] ∨ text "\n" = ['\n'] := .inr rfl
  obtain ⟨hLeaf, hText, hPlain, -, hContent⟩ :=
    parseDocument_inlineLabel true hName hLabel hEnding
  rw [hContent (by decide)] at hLeaf hText
  exact ⟨hName, hLabel, hEnding, hLeaf, hText (hPlain (by simp [text]))⟩

/-- Emphasis in the label leaves no text that holds the whole directive. -/
theorem parseDocument_inlineLabel_emphasis :
    parseDocument true (text ":a[*x*]\n") =
        { kind := .root
          children := [{ kind := .paragraph
                         children := [.ofText (text ":a["),
                           { kind := .emphasis, children := [.ofText (text "x")] },
                           .ofText (text "]")] }] } ∧
      parseDocument true (text "::a[*x*]\n") =
        { kind := .root
          children := [{ kind := .leafDirective
                         name := some (text "a")
                         children := [{ kind := .emphasis, children := [.ofText (text "x")] }] }] } ∧
      ¬ ∀ name label : Text, IsAsciiName name → IsInlineLabel label →
        parseDocument true (text ":" ++ name ++ text "[" ++ label ++ text "]\n") =
          { kind := .root
            children := [{ kind := .paragraph
                           children := [{ kind := .textDirective
                                          name := some name
                                          children := inlineNodes true label }] }] } := by
  have hText : parseDocument true (text ":a[*x*]\n") =
      { kind := .root
        children := [{ kind := .paragraph
                       children := [.ofText (text ":a["),
                         { kind := .emphasis, children := [.ofText (text "x")] },
                         .ofText (text "]")] }] } := by
    cbv
  refine ⟨hText, by cbv, ?_⟩
  intro hDirective
  have hName : IsAsciiName (text "a") := ⟨by decide, List.all_eq_true.1 rfl⟩
  have hLabel : IsInlineLabel (text "*x*") := ⟨by decide, by simp [text]⟩
  have hCount : 3 = 1 := congrArg (fun node => (node.children.flatMap Node.children).length)
    (hText.symm.trans (hDirective (text "a") (text "*x*") hName hLabel))
  cases hCount

end Document

end DirectiveMarkdown
