import Mathlib.Logic.Function.Iterate
import DirectiveMarkdown.Proofs.Document.Rereading
import DirectiveMarkdown.Proofs.Markdown.OneQuote
import DirectiveMarkdown.Proofs.Section.OneRun
import DirectiveMarkdown.Proofs.Text.Wrapping

/-! A text written into a block quote or a list item, and read again. What is cut out of the quote or
item is the text itself, whatever the depth of the quotes, the marker of the item and its empty
lines. -/
namespace DirectiveMarkdown

open Markdown

namespace Text

theorem hasDoubleColon_append_right {a b : Text} (h : hasDoubleColon b = true) :
    hasDoubleColon (a ++ b) = true := by
  induction a with
  | nil => exact h
  | cons c a ih => rw [List.cons_append, hasDoubleColon, ih, Bool.or_true]

/-- Two colons that stand together stand in one line. -/
theorem hasDoubleColon_eq_any_lines (s : Text) : hasDoubleColon s = (lines s).any hasDoubleColon := by
  induction s with
  | nil => rfl
  | cons c s ih =>
      rw [hasDoubleColon, lines]
      split
      · next hBreak =>
          rw [hBreak, List.any_cons, ih]
          rfl
      · cases hLines : lines s with
        | nil =>
            obtain rfl := lines_eq_nil_iff.1 hLines
            simp [hasDoubleColon]
        | cons line more =>
            rw [ih, hLines, head?_of_lines_eq_cons hLines, List.any_cons, List.any_cons,
              hasDoubleColon, Bool.or_assoc]

/-- They still do so if something stands in front of every line. -/
theorem hasDoubleColon_of_prefixed {s t : Text} (hPrefixed : List.Forall₂ IsPrefixed (lines s) (lines t))
    (h : hasDoubleColon s = true) : hasDoubleColon t = true := by
  rw [hasDoubleColon_eq_any_lines, List.any_eq_true] at h ⊢
  obtain ⟨line, hMem, hColons⟩ := h
  obtain ⟨i, hIndex, rfl⟩ := List.getElem_of_mem hMem
  have hOther : i < (lines t).length := hPrefixed.length_eq ▸ hIndex
  refine ⟨(lines t)[i], List.getElem_mem hOther, ?_⟩
  obtain ⟨before, -, hWritten⟩ := hPrefixed.get hIndex hOther
  rw [List.get_eq_getElem, List.get_eq_getElem] at hWritten
  rw [hWritten]
  exact hasDoubleColon_append_right hColons

/-- A cut after characters of one byte each. -/
theorem splitAtByte?_append {s : Text} (h : ∀ c ∈ s, c.utf8Size = 1) (t : Text) :
    splitAtByte? (s ++ t) s.length = some (s, t) := by
  have hWidth : width s = s.length := by
    induction s with
    | nil => rfl
    | cons c s ih =>
        obtain ⟨hChar, hRest⟩ := List.forall_mem_cons.1 h
        rw [width_cons, hChar, ih hRest, List.length_cons, Nat.add_comm]
  rw [← hWidth, splitAtByte?_width]

end Text

/-- The content of a quote that was written is the text. -/
theorem quoteContent_quoted (content : Text) : quoteContent (quoted content) = content := by
  have hStrip : stripQuoteMarker ∘ (fun line : Text => '>' :: ' ' :: line) = id := rfl
  rw [quoteContent, lines_quoted, List.flatMap_def, List.map_map, hStrip, List.map_id,
    Text.flatten_lines]

/-- The marks of a quote come between the lines and do not part two colons. -/
theorem hasDoubleColon_quoted {content : Text} (h : Text.hasDoubleColon content = true) :
    Text.hasDoubleColon (quoted content) = true := by
  refine Text.hasDoubleColon_of_prefixed ?_ h
  rw [lines_quoted]
  exact isPrefixed_quote _

/-- The markers of a quote take room. -/
theorem width_lt_width_quoted {content : Text} (hNe : content ≠ []) :
    Text.width content < Text.width (quoted content) := by
  have hLines : ∀ lines : List Text,
      Text.width (lines.flatMap fun line => '>' :: ' ' :: line) =
        Text.width lines.flatten + 2 * lines.length := by
    intro lines
    induction lines with
    | nil => rfl
    | cons line lines ih =>
        have hMarker : Text.width ('>' :: ' ' :: line) = 2 + Text.width line := by
          rw [Text.width_cons, Text.width_cons, ← Nat.add_assoc]
          rfl
        rw [List.flatMap_cons, Text.width_append, hMarker, ih, List.flatten_cons,
          Text.width_append, List.length_cons]
        omega
  have hSome : 0 < (Text.lines content).length := by
    rw [List.length_pos_iff, Ne, Text.lines_eq_nil_iff]
    exact hNe
  rw [quoted, hLines, Text.flatten_lines]
  omega

/-- A line that starts with the marker of a quote is no directive. -/
theorem BlockLine.read?_quote (rest : Text) : BlockLine.read? ('>' :: rest) = none :=
  read?_of_head (by decide) (by decide) rest

/-- A line of a quote holds no directive for the scanner. -/
theorem LineScanner.next_quote (scanner : LineScanner) (rest : Text) :
    (scanner.next ('>' :: rest)).1 = none :=
  next_of_read? (BlockLine.read?_quote rest) scanner

namespace Section

/-- A quote is one run of Markdown, whatever stands in it. -/
theorem split_quoted {content : Text} (hNe : content ≠ []) :
    split (quoted content) = [.markdown (quoted content)] := by
  have hNone : ∀ (scanner : LineScanner) (lines : List Text),
      ∀ entry ∈ scanLines scanner (lines.map fun line => '>' :: ' ' :: line), entry.1 = none := by
    intro scanner lines
    induction lines generalizing scanner with
    | nil => exact List.forall_mem_nil _
    | cons line lines ih =>
        exact List.forall_mem_cons.2 ⟨scanner.next_quote _, ih _⟩
  have hLine : ∃ line, '>' :: ' ' :: line ∈ Text.lines (quoted content) := by
    rw [lines_quoted]
    cases hLines : Text.lines content with
    | nil => exact absurd (Text.lines_eq_nil_iff.1 hLines) hNe
    | cons line rest => exact ⟨line, List.mem_cons_self ..⟩
  obtain ⟨line, hMem⟩ := hLine
  rw [split_eq_run_iff]
  refine ⟨Text.not_isBlankText_of_mem_lines hMem rfl, holdsNoDirective_of_none ?_⟩
  rw [lines_quoted]
  exact hNone {} _

end Section

/-- The spaces in front of a line are taken away again. -/
theorem stripIndent_replicate (column : Nat) (line : Text) :
    stripIndent column (List.replicate column ' ' ++ line) = line := by
  induction column with
  | zero => cases line <;> rfl
  | succ column ih => exact ih

namespace WrittenMarker

variable {marker : WrittenMarker} {content written : Text}

/-- Taking the indentation away gives the line of the content again. -/
theorem Indents.stripIndent {line other : Text} (h : marker.Indents line other) :
    stripIndent marker.column other = line := by
  rcases h with rfl | ⟨rfl, rfl⟩
  · exact stripIndent_replicate _ _
  · cases marker.column <;> rfl

theorem utf8Size_of_mem_print {c : Char} (hMem : c ∈ marker.print) : c.utf8Size = 1 := by
  rcases marker.toNat_of_mem_print hMem with rfl | hCode
  · rfl
  · rw [Char.utf8Size_eq_one_iff, UInt32.le_iff_toNat_le]
    exact Nat.le_trans hCode.2 (by decide)

/-- Writing content as a list item does not part two colons. -/
theorem Wraps.hasDoubleColon (h : marker.Wraps content written)
    (hColons : Text.hasDoubleColon content = true) : Text.hasDoubleColon written = true := by
  obtain ⟨_, _, _, -, -, -, hPrefixed⟩ := h.exists_lines
  exact Text.hasDoubleColon_of_prefixed hPrefixed hColons

/-- The content of an item that was written is the text. -/
theorem Wraps.itemContent? (h : marker.Wraps content written)
    (hHead : ∃ c ∈ content.head?, isBlank c = false ∧ c ≠ '[') (task : Bool) :
    itemContent? written task = some content := by
  obtain ⟨first, rest, others, hLines, hOthers, hWritten, -⟩ := h.exists_lines
  obtain ⟨c, hHead, hBlank, hBracket⟩ := hHead
  rw [Text.head?_of_lines_eq_cons hLines] at hHead
  obtain ⟨more, rfl⟩ := List.head?_eq_some_iff.1 hHead
  have hCut : Text.splitAtByte? (marker.print ++ c :: more) marker.column =
      some (marker.print, c :: more) := by
    rw [← marker.length_print]
    exact Text.splitAtByte?_append (fun d hMem => utf8Size_of_mem_print hMem) _
  have hFirst : stripItemMarker marker.column task (marker.print ++ c :: more) = c :: more := by
    rw [stripItemMarker, hCut]
    exact if_neg fun hTask => hBracket (Option.some.inj hTask.2)
  have hRest : others.flatMap (DirectiveMarkdown.stripIndent marker.column) = rest.flatten := by
    clear hLines hWritten
    induction hOthers with
    | nil => rfl
    | cons hOther _ ih => rw [List.flatMap_cons, List.flatten_cons, hOther.stripIndent, ih]
  have hContent := Text.flatten_lines content
  rw [hLines, List.flatten_cons] at hContent
  rw [DirectiveMarkdown.itemContent?, hWritten]
  dsimp only
  rw [marker.listItemColumn?_print hBlank, Option.map_some, hFirst, hRest, hContent]

end WrittenMarker

namespace Markdown

def Block.isParagraph {α : Type} : Block α → Bool
  | .paragraph _ => true
  | _ => false

/-- An item is tight if the text in it stands in no paragraphs. -/
def Item.isTight {α : Type} : Item α → Bool
  | .mk _ _ blocks => !blocks.any Block.isParagraph

variable {ofItem : Bool} {inner : List Event}

/-- What stands inside an element is no paragraph directly in the item. -/
theorem hasParagraph_inside (h : Nested ofItem inner) (depth : Nat) (rest : List Event) :
    hasParagraph (depth + 1) (inner ++ rest) = hasParagraph (depth + 1) rest := by
  induction h generalizing depth rest with
  | nil => rfl
  | @content _ event _ hEvent _ ih => cases event <;> first | exact ih depth rest | cases hEvent
  | task _ ih => exact ih depth rest
  | element _ _ _ ihInner ihMore =>
      simp [Tag.around, hasParagraph, ihInner, ihMore]

/-- An element counts for the looseness of an item only if it is a paragraph. -/
theorem hasParagraph_around {tag : Tag} (hInner : Nested ofItem inner) (rest : List Event) :
    hasParagraph 0 (tag.around inner ++ rest) = (tag == .paragraph || hasParagraph 0 rest) := by
  simp [Tag.around, hasParagraph, hasParagraph_inside hInner]

mutual

theorem Inline.hasParagraph_events (inline : Inline) (rest : List Event) :
    hasParagraph 0 (inline.events ++ rest) = hasParagraph 0 rest := by
  match inline with
  | .text value => rfl
  | .softBreak => rfl
  | .hardBreak => rfl
  | .code value => rfl
  | .html value => rfl
  | .emphasis content => exact hasParagraph_around (Inline.nested_allEvents content).1 rest
  | .strong content => exact hasParagraph_around (Inline.nested_allEvents content).1 rest
  | .strikethrough content => exact hasParagraph_around (Inline.nested_allEvents content).1 rest
  | .link url title content => exact hasParagraph_around (Inline.nested_allEvents content).1 rest
  | .image url title content => exact hasParagraph_around (Inline.nested_allEvents content).1 rest

theorem Inline.hasParagraph_allEvents (content : List Inline) (rest : List Event) :
    hasParagraph 0 (Inline.allEvents content ++ rest) = hasParagraph 0 rest := by
  match content with
  | [] => rfl
  | inline :: more =>
      rw [Inline.allEvents, List.append_assoc, Inline.hasParagraph_events inline,
        Inline.hasParagraph_allEvents more]

end

/-- Of a block's events only those of a paragraph make an item loose. -/
theorem Block.hasParagraph_events (block : Block (List Inline)) (rest : List Event) :
    hasParagraph 0 (block.events ++ rest) = (block.isParagraph || hasParagraph 0 rest) := by
  cases block with
  | paragraph content => exact hasParagraph_around (Inline.nested_allEvents content).1 rest
  | plain content => exact Inline.hasParagraph_allEvents content rest
  | heading level content => exact hasParagraph_around (Inline.nested_allEvents content).1 rest
  | thematicBreak => rfl
  | code info value => exact hasParagraph_around (nested_codeEvents value) rest
  | html value => exact hasParagraph_around (.single rfl) rest
  | quote span blocks => exact hasParagraph_around (Block.nested_allEvents blocks) rest
  | list first items => exact hasParagraph_around (Item.nested_allEvents items) rest
  | table columns header rows => exact hasParagraph_around (nested_rowEvents header rows) rest

/-- An item is read as a tight one if it is. -/
theorem Item.hasParagraph_innerEvents (item : Item (List Inline)) :
    hasParagraph 0 item.innerEvents = !item.isTight := by
  have hBlocks : ∀ blocks : List (Block (List Inline)),
      hasParagraph 0 (Block.allEvents blocks) = blocks.any Block.isParagraph := by
    intro blocks
    induction blocks with
    | nil => rfl
    | cons block rest ih => rw [Block.allEvents, Block.hasParagraph_events, ih, List.any_cons]
  obtain ⟨span, task, blocks⟩ := item
  rw [Item.isTight, Bool.not_not, ← hBlocks]
  cases task <;> rfl

end Markdown

theorem Markdown.Span.slice_all (source : Text) :
    (⟨0, source.length⟩ : Span).slice source = source :=
  List.take_length

theorem Markdown.Span.sliceLines_all (source : Text) :
    (⟨0, source.length⟩ : Span).sliceLines source = source :=
  Span.slice_all source

variable {gfm : Bool} {content written : Text}

theorem ne_nil_of_hasDoubleColon (h : Text.hasDoubleColon content = true) : content ≠ [] := by
  rintro rfl
  cases h

def IsOneQuote (gfm : Bool) (source : Text) : Prop :=
  ∃ inner, blocks gfm source = [.quote ⟨0, source.length⟩ inner]

/-- Markdown has the text as one list with one item. -/
def IsOneItem (gfm : Bool) (source : Text) (first : Option Nat) (item : Item (List Inline)) : Prop :=
  item.span = ⟨0, source.length⟩ ∧ blocks gfm source = [.list first [item]]

/-- A quote is read as a quote of the nodes of its content. -/
theorem blockNodes_quoted (hQuote : IsOneQuote gfm (quoted content))
    (hColons : Text.hasDoubleColon content = true) :
    blockNodes gfm (quoted content) =
      [{ kind := .blockQuote, children := fragment gfm content }] := by
  obtain ⟨inner, hBlocks⟩ := hQuote
  have hEvents : events gfm (quoted content) =
      (Tag.quote ⟨0, (quoted content).length⟩).around (Block.allEvents inner) := by
    rw [events, hBlocks]
    exact List.append_nil _
  have hContent : rereadContent? (quoted content) (.quote ⟨0, (quoted content).length⟩)
      (Block.allEvents inner) = some content := by
    have hWidth := width_lt_width_quoted (ne_nil_of_hasDoubleColon hColons)
    have hQuoted : Text.hasDoubleColon (quoted content) = true := hasDoubleColon_quoted hColons
    rw [rereadContent?, Span.slice_all, quoteContent_quoted]
    exact if_pos ⟨hQuoted, hWidth⟩
  have hNested : Nested (Tag.quote ⟨0, (quoted content).length⟩).isItem (Block.allEvents inner) :=
    Block.nested_allEvents inner
  rw [blockNodes, markdownNodes, hEvents, finish_assemble (.around rfl hNested),
    grown_single hNested, elementNode, reread?_eq, hContent]
  rfl

/-- A list item is read as an item with the nodes of its content, which stand in no paragraphs if the
item is tight. -/
theorem blockNodes_item {marker : WrittenMarker} (hWraps : marker.Wraps content written)
    (hHead : ∃ c ∈ content.head?, isBlank c = false ∧ c ≠ '[')
    (hColons : Text.hasDoubleColon content = true) {first : Option Nat}
    {item : Item (List Inline)} (hItem : IsOneItem gfm written first item) :
    ∃ node : Node, blockNodes gfm written = [{ (Tag.list first).node with children := [node] }] ∧
      node.kind = .listItem ∧
      node.children = if item.isTight then unwrapParagraphs (fragment gfm content)
        else fragment gfm content := by
  obtain ⟨hSpan, hBlocks⟩ := hItem
  have hNested : Nested (Tag.item item.span).isItem item.innerEvents := item.nested_innerEvents
  have hInList : Nested (Tag.list first).isItem ((Tag.item item.span).around item.innerEvents) :=
    .around rfl hNested
  have hEvents : events gfm written =
      (Tag.list first).around ((Tag.item item.span).around item.innerEvents) := by
    rw [events, hBlocks]
    refine (List.append_nil _).trans (congrArg (Tag.list first).around ?_)
    exact (List.append_nil _).trans item.events_eq
  have hContent : rereadContent? written (.item item.span) item.innerEvents = some content := by
    rw [rereadContent?, hSpan, Span.slice_all, Span.sliceLines_all, hWraps.itemContent? hHead]
    exact if_pos (hWraps.hasDoubleColon hColons)
  have hNode : elementNode (reread? (fragment gfm) written) (.item item.span) item.innerEvents =
      rereadNode (.item item.span) item.innerEvents (fragment gfm content) := by
    rw [elementNode, reread?_eq, hContent]
    rfl
  refine ⟨rereadNode (.item item.span) item.innerEvents (fragment gfm content), ?_, ?_, ?_⟩
  · have hList : elementNode (reread? (fragment gfm) written) (.list first)
        ((Tag.item item.span).around item.innerEvents) = (Tag.list first).node.appendChild
          (elementNode (reread? (fragment gfm) written) (.item item.span) item.innerEvents) :=
      grown_single hNested _
    rw [blockNodes, markdownNodes, hEvents, finish_assemble (.around rfl hInList),
      grown_single hInList, hList, hNode]
    cases first <;> rfl
  · exact kind_rereadNode rfl _ _
  · have hChildren : (rereadNode (.item item.span) item.innerEvents
        (fragment gfm content)).children = if hasParagraph 0 item.innerEvents then
          fragment gfm content else unwrapParagraphs (fragment gfm content) := by
      unfold rereadNode
      dsimp only
      split <;> rfl
    rw [hChildren, item.hasParagraph_innerEvents]
    cases item.isTight <;> rfl

def quoteNodes (children : List Node) : List Node := [{ kind := .blockQuote, children }]

/-- A text that is quoted again and again is read as quotes in each other. -/
theorem blockNodes_iterate_quoted {levels : Nat}
    (hQuotes : ∀ level ≤ levels, IsOneQuote gfm (quoted^[level + 1] content))
    (hColons : Text.hasDoubleColon content = true) :
    Text.hasDoubleColon (quoted^[levels + 1] content) = true ∧
      blockNodes gfm (quoted^[levels + 1] content) =
        quoteNodes^[levels + 1] (fragment gfm content) := by
  induction levels with
  | zero =>
      exact ⟨hasDoubleColon_quoted hColons, blockNodes_quoted (hQuotes 0 (Nat.le_refl 0)) hColons⟩
  | succ levels ih =>
      obtain ⟨hInner, hNodes⟩ := ih fun level hLevel => hQuotes level (Nat.le_succ_of_le hLevel)
      have hQuote := hQuotes (levels + 1) (Nat.le_refl _)
      have hSplit : Section.split (quoted^[levels + 1] content) =
          [.markdown (quoted^[levels + 1] content)] := by
        rw [Function.iterate_succ_apply'] at hInner ⊢
        refine Section.split_quoted ?_
        intro hNil
        rw [hNil] at hInner
        cases hInner
      have hFragment : fragment gfm (quoted^[levels + 1] content) =
          blockNodes gfm (quoted^[levels + 1] content) := by
        rw [fragment_eq, hSplit]
        exact List.append_nil _
      rw [Function.iterate_succ_apply'] at hQuote ⊢
      refine ⟨hasDoubleColon_quoted hInner, ?_⟩
      rw [blockNodes_quoted hQuote hInner, hFragment, hNodes]
      exact (Function.iterate_succ_apply' quoteNodes ..).symm

/-- Markdown has quotes that are written as one quote each, if line feeds alone end lines. -/
theorem isOneQuote_iterate_quoted (gfm : Bool) (hNe : content ≠ []) (hReturn : '\r' ∉ content)
    (levels : Nat) : IsOneQuote gfm (quoted^[levels + 1] content) := by
  have hInner : quoted^[levels] content ≠ [] ∧ '\r' ∉ quoted^[levels] content := by
    induction levels with
    | zero => exact ⟨hNe, hReturn⟩
    | succ levels ih =>
        rw [Function.iterate_succ_apply']
        exact ⟨quoted_ne_nil ih.1, return_not_mem_quoted ih.2⟩
  obtain ⟨inner, hBlocks⟩ := exists_structureOf_quoted gfm hInner.1 hInner.2
  rw [Function.iterate_succ_apply', IsOneQuote, blocks]
  dsimp only
  rw [hBlocks]
  exact ⟨_, rfl⟩

/-- A text without carriage returns that is quoted again and again is read as quotes in each other,
without more being asked of Markdown. -/
theorem blockNodes_iterate_quoted_of_lineFeeds (hReturn : '\r' ∉ content)
    (hColons : Text.hasDoubleColon content = true) (levels : Nat) :
    blockNodes gfm (quoted^[levels + 1] content) = quoteNodes^[levels + 1] (fragment gfm content) :=
  (blockNodes_iterate_quoted
    (fun level _ => isOneQuote_iterate_quoted gfm (ne_nil_of_hasDoubleColon hColons) hReturn level)
    hColons).2

/-- Reading undoes wrapping: a text with directives that is quoted, to any depth, or written into a
list item, with any marker, is read into the nodes of the text itself. -/
theorem blockNodes_of_wrapped (gfm : Bool) {content : Text}
    (hColons : Text.hasDoubleColon content = true) :
    (∀ levels, (∀ level ≤ levels, IsOneQuote gfm (quoted^[level + 1] content)) →
      blockNodes gfm (quoted^[levels + 1] content) =
        quoteNodes^[levels + 1] (fragment gfm content)) ∧
    (∀ (marker : WrittenMarker) (written : Text) (first : Option Nat) (item : Item (List Inline)),
      (∃ c ∈ content.head?, isBlank c = false ∧ c ≠ '[') → marker.Wraps content written →
      IsOneItem gfm written first item →
      ∃ node : Node, blockNodes gfm written = [{ (Tag.list first).node with children := [node] }] ∧
        node.kind = .listItem ∧
        node.children = if item.isTight then unwrapParagraphs (fragment gfm content)
          else fragment gfm content) :=
  ⟨fun _ hQuotes => (blockNodes_iterate_quoted hQuotes hColons).2,
    fun _ _ _ _ hHead hWraps hItem => blockNodes_item hWraps hHead hColons hItem⟩

/-- A directive and a paragraph, quoted twice and as an item with an empty line in it. -/
theorem blockNodes_of_wrapped_leaf :
    let content := text "::a\n\nb\n"
    let marker : WrittenMarker :=
      { indent := 1, mark := ['-'], spaces := 2, indent_le := by decide
        isMark := .bullet (.inl rfl), spaces_pos := by decide, spaces_le := by decide }
    let written := text " -  ::a\n\n    b\n"
    let item : Item (List Inline) :=
      .mk ⟨0, written.length⟩ none [.paragraph [.text (text "::a")], .paragraph [.text (text "b")]]
    Text.hasDoubleColon content = true ∧
      (∀ level ≤ 1, IsOneQuote true (quoted^[level + 1] content)) ∧
      blockNodes true (quoted^[2] content) = quoteNodes^[2] (fragment true content) ∧
      (∃ c ∈ content.head?, isBlank c = false ∧ c ≠ '[') ∧ marker.Wraps content written ∧
      IsOneItem true written none item ∧
      ∃ node : Node, blockNodes true written =
          [{ (Tag.list none).node with children := [node] }] ∧
        node.kind = .listItem ∧ node.children = fragment true content := by
  intro content marker written item
  have hColons : Text.hasDoubleColon content = true := rfl
  have hQuotes : ∀ level ≤ 1, IsOneQuote true (quoted^[level + 1] content) := fun level _ =>
    isOneQuote_iterate_quoted true (List.cons_ne_nil _ _) (by decide) level
  have hHead : ∃ c ∈ content.head?, isBlank c = false ∧ c ≠ '[' := ⟨':', rfl, rfl, by decide⟩
  have hWraps : marker.Wraps content written :=
    ⟨text "::a\n", [text "\n", text "b\n"], [text "\n", text "    b\n"], rfl,
      .cons (.inr ⟨rfl, rfl⟩) (.cons (.inl rfl) .nil), rfl⟩
  have hList : blocks true (text " -  ::a\n\n    b\n") = [.list none [.mk ⟨0, 15⟩ none
      [.paragraph [.text (text "::a")], .paragraph [.text (text "b")]]]] := by
    cbv
  have hItem : IsOneItem true written none item := ⟨rfl, hList⟩
  obtain ⟨hQuoted, hInItem⟩ := blockNodes_of_wrapped true hColons
  exact ⟨hColons, hQuotes, hQuoted 1 hQuotes, hHead, hWraps, hItem,
    hInItem marker written none item hHead hWraps hItem⟩

end DirectiveMarkdown
