import DirectiveMarkdown.Document.Expansion
import DirectiveMarkdown.Proofs.Document.Content
import DirectiveMarkdown.Proofs.Document.Growth
import DirectiveMarkdown.Proofs.Section.OneRun
import DirectiveMarkdown.Proofs.Shape.Document
import DirectiveMarkdown.Proofs.Text.Wrapping

/-! Sources without block directives that Markdown reads as one paragraph: the tree is the paragraph
with the directives in its text expanded. -/
namespace DirectiveMarkdown

open Markdown

/-- Lines that cannot be read as directives hold none. -/
theorem scanLines_eq_none {lines : List Text} (h : ∀ line ∈ lines, BlockLine.read? line = none)
    (scanner : LineScanner) : ∀ entry ∈ scanLines scanner lines, entry.1 = none := by
  induction lines generalizing scanner with
  | nil => exact List.forall_mem_nil _
  | cons line rest ih =>
      obtain ⟨hLine, hRest⟩ := List.forall_mem_cons.1 h
      exact List.forall_mem_cons.2 ⟨LineScanner.next_of_read? hLine scanner, ih hRest _⟩

/-- A source that is not blank and whose lines cannot be read as directives is one run of Markdown. -/
theorem Section.split_eq_run {source : Text} (hSolid : Text.isBlankText source = false)
    (h : ∀ line ∈ Text.lines source, BlockLine.read? line = none) :
    split source = [.markdown source] :=
  (split_eq_run_iff source).2 ⟨hSolid, holdsNoDirective_of_none (scanLines_eq_none h {})⟩

/-- A line that is not blank and cannot be read as a directive is one run of Markdown. -/
theorem Section.split_line {line ending : Text} (hFeed : '\n' ∉ line)
    (hSolid : Text.isBlankText line = false) (hEnding : ending = [] ∨ ending = ['\n'])
    (hRead : BlockLine.read? (line ++ ending) = none) :
    split (line ++ ending) = [.markdown (line ++ ending)] := by
  refine split_eq_run (Text.not_isBlankText_append hSolid ending) ?_
  have hNe : line ≠ [] := by
    rintro rfl
    cases hSolid
  have hLines : Text.lines (line ++ ending) = [line ++ ending] := by
    rcases hEnding with rfl | rfl
    · rw [List.append_nil]
      exact Text.lines_of_newline_not_mem hNe hFeed
    · exact Text.lines_append_newline hFeed []
  rw [hLines]
  exact List.forall_mem_singleton.2 hRead

section Paragraph

variable {gfm : Bool} {source content : Text} {definitions : Definitions}

/-- Markdown that is one paragraph is one node, which its inline content makes. -/
theorem markdownNodes_paragraph (h : structureOf gfm source = ([.paragraph content], definitions))
    (read : Text → List Node) :
    markdownNodes gfm read source =
      [grown (reread? read source) (Inline.allEvents (inlines gfm definitions content))
        { kind := .paragraph }] := by
  have hInner : Nested Tag.paragraph.isItem (Inline.allEvents (inlines gfm definitions content)) :=
    (Inline.nested_allEvents _).1
  have hEvents : events gfm source =
      Tag.paragraph.around (Inline.allEvents (inlines gfm definitions content)) := by
    rw [events, blocks, h]
    simp only [Block.mapAll, Block.map]
    rw [Block.allEvents, Block.allEvents, Block.events, List.append_nil]
  rw [markdownNodes, hEvents, finish_assemble (.around rfl hInner), grown_single hInner]
  rfl

/-- Texts in a row go on with the text at the end of a node. -/
theorem grown_texts {reread : Tag → List Event → Option Node} (values : List Text) (before : Text) :
    grown reread (values.map .text) { kind := .paragraph, children := [.ofText before] } =
      { kind := .paragraph, children := [.ofText (before ++ values.flatten)] } := by
  induction values generalizing before with
  | nil => rw [List.flatten_nil, List.append_nil]; rfl
  | cons value rest ih =>
      rw [List.map_cons, grown_content rfl, List.flatten_cons, ← List.append_assoc, ← ih]
      rfl

theorem allEvents_texts (values : List Text) :
    Inline.allEvents (values.map .text) = values.map .text := by
  induction values with
  | nil => rfl
  | cons value rest ih => rw [List.map_cons, Inline.allEvents, ih]; rfl

/-- A paragraph in which Markdown finds nothing but text holds one text node. -/
theorem markdownNodes_texts (h : structureOf gfm source = ([.paragraph content], definitions))
    {values : List Text} (hInlines : inlines gfm definitions content = values.map .text)
    (hNe : values ≠ []) (read : Text → List Node) :
    markdownNodes gfm read source =
      [{ kind := .paragraph, children := [.ofText values.flatten] }] := by
  obtain ⟨value, rest, rfl⟩ := List.exists_cons_of_ne_nil hNe
  rw [markdownNodes_paragraph h, hInlines, allEvents_texts, List.map_cons, grown_content rfl,
    List.flatten_cons, ← grown_texts]
  rfl

/-- Markdown that is nothing but definitions makes no node. -/
theorem markdownNodes_definitions (h : structureOf gfm source = ([], definitions))
    (read : Text → List Node) : markdownNodes gfm read source = [] := by
  have hEvents : events gfm source = [] := by
    rw [events, blocks, h]
    rfl
  rw [markdownNodes, hEvents]
  rfl

/-- A source that is one run of Markdown. -/
theorem fragment_run (h : Section.split source = [.markdown source]) :
    fragment gfm source = markdownNodes gfm (fragment gfm) source := by
  rw [fragment_eq, h, Section.allNodes, Section.allNodes, Section.nodes, List.append_nil]

end Paragraph

end DirectiveMarkdown
