import DirectiveMarkdown.Document.Fragment
import DirectiveMarkdown.Proofs.Markdown.Nesting
import DirectiveMarkdown.Proofs.Section.Scanner
import DirectiveMarkdown.Proofs.Section.Within
import DirectiveMarkdown.Proofs.Text.Offsets

/-! What is read again of a block quote or list item stands in what was written, and is shorter.
So the levels at which sources are read again are fewer than the characters, and the bound on them
plays no part. -/
namespace DirectiveMarkdown

open Markdown

theorem flatMap_sublist_flatten {f : Text → Text} (h : ∀ line, (f line).Sublist line)
    (lines : List Text) : (lines.flatMap f).Sublist lines.flatten := by
  induction lines with
  | nil => exact List.Sublist.refl _
  | cons line lines ih => exact (h line).append ih

theorem stripQuoteMarker_sublist (line : Text) : (stripQuoteMarker line).Sublist line := by
  have hRest := List.dropWhile_sublist (l := line) isInlineBlank
  unfold stripQuoteMarker
  split
  · next h =>
      rw [h] at hRest
      exact (((List.Sublist.refl _).cons _).cons _).trans hRest
  · next h =>
      rw [h] at hRest
      exact ((List.Sublist.refl _).cons _).trans hRest
  · exact List.Sublist.refl _

/-- The content of a quote stands in the quote, with gaps. -/
theorem quoteContent_sublist (written : Text) : (quoteContent written).Sublist written := by
  have h := flatMap_sublist_flatten stripQuoteMarker_sublist (Text.lines written)
  rwa [Text.flatten_lines] at h

/-- The text after a cut, or nothing where there is no cut. -/
theorem afterCut_sublist (s : Text) (offset : Nat) :
    (((Text.splitAtByte? s offset).map Prod.snd).getD []).Sublist s := by
  cases h : Text.splitAtByte? s offset with
  | none => exact List.nil_sublist _
  | some cut =>
      rw [(Text.eq_of_splitAtByte? h).1]
      exact List.sublist_append_right ..

theorem stripItemMarker_sublist (column : Nat) (task : Bool) (line : Text) :
    (stripItemMarker column task line).Sublist
      (((Text.splitAtByte? line column).map Prod.snd).getD []) := by
  unfold stripItemMarker
  dsimp only
  split
  · exact (List.dropWhile_sublist _).trans (afterCut_sublist ..)
  · exact List.Sublist.refl _

/-- A cut that is not at the start takes a character away. -/
theorem length_afterCut_lt {s : Text} (hNe : s ≠ []) {offset : Nat} (hPos : 0 < offset) :
    (((Text.splitAtByte? s offset).map Prod.snd).getD []).length < s.length := by
  cases h : Text.splitAtByte? s offset with
  | none => exact List.length_pos_iff.2 hNe
  | some cut =>
      obtain ⟨before, after⟩ := cut
      obtain ⟨hText, hWidth⟩ := Text.eq_of_splitAtByte? h
      have hBefore : before ≠ [] := by
        rintro rfl
        rw [← hWidth] at hPos
        exact Nat.lt_irrefl 0 hPos
      have hLength := List.length_pos_iff.2 hBefore
      rw [hText, List.length_append]
      exact Nat.lt_add_of_pos_left hLength

theorem stripIndent_sublist (column : Nat) (line : Text) : (stripIndent column line).Sublist line := by
  fun_induction stripIndent column line with
  | case1 column rest ih => exact ih.cons _
  | case2 column line => exact List.Sublist.refl _

/-- The content of an item stands in what was written, without the marker. -/
theorem itemContent?_sublist {written content : Text} {task : Bool}
    (h : itemContent? written task = some content) :
    content.Sublist written ∧ content.length < written.length := by
  have hWritten := Text.flatten_lines written
  unfold itemContent? at h
  split at h
  · cases h
  · next first rest hLines =>
      obtain ⟨column, hColumn, rfl⟩ := Option.map_eq_some_iff.1 h
      have hFirst : first ≠ [] := by
        rintro rfl
        cases hColumn
      have hHead := stripItemMarker_sublist column task first
      have hCut := length_afterCut_lt hFirst (listItemColumn?_pos hColumn)
      have hRest := flatMap_sublist_flatten (stripIndent_sublist column) rest
      rw [hLines, List.flatten_cons] at hWritten
      rw [← hWritten]
      refine ⟨(hHead.trans (afterCut_sublist ..)).append hRest, ?_⟩
      have hHeadLength := hHead.length_le
      have hRestLength := hRest.length_le
      rw [List.length_append, List.length_append]
      omega

/-- The content that is read again of a block quote or list item, if it is. -/
def rereadContent? (source : Text) (tag : Tag) (inner : List Event) : Option Text :=
  match tag with
  | .quote span =>
    let content := quoteContent (span.slice source)
    if Text.hasDoubleColon (span.slice source) ∧
        Text.width content < Text.width (span.slice source) then some content
    else none
  | .item span =>
    if Text.hasDoubleColon (span.slice source) then
      itemContent? (span.sliceLines source) (taskState? inner).isSome
    else none
  | _ => none

/-- The node of a container that is read again, given the nodes of its content. -/
def rereadNode (tag : Tag) (inner : List Event) (content : List Node) : Node :=
  match tag with
  | .item _ =>
    let item : Node :=
      { kind := .listItem
        children := if hasParagraph 0 inner then content else unwrapParagraphs content }
    match taskState? inner with
    | some checked => item.withAttribute (text "checked") (Node.checkedValue checked)
    | none => item
  | _ => { kind := .blockQuote, children := content }

/-- A container that is read again keeps its kind. -/
theorem kind_rereadNode {tag : Tag} (h : tag.isContainer = true) (inner : List Event)
    (content : List Node) : (rereadNode tag inner content).kind = tag.node.kind := by
  cases tag with
  | quote span => rfl
  | item span =>
      unfold rereadNode
      dsimp only
      split <;> rfl
  | _ => cases h

/-- Reading again is reading the content and putting a node around it. -/
theorem reread?_eq (read : Text → List Node) (source : Text) (tag : Tag) (inner : List Event) :
    reread? read source tag inner =
      (rereadContent? source tag inner).map fun content => rereadNode tag inner (read content) := by
  cases tag with
  | quote span =>
      unfold reread? rereadContent?
      dsimp only
      split <;> rfl
  | item span =>
      unfold reread? rereadContent?
      dsimp only
      split <;> rfl
  | _ => rfl

theorem Markdown.Span.slice_sublist (span : Span) (source : Text) :
    (span.slice source).Sublist source :=
  (List.take_sublist _ _).trans (List.drop_sublist _ _)

theorem Text.lastLine_suffix (s : Text) : Text.lastLine s <:+ s := by
  rw [← List.reverse_prefix, Text.lastLine, List.reverse_reverse]
  exact List.takeWhile_prefix _

/-- The lines of a stretch stand in the source. -/
theorem Markdown.Span.sliceLines_sublist (span : Span) (source : Text) :
    (span.sliceLines source).Sublist source := by
  have hBefore := (Text.lastLine_suffix (source.take span.start)).sublist
  have hAfter : (span.slice source).Sublist (source.drop span.start) := List.take_sublist ..
  have hWhole := hBefore.append hAfter
  rwa [List.take_append_drop] at hWhole

/-- The content stands in what was written of the container, and is shorter. What was written of an
item starts with the line of its marker. -/
theorem rereadContent?_slice {source content : Text} {tag : Tag} {inner : List Event}
    (h : rereadContent? source tag inner = some content) :
    ∃ (span : Span) (written : Text), (tag = .quote span ∧ written = span.slice source ∨
        tag = .item span ∧ written = span.sliceLines source) ∧
      written.Sublist source ∧ content.Sublist written ∧ content.length < written.length := by
  cases tag with
  | quote span =>
      unfold rereadContent? at h
      dsimp only at h
      split at h
      · next hWidth =>
          cases h
          have hSub := quoteContent_sublist (span.slice source)
          refine ⟨span, _, .inl ⟨rfl, rfl⟩, span.slice_sublist source, hSub,
            Nat.lt_of_le_of_ne hSub.length_le ?_⟩
          intro hEq
          rw [hSub.eq_of_length hEq] at hWidth
          exact Nat.lt_irrefl _ hWidth.2
      · cases h
  | item span =>
      unfold rereadContent? at h
      dsimp only at h
      split at h
      · exact ⟨span, _, .inr ⟨rfl, rfl⟩, span.sliceLines_sublist source, itemContent?_sublist h⟩
      · cases h
  | _ => cases h

/-- The content stands in the source and is shorter. -/
theorem rereadContent?_sublist {source content : Text} {tag : Tag} {inner : List Event}
    (h : rereadContent? source tag inner = some content) :
    content.Sublist source ∧ content.length < source.length := by
  obtain ⟨span, written, -, hWritten, hSub, hLength⟩ := rereadContent?_slice h
  exact ⟨hSub.trans hWritten, Nat.lt_of_lt_of_le hLength hWritten.length_le⟩

/-- Nothing is read again that is not shorter. -/
theorem reread?_congr {read other : Text → List Node} {source : Text}
    (h : ∀ content : Text, content.length < source.length → read content = other content) :
    reread? read source = reread? other source := by
  funext tag inner
  rw [reread?_eq, reread?_eq]
  cases hContent : rereadContent? source tag inner with
  | none => rfl
  | some content =>
      rw [Option.map_some, Option.map_some, h content (rereadContent?_sublist hContent).2]

/-- A run is read alike by two readers that agree on all shorter texts. -/
theorem markdownNodes_congr (gfm : Bool) {read other : Text → List Node} {source : Text}
    (h : ∀ content : Text, content.length < source.length → read content = other content) :
    markdownNodes gfm read source = markdownNodes gfm other source := by
  rw [markdownNodes, reread?_congr h, markdownNodes]

theorem Section.allNodes_congr {markdown other : Text → List Node} {sections : List Section}
    (h : ∀ piece ∈ sections, piece.nodes markdown = piece.nodes other) :
    Section.allNodes markdown sections = Section.allNodes other sections := by
  induction sections with
  | nil => rfl
  | cons piece rest ih =>
      rw [Section.allNodes, Section.allNodes, h piece (List.mem_cons_self ..),
        ih fun other hMem => h other (List.mem_cons_of_mem _ hMem)]

/-- A section is read alike by two readers that agree on all texts within the source. -/
theorem Section.nodes_congr {markdown other : Text → List Node} {source : Text}
    (h : ∀ run : Text, run.Sublist source → markdown run = other run) {piece : Section}
    (hPiece : piece.Within source) : piece.nodes markdown = piece.nodes other := by
  induction hPiece with
  | markdown hRun => exact h _ hRun
  | leaf hLabel =>
      simp only [Section.nodes, leafNode, labelNodes, h _ hLabel]
  | container _ ih =>
      simp only [Section.nodes, Section.allNodes_congr ih]

/-- The bound on the levels is free, as long as it exceeds the length of the source. -/
theorem fragmentUpTo_congr (gfm : Bool) {fuel more : Nat} {source : Text}
    (hFuel : source.length < fuel) (hMore : source.length < more) :
    fragmentUpTo gfm fuel source = fragmentUpTo gfm more source := by
  induction fuel generalizing more source with
  | zero => exact absurd hFuel (Nat.not_lt_zero _)
  | succ fuel ih =>
      obtain ⟨more, rfl⟩ : ∃ fewer, more = fewer + 1 := ⟨more - 1, by omega⟩
      refine Section.allNodes_congr fun piece hPiece =>
        Section.nodes_congr ?_ (Section.within_split source piece hPiece)
      intro run hRun
      have hLength := hRun.length_le
      exact markdownNodes_congr gfm fun content hContent => ih (by omega) (by omega)

/-- A source is divided into sections, and the Markdown in them is read in the same way. -/
theorem fragment_eq (gfm : Bool) (source : Text) :
    fragment gfm source =
      Section.allNodes (markdownNodes gfm (fragment gfm)) (Section.split source) := by
  refine Section.allNodes_congr fun piece hPiece =>
    Section.nodes_congr ?_ (Section.within_split source piece hPiece)
  intro run hRun
  have hLength := hRun.length_le
  exact markdownNodes_congr gfm fun content hContent =>
    fragmentUpTo_congr gfm (by omega) (Nat.lt_succ_self _)

end DirectiveMarkdown
