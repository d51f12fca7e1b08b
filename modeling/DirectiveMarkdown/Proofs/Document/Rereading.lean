import Mathlib
import DirectiveMarkdown.Proofs.Document.Content
import DirectiveMarkdown.Proofs.Document.Growth
import DirectiveMarkdown.Proofs.Section.Conservation

/-! Markdown without directives. Its block quotes and list items are read again all the same, if two
colons stand together in them, but apart from the document around them. The nodes are those of plain
Markdown exactly if each content that is read so makes the container that it makes in its place. -/
namespace DirectiveMarkdown

open Markdown

/-- A container that is read again: its tag, the events in it, and the content that is read. -/
structure Rereading where
  tag : Tag
  inner : List Event
  content : Text

namespace Rereading

def node (read : Text → List Node) (container : Rereading) : Node :=
  rereadNode container.tag container.inner (read container.content)

def inPlace (container : Rereading) : Node :=
  (container.inner.foldl Assembly.step ⟨container.tag.node, []⟩).top

end Rereading

/-- An element, if it is a container that is read again. -/
def rereading? (source : Text) (tag : Tag) (inner : List Event) : Option Rereading :=
  (rereadContent? source tag inner).map fun content => ⟨tag, inner, content⟩

/-- The containers that are read again, but none inside another. `skip` counts the open elements of
the last one. -/
def rereadings (source : Text) : Nat → List Event → List Rereading
  | _, [] => []
  | 0, .start tag :: rest =>
    match (innerEvents? 0 rest).bind (rereading? source tag) with
    | some container => container :: rereadings source 1 rest
    | none => rereadings source 0 rest
  | 0, _ :: rest => rereadings source 0 rest
  | skip + 1, .start _ :: rest => rereadings source (skip + 2) rest
  | skip + 1, .stop _ :: rest => rereadings source skip rest
  | skip + 1, _ :: rest => rereadings source (skip + 1) rest

section Containers

variable {source : Text} {ofItem : Bool} {events : List Event}

theorem rereadings_cons {event : Event} (h : event.isBoundary = false) (skip : Nat)
    (rest : List Event) :
    rereadings source skip (event :: rest) = rereadings source skip rest := by
  cases skip <;> cases event <;> first | rfl | cases h

/-- No container is sought in the events of one that is read again. -/
theorem rereadings_skip (h : Nested ofItem events) (skip : Nat) (rest : List Event) :
    rereadings source (skip + 1) (events ++ rest) = rereadings source (skip + 1) rest := by
  induction h generalizing skip rest with
  | nil => rfl
  | content hEvent _ ih =>
      rw [List.cons_append, rereadings_cons (Event.not_isBoundary_of_isContent hEvent), ih]
  | task _ ih => rw [List.cons_append, rereadings_cons rfl, ih]
  | element _ _ _ ihInner ihMore =>
      simp [Tag.around, rereadings, ihInner, ihMore]

/-- The containers of an element: itself, or those in it. -/
def elementRereadings (source : Text) (tag : Tag) (inner : List Event) : List Rereading :=
  match rereading? source tag inner with
  | some container => [container]
  | none => rereadings source 0 inner

/-- The containers of an element come before those of the events behind it. -/
theorem rereadings_around {tag : Tag} {inner : List Event} (hInner : Nested tag.isItem inner)
    (hAppend : ∀ rest, rereadings source 0 (inner ++ rest) =
      rereadings source 0 inner ++ rereadings source 0 rest) (rest : List Event) :
    rereadings source 0 (tag.around inner ++ rest) =
      elementRereadings source tag inner ++ rereadings source 0 rest := by
  have hEvents : tag.around inner ++ rest = .start tag :: (inner ++ .stop tag :: rest) := by
    simp [Tag.around]
  rw [hEvents, rereadings, innerEvents?_eq hInner, Option.bind_some, elementRereadings]
  cases rereading? source tag inner with
  | some container =>
      dsimp only
      rw [rereadings_skip hInner, rereadings]
      rfl
  | none =>
      dsimp only
      rw [hAppend]
      rfl

/-- Nested events have their containers whatever comes behind them. -/
theorem rereadings_append (h : Nested ofItem events) (rest : List Event) :
    rereadings source 0 (events ++ rest) =
      rereadings source 0 events ++ rereadings source 0 rest := by
  induction h generalizing rest with
  | nil => rfl
  | content hEvent _ ih =>
      have hEvent := Event.not_isBoundary_of_isContent hEvent
      rw [List.cons_append, rereadings_cons hEvent, rereadings_cons hEvent, ih]
  | task _ ih => rw [List.cons_append, rereadings_cons rfl, rereadings_cons rfl, ih]
  | element _ hInner _ ihInner ihMore =>
      rw [List.append_assoc, rereadings_around hInner ihInner, rereadings_around hInner ihInner,
        ihMore, List.append_assoc]

theorem isContainer_of_rereadContent? {tag : Tag} {inner : List Event} {content : Text}
    (h : rereadContent? source tag inner = some content) : tag.isContainer = true := by
  cases tag <;> first | rfl | cases h

/-- Without a container there is nothing to be read again. -/
theorem rereadings_eq_nil (h : HoldsNoContainer events) (skip : Nat) :
    rereadings source skip events = [] := by
  fun_induction rereadings source skip events with
  | case1 => rfl
  | case2 tag rest container hContainer ih =>
      obtain ⟨inner, -, hInner⟩ := Option.bind_eq_some_iff.1 hContainer
      obtain ⟨content, hContent, -⟩ := Option.map_eq_some_iff.1 hInner
      have hTag := h tag (List.mem_cons_self ..)
      rw [isContainer_of_rereadContent? hContent] at hTag
      cases hTag
  | case3 tag rest _ ih => exact ih fun other hMem => h other (List.mem_cons_of_mem _ hMem)
  | case4 event rest _ ih => exact ih fun other hMem => h other (List.mem_cons_of_mem _ hMem)
  | case5 skip tag rest ih => exact ih fun other hMem => h other (List.mem_cons_of_mem _ hMem)
  | case6 skip tag rest ih => exact ih fun other hMem => h other (List.mem_cons_of_mem _ hMem)
  | case7 skip event rest _ _ ih =>
      exact ih fun other hMem => h other (List.mem_cons_of_mem _ hMem)

end Containers

/-- The answer of plain Markdown: nothing is read again. -/
def noReread : Tag → List Event → Option Node := fun _ _ => none

/-- If nothing is read again, every event is taken in turn. -/
theorem assemble_noReread (assembly : Assembly) (events : List Event) :
    assemble noReread 0 assembly events = events.foldl Assembly.step assembly := by
  induction events generalizing assembly with
  | nil => rfl
  | cons event rest ih =>
      rw [List.foldl_cons, ← ih]
      cases event with
      | start tag =>
          rw [assemble]
          cases innerEvents? 0 rest <;> rfl
      | _ => rfl

section Comparison

variable {read : Text → List Node} {source : Text} {ofItem : Bool} {events : List Event}

theorem Markdown.Tag.not_isImage_of_isContainer {tag : Tag} (h : tag.isContainer = true) :
    tag.isImage = false := by
  cases tag <;> first | rfl | cases h

/-- A container that is read again is one that its events make, of the same kind. -/
theorem elementNode_of_reread (read : Text → List Node) {tag : Tag} {inner : List Event}
    (hInner : Nested tag.isItem inner) {content : Text}
    (hContent : rereadContent? source tag inner = some content) :
    elementNode (reread? read source) tag inner = Rereading.node read ⟨tag, inner, content⟩ ∧
      elementNode noReread tag inner = Rereading.inPlace ⟨tag, inner, content⟩ ∧
      (elementNode (reread? read source) tag inner).kind = (elementNode noReread tag inner).kind := by
  have hContainer := isContainer_of_rereadContent? hContent
  have hNode : elementNode (reread? read source) tag inner =
      Rereading.node read ⟨tag, inner, content⟩ := by
    rw [elementNode, reread?_eq, hContent]
    rfl
  have hPlace : elementNode noReread tag inner = grown noReread inner tag.node :=
    Tag.finish_of_not_image (Tag.not_isImage_of_isContainer hContainer) _
  refine ⟨hNode, ?_, ?_⟩
  · rw [hPlace, grown, assemble_noReread]
    rfl
  · rw [hNode, hPlace, kind_grown hInner Tag.kind_node_of_isItem]
    exact kind_rereadNode hContainer inner _

/-- An element that is not read again is the same if what stands in it is. -/
theorem elementNode_of_not_reread {tag : Tag} {inner : List Event}
    (hImage : tag.isImage = true → HoldsNoContainer inner)
    (hNone : rereadContent? source tag inner = none)
    (hAlike : (grown (reread? read source) inner tag.node).Alike (grown noReread inner tag.node))
    (hGrown : grown (reread? read source) inner tag.node = grown noReread inner tag.node ↔
      ∀ container ∈ rereadings source 0 inner, container.node read = container.inPlace) :
    (elementNode (reread? read source) tag inner).kind = (elementNode noReread tag inner).kind ∧
      (elementNode (reread? read source) tag inner = elementNode noReread tag inner ↔
        ∀ container ∈ rereadings source 0 inner, container.node read = container.inPlace) := by
  have hNode : elementNode (reread? read source) tag inner =
      tag.finish (grown (reread? read source) inner tag.node) := by
    rw [elementNode, reread?_eq, hNone]
    rfl
  have hPlain : elementNode noReread tag inner = tag.finish (grown noReread inner tag.node) := rfl
  rw [hNode, hPlain]
  cases hTag : tag.isImage with
  | false =>
      rw [Tag.finish_of_not_image hTag, Tag.finish_of_not_image hTag]
      exact ⟨hAlike.kind, hGrown⟩
  | true =>
      have hNoContainer : rereadings source 0 inner = [] := rereadings_eq_nil (hImage hTag) 0
      rw [hNoContainer] at hGrown ⊢
      rw [hGrown.2 (List.forall_mem_nil _)]
      exact ⟨rfl, fun _ _ hMem => absurd hMem List.not_mem_nil, fun _ => rfl⟩

/-- What events make of two nodes is the same exactly if the nodes are, and the containers. -/
theorem grown_eq_iff (h : Nested ofItem events) {a b : Node} (hAlike : a.Alike b)
    (hItem : ofItem = true → a = b ∧ b.kind = .listItem) :
    (grown (reread? read source) events a).Alike (grown noReread events b) ∧
      (grown (reread? read source) events a = grown noReread events b ↔
        a = b ∧ ∀ container ∈ rereadings source 0 events,
          container.node read = container.inPlace) := by
  induction h generalizing a b with
  | nil => exact ⟨hAlike, by simp [rereadings, grown, assemble]⟩
  | content hEvent _ ih =>
      obtain ⟨hNext, hSame⟩ := Event.grow_eq_iff hEvent hAlike
      obtain ⟨hAlike, hEq⟩ := ih hNext fun hTask => absurd hTask Bool.false_ne_true
      rw [grown_content hEvent, grown_content hEvent,
        rereadings_cons (Event.not_isBoundary_of_isContent hEvent), ← hSame]
      exact ⟨hAlike, hEq⟩
  | task _ ih =>
      obtain ⟨rfl, hKind⟩ := hItem rfl
      obtain ⟨hAlike, hEq⟩ := ih (Node.Alike.refl _) fun hTask => absurd hTask Bool.false_ne_true
      rw [grown_task _ hKind, grown_task _ hKind, rereadings_cons rfl]
      refine ⟨hAlike, hEq.trans ?_⟩
      simp
  | @element _ tag inner _ hImage hInner _ ihInner ihMore =>
      have hElement : (elementNode (reread? read source) tag inner).kind =
            (elementNode noReread tag inner).kind ∧
          (elementNode (reread? read source) tag inner = elementNode noReread tag inner ↔
            ∀ container ∈ elementRereadings source tag inner,
              container.node read = container.inPlace) := by
        unfold elementRereadings rereading?
        cases hContent : rereadContent? source tag inner with
        | some content =>
            obtain ⟨hNode, hPlace, hKind⟩ := elementNode_of_reread read hInner hContent
            refine ⟨hKind, ?_⟩
            rw [hNode, hPlace]
            simp
        | none =>
            obtain ⟨hAlike, hGrown⟩ := ihInner (Node.Alike.refl tag.node) fun hTag =>
              ⟨rfl, Tag.kind_node_of_isItem hTag⟩
            exact elementNode_of_not_reread hImage hContent hAlike (by simpa using hGrown)
      obtain ⟨hKind, hSame⟩ := hElement
      obtain ⟨hAlike, hEq⟩ :=
        ihMore (hAlike.appendChild hKind) fun hTask => absurd hTask Bool.false_ne_true
      rw [grown_around hInner, grown_around hInner,
        rereadings_around hInner (rereadings_append hInner)]
      refine ⟨hAlike, ?_⟩
      rw [hEq, Node.appendChild_eq_iff, hSame, List.forall_mem_append, and_assoc]

end Comparison

def blockNodes (gfm : Bool) (source : Text) : List Node :=
  markdownNodes gfm (fragment gfm) source

/-- The nodes that all events of a run make, with nothing read again. -/
def plainNodes (gfm : Bool) (source : Text) : List Node :=
  ((events gfm source).foldl Assembly.step {}).finish

/-- The sections of a source, with its Markdown read plainly. -/
def plainFragment (gfm : Bool) (source : Text) : List Node :=
  Section.allNodes (plainNodes gfm) (Section.split source)

/-- A run of Markdown has the nodes of plain Markdown exactly if its containers have. -/
theorem markdownNodes_eq_iff (gfm : Bool) (read : Text → List Node) (source : Text) :
    markdownNodes gfm read source = plainNodes gfm source ↔
      ∀ container ∈ rereadings source 0 (events gfm source),
        container.node read = container.inPlace := by
  have hNested := nested_events gfm source
  have hRoot : ∀ reread : Tag → List Event → Option Node,
      grown reread (events gfm source) { kind := .root } =
        { kind := .root
          children := (grown reread (events gfm source) { kind := .root }).children } :=
    fun reread => grown_of_root hNested rfl
  have hAlike := Node.Alike.refl { kind := .root }
  have hEq : grown (reread? read source) (events gfm source) { kind := .root } =
      grown noReread (events gfm source) { kind := .root } ↔ _ :=
    (grown_eq_iff hNested hAlike nofun).2
  rw [markdownNodes, plainNodes, ← assemble_noReread, finish_assemble hNested,
    finish_assemble hNested]
  constructor
  · intro hChildren
    refine (hEq.1 ?_).2
    rw [hRoot, hChildren]
    exact (hRoot noReread).symm
  · intro hContainers
    rw [hEq.2 ⟨rfl, hContainers⟩]

/-- The texts that are read as runs of Markdown, if no section is a directive: the source, and each
content that is read again of such a text. -/
inductive Reaches (gfm : Bool) (source : Text) : Text → Prop
  | source : Reaches gfm source source
  | content {run : Text} {container : Rereading} (hRun : Reaches gfm source run)
    (hMem : container ∈ rereadings run 0 (events gfm run)) : Reaches gfm source container.content

/-- No directive is present: the source and all contents that are read again of it, however deep,
have no sections but Markdown. -/
def DirectiveFree (gfm : Bool) (source : Text) : Prop :=
  ∀ run, Reaches gfm source run → ∀ piece ∈ Section.split run, piece.isMarkdown = true

namespace Section

/-- Sections that are all Markdown are known from their texts in document order. -/
theorem pieces_of_isMarkdown {sections : List Section}
    (h : ∀ piece ∈ sections, piece.isMarkdown = true) :
    (piecesAll sections).filterMap Piece.mark? = [] ∧
      sections = ((piecesAll sections).filterMap Piece.markdown?).map .markdown := by
  induction sections with
  | nil => exact ⟨rfl, rfl⟩
  | cons piece rest ih =>
      obtain ⟨hMarks, hRest⟩ := ih fun other hMem => h other (List.mem_cons_of_mem _ hMem)
      cases hPiece : piece with
      | markdown run => exact ⟨hMarks, congrArg (Section.markdown run :: ·) hRest⟩
      | leaf directive =>
          have hOwn := h piece (List.mem_cons_self ..)
          rw [hPiece] at hOwn
          cases hOwn
      | container directive content =>
          have hOwn := h piece (List.mem_cons_self ..)
          rw [hPiece] at hOwn
          cases hOwn

end Section

/-- Lines without marks are one run of Markdown. -/
theorem markdownRuns_of_unmarked {lines : List (Option Mark × Text)}
    (h : lines.filterMap Prod.fst = []) : markdownRuns lines = [(lines.map Prod.snd).flatten] := by
  induction lines with
  | nil => rfl
  | cons line rest ih =>
      obtain ⟨_ | mark, line⟩ := line
      · rw [markdownRuns_cons_none, ih h]
        rfl
      · cases h

/-- A source whose sections are all Markdown is one run of it, or blank. -/
theorem Section.split_of_isMarkdown {source : Text}
    (h : ∀ piece ∈ split source, piece.isMarkdown = true) :
    split source = if Text.isBlankText source then [] else [.markdown source] := by
  obtain ⟨hMarks, hSections⟩ := pieces_of_isMarkdown h
  obtain ⟨-, unclosed, hPieces⟩ := pieces_split source
  rw [hPieces, List.filterMap_append, Reading.mark_foldl_next, List.append_eq_nil_iff] at hMarks
  have hUnmarked : (markedLines source).filterMap Prod.fst = [] := hMarks.1
  have hClosings : (List.replicate unclosed (Piece.mark .closing)).filterMap Piece.markdown? = [] :=
    List.filterMap_replicate_of_none rfl
  have hLines : ((markedLines source).map Prod.snd).flatten = source := by
    rw [markedLines, map_snd_markLines, map_snd_scanLines, Text.flatten_lines]
  rw [hPieces, List.filterMap_append, Reading.markdown_foldl_next, hClosings,
    markdownRuns_of_unmarked hUnmarked, hLines] at hSections
  rw [hSections]
  cases hBlank : Text.isBlankText source <;> simp [hBlank]

section DirectiveFree

variable {gfm : Bool} {source run : Text}

/-- Only contents that can be cut out are read again. -/
theorem exists_of_mem_rereadings {skip : Nat} {events : List Event} {container : Rereading}
    (h : container ∈ rereadings source skip events) :
    ∃ tag inner, rereadContent? source tag inner = some container.content := by
  fun_induction rereadings source skip events with
  | case1 => cases h
  | case2 tag rest found hFound ih =>
      rcases List.mem_cons.1 h with rfl | h
      · obtain ⟨inner, -, hInner⟩ := Option.bind_eq_some_iff.1 hFound
        obtain ⟨content, hContent, rfl⟩ := Option.map_eq_some_iff.1 hInner
        exact ⟨tag, inner, hContent⟩
      · exact ih h
  | case3 tag rest _ ih => exact ih h
  | case4 event rest _ ih => exact ih h
  | case5 skip tag rest ih => exact ih h
  | case6 skip tag rest ih => exact ih h
  | case7 skip event rest _ _ ih => exact ih h

/-- Without directives a text that is read as Markdown has the nodes of its only run. -/
theorem fragment_of_directiveFree (h : DirectiveFree gfm source) (hRun : Reaches gfm source run) :
    fragment gfm run = (if Text.isBlankText run then [] else blockNodes gfm run) ∧
      plainFragment gfm run = (if Text.isBlankText run then [] else plainNodes gfm run) := by
  rw [fragment_eq, plainFragment, Section.split_of_isMarkdown (h run hRun)]
  cases Text.isBlankText run
  · exact ⟨List.append_nil _, List.append_nil _⟩
  · exact ⟨rfl, rfl⟩

/-- Without directives the nodes of a text are those of plain Markdown exactly if each container that
is read again becomes the same as in its place. This holds of the text and of all contents that are
read again, if each of these contents, read plainly, makes the container that it was cut out of. -/
theorem blockNodes_eq_plainNodes_iff (hFree : DirectiveFree gfm source) :
    (blockNodes gfm source = plainNodes gfm source ↔
        ∀ container ∈ rereadings source 0 (events gfm source),
          container.node (fragment gfm) = container.inPlace) ∧
      ((∀ run, Reaches gfm source run → blockNodes gfm run = plainNodes gfm run) ↔
        ∀ run, Reaches gfm source run → ∀ container ∈ rereadings run 0 (events gfm run),
          container.node (plainFragment gfm) = container.inPlace) := by
  have hStep := fun run => markdownNodes_eq_iff gfm (fragment gfm) run
  refine ⟨hStep source, ?_, ?_⟩
  · intro hSame run hRun container hMem
    have hContent := Reaches.content hRun hMem
    obtain ⟨hFragment, hPlain⟩ := fragment_of_directiveFree hFree hContent
    rw [← (hStep run).1 (hSame run hRun) container hMem]
    unfold Rereading.node
    rw [hFragment, hPlain, hSame _ hContent]
  · intro hPlaces run hRun
    induction hLength : run.length using Nat.strongRecOn generalizing run with
    | ind length ih =>
        refine (hStep run).2 ?_
        intro container hMem
        have hContent := Reaches.content hRun hMem
        obtain ⟨tag, inner, hFound⟩ := exists_of_mem_rereadings hMem
        have hShorter := (rereadContent?_sublist hFound).2
        have hSame := ih _ (hLength ▸ hShorter) _ hContent rfl
        obtain ⟨hFragment, hPlain⟩ := fragment_of_directiveFree hFree hContent
        rw [← hPlaces run hRun container hMem]
        unfold Rereading.node
        rw [hFragment, hPlain, hSame]

/-- Texts are free of directives, if they are Markdown alone and what is read again of them is among
them. -/
theorem directiveFree_of_closed {runs : List Text} (hSource : source ∈ runs)
    (hRuns : (runs.all fun run => (Section.split run).all Section.isMarkdown &&
      (rereadings run 0 (events gfm run)).all fun container => runs.contains container.content) =
        true) : DirectiveFree gfm source := by
  have hRun : ∀ run ∈ runs, (∀ piece ∈ Section.split run, piece.isMarkdown = true) ∧
      ∀ container ∈ rereadings run 0 (events gfm run), container.content ∈ runs := by
    simpa using hRuns
  have hReaches : ∀ run, Reaches gfm source run → run ∈ runs := by
    intro run hReached
    induction hReached with
    | source => exact hSource
    | content _ hMem ih => exact (hRun _ ih).2 _ hMem
  exact fun run hReached => (hRun run (hReaches run hReached)).1

end DirectiveFree

/-- A quote with two colons that refers to nothing outside it is read as plain Markdown. -/
theorem blockNodes_eq_plainNodes_vector :
    DirectiveFree true "> std::vector\n".toList ∧
      (∀ container ∈ rereadings "> std::vector\n".toList 0 (events true "> std::vector\n".toList),
        container.content = "std::vector\n".toList ∧
          container.node (fragment true) = container.inPlace) ∧
      blockNodes true "> std::vector\n".toList = plainNodes true "> std::vector\n".toList := by
  have hFree : DirectiveFree true "> std::vector\n".toList := by
    have hRuns : (["> std::vector\n".toList, "std::vector\n".toList].all fun run =>
        (Section.split run).all Section.isMarkdown &&
          (rereadings run 0 (events true run)).all fun container =>
            ["> std::vector\n".toList, "std::vector\n".toList].contains container.content) =
        true := by cbv
    exact directiveFree_of_closed (List.mem_cons_self ..) hRuns
  have hQuote : rereadings "> std::vector\n".toList 0 (events true "> std::vector\n".toList) =
      [⟨.quote ⟨0, 14⟩, Tag.paragraph.around [.text "std::vector".toList],
        "std::vector\n".toList⟩] := by cbv
  have hSame : ∀ container ∈
      rereadings "> std::vector\n".toList 0 (events true "> std::vector\n".toList),
      container.content = "std::vector\n".toList ∧
        container.node (fragment true) = container.inPlace := by
    intro container hMem
    rw [hQuote, List.mem_singleton] at hMem
    subst hMem
    exact ⟨rfl, by cbv⟩
  refine ⟨hFree, hSame, ?_⟩
  exact (blockNodes_eq_plainNodes_iff hFree).1.2 fun container hMem => (hSame container hMem).2

/-- A quote with two colons does not find the definition of a reference that stands outside it, so
the link that plain Markdown has there is lost, although there is no directive. -/
theorem blockNodes_ne_plainNodes_reference :
    DirectiveFree true "> [a] b::c\n\n[a]: /u\n".toList ∧
      blockNodes true "> [a] b::c\n\n[a]: /u\n".toList ≠
        plainNodes true "> [a] b::c\n\n[a]: /u\n".toList := by
  constructor
  · have hRuns : (["> [a] b::c\n\n[a]: /u\n".toList, "[a] b::c\n".toList].all fun run =>
        (Section.split run).all Section.isMarkdown &&
          (rereadings run 0 (events true run)).all fun container =>
            ["> [a] b::c\n\n[a]: /u\n".toList, "[a] b::c\n".toList].contains container.content) =
        true := by cbv
    exact directiveFree_of_closed (List.mem_cons_self ..) hRuns
  · have hRead : (((blockNodes true "> [a] b::c\n\n[a]: /u\n".toList).flatMap
        Node.children).flatMap Node.children).map Node.kind = [.text] := by cbv
    have hPlain : (((plainNodes true "> [a] b::c\n\n[a]: /u\n".toList).flatMap
        Node.children).flatMap Node.children).map Node.kind = [.link, .text] := by cbv
    intro hSame
    rw [hSame, hPlain] at hRead
    cases hRead

end DirectiveMarkdown
