import DirectiveMarkdown.Proofs.Directive.Parts
import DirectiveMarkdown.Section

/-! What the sections of a source hold stands in the source. -/
namespace DirectiveMarkdown

/-- The Markdown and the labels of a section stand in a text, each in order but with gaps. -/
inductive Section.Within (source : Text) : Section → Prop
  | markdown {run : Text} (h : run.Sublist source) : Within source (.markdown run)
  | leaf {directive : DirectiveBody} (h : directive.arguments.label.Sublist source) :
    Within source (.leaf directive)
  | container {directive : DirectiveBody} {content : List Section}
    (h : ∀ piece ∈ content, Within source piece) : Within source (.container directive content)

theorem Section.Within.mono {source more : Text} (hMore : source.Sublist more) {piece : Section}
    (h : piece.Within source) : piece.Within more := by
  induction h with
  | markdown h => exact .markdown (h.trans hMore)
  | leaf h => exact .leaf (h.trans hMore)
  | container _ ih => exact .container ih

structure OpenSection.Within (source : Text) (frame : OpenSection) : Prop where
  content : ∀ piece ∈ frame.content, piece.Within source
  pending : frame.pending.Sublist source

variable {source : Text}

namespace OpenSection

theorem Within.mono {more : Text} (hMore : source.Sublist more) {frame : OpenSection}
    (h : frame.Within source) : frame.Within more :=
  ⟨fun piece hMem => (h.content piece hMem).mono hMore, h.pending.trans hMore⟩

/-- Pending Markdown that is ended stands where it stood. -/
theorem Within.flush {frame : OpenSection} (h : frame.Within source) : frame.flush.Within source := by
  unfold OpenSection.flush
  split
  · exact ⟨h.content, List.nil_sublist _⟩
  · refine ⟨?_, List.nil_sublist _⟩
    intro piece hMem
    rcases List.mem_cons.1 hMem with rfl | hMem
    · exact .markdown h.pending
    · exact h.content piece hMem

theorem Within.add {frame : OpenSection} (h : frame.Within source) {piece : Section}
    (hPiece : piece.Within source) :
    Within source { frame with content := piece :: frame.content } := by
  refine ⟨?_, h.pending⟩
  intro other hMem
  rcases List.mem_cons.1 hMem with rfl | hMem
  · exact hPiece
  · exact h.content other hMem

theorem Within.sections {frame : OpenSection} (h : frame.Within source) :
    ∀ piece ∈ frame.sections, piece.Within source :=
  fun piece hMem => h.flush.content piece (List.mem_reverse.1 hMem)

/-- A container that is closed stands in the source with its label and content. -/
theorem Within.close {frame : OpenSection} (h : frame.Within source) : frame.close.Within source :=
  .container h.sections

end OpenSection

def OpenSections.Within (source : Text) (state : OpenSections) : Prop :=
  ∀ frame ∈ state.top :: state.outer, frame.Within source

namespace OpenSections

variable {state : OpenSections}

theorem Within.top (h : state.Within source) : state.top.Within source := h _ (List.mem_cons_self ..)

theorem Within.mono {more : Text} (hMore : source.Sublist more) (h : state.Within source) :
    state.Within more :=
  fun frame hMem => (h frame hMem).mono hMore

theorem Within.withTop (h : state.Within source) {frame : OpenSection}
    (hFrame : frame.Within source) : Within source { state with top := frame } := by
  intro other hMem
  rcases List.mem_cons.1 hMem with rfl | hMem
  · exact hFrame
  · exact h other (List.mem_cons_of_mem _ hMem)

theorem Within.addLine (h : state.Within source) (line : Text) :
    (state.addLine line).Within (source ++ line) := by
  have hMore := h.mono (List.sublist_append_left source line)
  exact hMore.withTop ⟨hMore.top.content, h.top.pending.append (List.Sublist.refl _)⟩

theorem Within.closeTop (h : state.Within source) : state.closeTop.Within source := by
  unfold OpenSections.closeTop
  split
  · exact h
  · next parent outer hOuter =>
      have hParent : parent.Within source := by
        refine h parent (List.mem_cons_of_mem _ ?_)
        rw [hOuter]
        exact List.mem_cons_self ..
      intro frame hMem
      rcases List.mem_cons.1 hMem with rfl | hMem
      · exact hParent.add h.top.close
      · refine h frame (List.mem_cons_of_mem _ ?_)
        rw [hOuter]
        exact List.mem_cons_of_mem _ hMem

/-- After one more line, what the containers hold stands in the lines so far. -/
theorem Within.next (h : state.Within source) {entry : Option BlockLine × Text}
    (hBody : ∀ body ∈ entry.1.bind BlockLine.body?, body.arguments.label.Sublist entry.2) :
    (state.next entry).Within (source ++ entry.2) := by
  have hMore := h.mono (List.sublist_append_left source entry.2)
  unfold OpenSections.next
  split
  · next directive hEntry =>
      refine hMore.withTop (hMore.top.flush.add (.leaf ?_))
      exact (hBody directive (by rw [hEntry]; rfl)).trans (List.sublist_append_right ..)
  · next colons directive hEntry =>
      intro frame hMem
      rcases List.mem_cons.1 hMem with rfl | hMem
      · exact ⟨(List.forall_mem_nil _), List.nil_sublist _⟩
      · rcases List.mem_cons.1 hMem with rfl | hMem
        · exact hMore.top.flush
        · exact hMore frame (List.mem_cons_of_mem _ hMem)
  · split
    · exact hMore.closeTop
    · exact h.addLine entry.2
  · exact h.addLine entry.2

/-- All finished sections stand in the source. -/
theorem Within.closeAll {top : OpenSection} {outer : List OpenSection}
    (h : Within source ⟨top, outer⟩) : ∀ piece ∈ closeAll top outer, piece.Within source := by
  induction outer generalizing top with
  | nil => exact h.top.sections
  | cons parent outer ih => exact ih h.closeTop

end OpenSections

/-- A directive is read from the line alone. -/
theorem LineScanner.read?_of_next {scanner : LineScanner} {line : Text} {directive : BlockLine}
    (h : (scanner.next line).1 = some directive) : BlockLine.read? line = some directive := by
  unfold LineScanner.next at h
  dsimp only at h
  split at h
  · cases h
  · split at h
    · cases h
    · split at h
      · next hRead => rw [hRead, ← h]
      · cases h

/-- The directive that a line is found to hold is the one that the line reader finds in it. -/
theorem read?_of_mem_scanLines {scanner : LineScanner} {lines : List Text}
    {entry : Option BlockLine × Text} (hMem : entry ∈ scanLines scanner lines)
    {directive : BlockLine} (hEntry : entry.1 = some directive) :
    BlockLine.read? entry.2 = some directive := by
  induction lines generalizing scanner with
  | nil => cases hMem
  | cons line rest ih =>
      rw [scanLines] at hMem
      rcases List.mem_cons.1 hMem with rfl | hMem
      · exact LineScanner.read?_of_next hEntry
      · exact ih hMem

/-- After all lines of a scan, what the containers hold stands in these lines. -/
theorem OpenSections.Within.foldl_next {state : OpenSections} (h : state.Within source)
    (scanner : LineScanner) (lines : List Text) :
    ((scanLines scanner lines).foldl OpenSections.next state).Within (source ++ lines.flatten) := by
  induction lines generalizing state source scanner with
  | nil =>
      rw [List.flatten_nil, List.append_nil]
      exact h
  | cons line rest ih =>
      rw [List.flatten_cons, ← List.append_assoc, scanLines, List.foldl_cons]
      refine ih (h.next ?_) _
      intro body hBody
      obtain ⟨directive, hDirective, hBody⟩ := Option.bind_eq_some_iff.1 hBody
      exact BlockLine.label_sublist (LineScanner.read?_of_next hDirective) hBody

/-- The Markdown and the labels of the sections of a source stand in the source. -/
theorem Section.within_split (source : Text) : ∀ piece ∈ split source, piece.Within source := by
  have hDocument : OpenSections.Within [] ⟨.document, []⟩ := by
    intro frame hMem
    rw [List.mem_singleton.1 hMem]
    exact ⟨(List.forall_mem_nil _), List.nil_sublist _⟩
  have hLines := hDocument.foldl_next {} (Text.lines source)
  rw [List.nil_append, Text.flatten_lines] at hLines
  exact hLines.closeAll

end DirectiveMarkdown
