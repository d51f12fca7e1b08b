import DirectiveMarkdown.Proofs.Section.Closing
import DirectiveMarkdown.Proofs.Section.RoundTrip

/-! Containers that are still open at the end of a source. The end closes them, and closing lines that
name the same number of colons as the opening lines do nothing else, whatever list is open before them.
-/
namespace DirectiveMarkdown

/-- A container is opened by three colons or more. -/
theorem BlockLine.three_le_of_read?_opening {line : Text} {colons : Nat} {directive : DirectiveBody}
    (h : BlockLine.read? line = some (.opening colons directive)) : 3 ≤ colons := by
  unfold BlockLine.read? at h
  dsimp only at h
  split at h
  · cases h
  · split at h
    · cases h
    · next hColons =>
        split at h
        · split at h <;> cases h
        · obtain ⟨⟨body, afterName, after⟩, -, hRead⟩ := Option.bind_eq_some_iff.1 h
          dsimp only at hRead
          split at hRead
          · split at hRead
            · cases hRead
            · cases hRead
              omega
          · cases hRead

/-- A line closes containers and opens one at most, which it names the colons of. -/
theorem Mark.mem_next {opened : List Nat} {directive : Option BlockLine} {n : Nat}
    (h : n ∈ (Mark.next opened directive).2) :
    n ∈ opened ∨ ∃ body, directive = some (.opening n body) := by
  rcases directive with _ | ⟨directive | ⟨colons, directive⟩ | colons⟩
  · exact .inl h
  · exact .inl h
  · rcases List.mem_cons.1 h with rfl | h
    · exact .inr ⟨directive, rfl⟩
    · exact .inl h
  · cases opened with
    | nil => exact .inl h
    | cons innermost outer =>
        rw [Mark.next] at h
        split at h
        · exact .inl (List.mem_cons_of_mem _ h)
        · exact .inl h

namespace OpenSections

variable {state : OpenSections}

/-- Every container that is open was so before the lines of the scan or is opened by one of them. -/
theorem Settled.mem_colons_foldl_next (h : state.Settled) {entries : List (Option BlockLine × Text)}
    {n : Nat} (hMem : n ∈ (entries.foldl OpenSections.next state).colons) :
    n ∈ state.colons ∨ ∃ entry ∈ entries, ∃ body, entry.1 = some (.opening n body) := by
  induction entries generalizing state with
  | nil => exact .inl hMem
  | cons entry rest ih =>
      obtain ⟨hNext, hOpened, -⟩ := h.next entry
      rcases ih hNext hMem with hMem | ⟨other, hOther, hBody⟩
      · rw [colons, hOpened] at hMem
        rcases Mark.mem_next hMem with hMem | hBody
        · exact .inl hMem
        · exact .inr ⟨entry, List.mem_cons_self .., hBody⟩
      · exact .inr ⟨other, List.mem_cons_of_mem _ hOther, hBody⟩

end OpenSections

namespace Section

/-- Closing lines at the start of the line with the given numbers of colons. -/
def closingLines (colons : List Nat) : Text :=
  colons.flatMap fun n => (BlockLine.closing n).print ++ ['\n']

/-- A source that ends with its line is read before what follows, and apart from it. -/
theorem resume_append {source : Text} (h : source = [] ∨ source.getLast? = some '\n')
    (scanner : LineScanner) (state : OpenSections) (rest : Text) :
    resume scanner state (source ++ rest) =
      resume (scanner.after (Text.lines source)) (resume scanner state source) rest := by
  rw [resume, Text.lines_append_of_whole (h.imp_right .inl), scanLines_append, List.foldl_append]
  rfl

/-- All containers that are open have at least three colons. -/
theorem three_le_of_mem_colons {scanner : LineScanner} {source : Text} {n : Nat}
    (h : n ∈ (resume scanner ⟨.document, []⟩ source).colons) : 3 ≤ n := by
  have hDocument : OpenSections.Settled ⟨.document, []⟩ :=
    ⟨⟨trivial, rfl⟩, List.forall_mem_nil _, List.forall_mem_nil _⟩
  rcases hDocument.mem_colons_foldl_next h with hMem | ⟨entry, hEntry, body, hOpening⟩
  · cases hMem
  · exact BlockLine.three_le_of_read?_opening (read?_of_mem_scanLines hEntry hOpening)

/-- Each closing line closes the container that is innermost when it comes, as the end would. -/
theorem resume_closingLines {scanner : LineScanner} (hNeutral : scanner.IsNeutral)
    (top : OpenSection) (outer : List OpenSection)
    (hColons : ∀ n ∈ OpenSections.opened top outer, 3 ≤ n) :
    ∃ document, resume scanner ⟨top, outer⟩ (closingLines (OpenSections.opened top outer)) =
        ⟨document, []⟩ ∧
      document.sections = OpenSections.closeAll top outer := by
  induction outer generalizing scanner top with
  | nil => exact ⟨top, rfl, rfl⟩
  | cons parent outer ih =>
      rw [OpenSections.opened_cons top parent outer (top.close :: parent.content)] at hColons ⊢
      obtain ⟨hTop, hOuter⟩ := List.forall_mem_cons.1 hColons
      obtain ⟨document, hResume, hSections⟩ := ih LineScanner.isNeutral_new
        { parent with content := top.close :: parent.content } hOuter
      have hNext (line : Text) :
          OpenSections.next ⟨top, parent :: outer⟩ (some (.closing top.colons), line) =
            ⟨{ parent with content := top.close :: parent.content }, outer⟩ := by
        simp [OpenSections.next, OpenSections.closeTop]
      refine ⟨document, ?_, hSections⟩
      rw [closingLines, List.flatMap_cons, List.append_assoc, List.singleton_append,
        resume_directive hNeutral (show (BlockLine.closing top.colons).Printable from hTop), hNext]
      exact hResume

/-- A source of whole lines after which no code is open is divided in the same way if the containers
that are open at its end are closed, the innermost first, each by a line with as many colons as opened
it. After these lines none is open. -/
theorem split_append_closingLines {source : Text}
    (hWhole : source = [] ∨ source.getLast? = some '\n')
    (hFence : (LineScanner.after {} (Text.lines source)).fence = none) :
    let closed := source ++ closingLines (resume {} ⟨.document, []⟩ source).colons
    split closed = split source ∧ (resume {} ⟨.document, []⟩ closed).colons = [] := by
  intro closed
  have hNeutral : (LineScanner.after {} (Text.lines source)).IsNeutral :=
    ⟨hFence, LineScanner.allPositive_after LineScanner.isNeutral_new.list _⟩
  obtain ⟨document, hResume, hSections⟩ := resume_closingLines hNeutral
    (resume {} ⟨.document, []⟩ source).top (resume {} ⟨.document, []⟩ source).outer
    fun n hMem => three_le_of_mem_colons hMem
  have hClosed : resume {} ⟨.document, []⟩ closed = ⟨document, []⟩ :=
    (resume_append hWhole {} ⟨.document, []⟩ _).trans hResume
  constructor
  · calc split closed
      _ = (resume {} ⟨.document, []⟩ closed).finish := rfl
      _ = document.sections := by rw [hClosed]; rfl
      _ = split source := hSections
  · rw [hClosed]
    rfl

/-- Containers with different numbers of colons that end inside a list item. -/
theorem split_append_closingLines_item :
    let source := text ":::note\n- item\n:::::tip\n- a\n  - b\n\n"
    source.getLast? = some '\n' ∧ (LineScanner.after {} (Text.lines source)).fence = none ∧
      (resume {} ⟨.document, []⟩ source).colons = [5, 3] ∧
      closingLines [5, 3] = text ":::::\n:::\n" ∧
      split (source ++ text ":::::\n:::\n") = split source := by
  intro source
  have hEnd : source.getLast? = some '\n' := by decide
  have hFence : (LineScanner.after {} (Text.lines source)).fence = none := by decide
  have hColons : (resume {} ⟨.document, []⟩ source).colons = [5, 3] := by decide
  have hLines : closingLines [5, 3] = text ":::::\n:::\n" := by decide
  have hClosed := (split_append_closingLines (.inr hEnd) hFence).1
  rw [hColons, hLines] at hClosed
  exact ⟨hEnd, hFence, hColons, hLines, hClosed⟩

end Section

end DirectiveMarkdown
