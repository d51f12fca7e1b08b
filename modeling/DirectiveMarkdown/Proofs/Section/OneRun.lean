import DirectiveMarkdown.Proofs.Directive.Parts
import DirectiveMarkdown.Proofs.Section.Conservation

/-! Sources that are one run of Markdown: those in which no line is a leaf or opens a container. A
closing line has nothing to close in them. -/
namespace DirectiveMarkdown

/-- A line that cannot be read as a directive holds none after any lines. -/
theorem LineScanner.next_of_read? {line : Text} (h : BlockLine.read? line = none)
    (scanner : LineScanner) : (scanner.next line).1 = none := by
  unfold LineScanner.next
  dsimp only
  split
  · rfl
  · split
    · rfl
    · rw [h]

/-- No line is a leaf or the opening of a container. -/
def HoldsNoDirective (entries : List (Option BlockLine × Text)) : Prop :=
  ∀ entry ∈ entries, entry.1.bind BlockLine.body? = none

/-- A line holds no directive if it is Markdown or a closing line. -/
theorem holdsNoDirective_cons {entry : Option BlockLine × Text}
    {rest : List (Option BlockLine × Text)} :
    HoldsNoDirective (entry :: rest) ↔
      entry.1.bind BlockLine.body? = none ∧ HoldsNoDirective rest :=
  List.forall_mem_cons

theorem holdsNoDirective_append {a b : List (Option BlockLine × Text)} :
    HoldsNoDirective (a ++ b) ↔ HoldsNoDirective a ∧ HoldsNoDirective b :=
  List.forall_mem_append

theorem holdsNoDirective_of_none {entries : List (Option BlockLine × Text)}
    (h : ∀ entry ∈ entries, entry.1 = none) : HoldsNoDirective entries := by
  intro entry hMem
  rw [h entry hMem]
  rfl

/-- While no container is open, a line has a mark exactly if it holds a leaf or an opening. -/
theorem Mark.next_nil (directive : Option BlockLine) :
    (directive.bind BlockLine.body? = none → Mark.next [] directive = (none, [])) ∧
      (directive.bind BlockLine.body? ≠ none → (Mark.next [] directive).1 ≠ none) := by
  cases directive with
  | none => exact ⟨fun _ => rfl, fun h => absurd rfl h⟩
  | some line =>
      cases line with
      | leaf body => exact ⟨nofun, nofun⟩
      | opening colons body => exact ⟨nofun, nofun⟩
      | closing colons => exact ⟨fun _ => rfl, fun h => absurd rfl h⟩

/-- Lines without a leaf or an opening are those that have no marks. -/
theorem holdsNoDirective_iff_marks (entries : List (Option BlockLine × Text)) :
    HoldsNoDirective entries ↔ (markLines [] entries).filterMap Prod.fst = [] := by
  induction entries with
  | nil => exact iff_of_true (List.forall_mem_nil _) rfl
  | cons entry rest ih =>
      obtain ⟨hNone, hSome⟩ := Mark.next_nil entry.1
      rw [holdsNoDirective_cons, markLines]
      by_cases hBody : entry.1.bind BlockLine.body? = none
      · rw [hNone hBody, List.filterMap_cons_none rfl, ih]
        exact and_iff_right hBody
      · obtain ⟨mark, hMark⟩ := Option.ne_none_iff_exists'.1 (hSome hBody)
        have hEntry : ((Mark.next [] entry.1).1, entry.2).1 = some mark := hMark
        rw [List.filterMap_cons_some hEntry]
        exact iff_of_false (fun h => hBody h.1) (List.cons_ne_nil _ _)

namespace Section

/-- Lines without a leaf or an opening are all pending, if no container is open. -/
theorem foldl_next_of_holdsNoDirective {entries : List (Option BlockLine × Text)}
    (h : HoldsNoDirective entries) (top : OpenSection) :
    entries.foldl OpenSections.next ⟨top, []⟩ =
      ⟨{ top with pending := top.pending ++ (entries.map Prod.snd).flatten }, []⟩ := by
  induction entries generalizing top with
  | nil => simp
  | cons entry rest ih =>
      obtain ⟨hBody, hRest⟩ := holdsNoDirective_cons.1 h
      have hNext : OpenSections.next ⟨top, []⟩ entry =
          ⟨{ top with pending := top.pending ++ entry.2 }, []⟩ := by
        obtain ⟨directive, line⟩ := entry
        cases directive with
        | none => rfl
        | some directive =>
            cases directive with
            | leaf body => cases hBody
            | opening colons body => cases hBody
            | closing colons => rfl
      rw [List.foldl_cons, hNext, ih hRest]
      simp

/-- A source is one run of Markdown exactly if it is not blank and no line of it is a leaf or opens a
container. -/
theorem split_eq_run_iff (source : Text) :
    split source = [.markdown source] ↔
      Text.isBlankText source = false ∧ HoldsNoDirective (scanLines {} (Text.lines source)) := by
  obtain ⟨hTidy, unclosed, hPieces⟩ := pieces_split source
  constructor
  · intro hSplit
    rw [hSplit] at hTidy hPieces
    have hMarks := congrArg (List.filterMap Piece.mark?) hPieces
    rw [List.filterMap_append, Reading.mark_foldl_next] at hMarks
    obtain ⟨hMarks, -⟩ := List.append_eq_nil_iff.1 hMarks.symm
    exact ⟨hTidy.1, (holdsNoDirective_iff_marks _).2 hMarks⟩
  · rintro ⟨hBlank, hNone⟩
    have hText : ((scanLines {} (Text.lines source)).map Prod.snd).flatten = source := by
      rw [map_snd_scanLines, Text.flatten_lines]
    rw [split, foldl_next_of_holdsNoDirective hNone, hText]
    simp [OpenSections.finish, OpenSections.closeAll, OpenSection.sections, OpenSection.flush,
      OpenSection.document, hBlank]

end Section

end DirectiveMarkdown
