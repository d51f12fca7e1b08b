import DirectiveMarkdown.Proofs.Directive.Printing
import DirectiveMarkdown.Proofs.Section.Conservation

/-! Sections written as a source, and the division of this source. Between two sections the scanner
need not be as at the start, since a list item may still be open, but it reads the directive that
comes next and so starts anew. -/
namespace DirectiveMarkdown

namespace OpenSection

theorem flush_of_pending_eq_nil {frame : OpenSection} (h : frame.pending = []) :
    frame.flush = frame := by
  obtain ⟨colons, directive, content, pending⟩ := frame
  cases h
  rfl

/-- More sections have been read into the same container. -/
structure Adds (before : OpenSection) (sections : List Section) (after : OpenSection) : Prop where
  colons : after.colons = before.colons
  directive : after.directive = before.directive
  content : after.flush.content = sections.reverse ++ before.flush.content

theorem Adds.refl (frame : OpenSection) : Adds frame [] frame := ⟨rfl, rfl, rfl⟩

theorem Adds.cons {before mid after : OpenSection} {piece : Section} {rest : List Section}
    (hPiece : Adds before [piece] mid) (hRest : Adds mid rest after) :
    Adds before (piece :: rest) after where
  colons := hRest.colons.trans hPiece.colons
  directive := hRest.directive.trans hPiece.directive
  content := by
    simp [hRest.content, hPiece.content]

/-- Markdown that is pending counts as read. -/
theorem adds_markdown {frame : OpenSection} (hPending : frame.pending = []) {source : Text}
    (hSource : Text.isBlankText source = false) :
    Adds frame [.markdown source] { frame with pending := frame.pending ++ source } where
  colons := rfl
  directive := rfl
  content := by
    rw [flush_of_pending_eq_nil hPending, hPending, List.nil_append, flush, if_neg (by simp [hSource])]
    rfl

/-- A finished section after the pending Markdown. -/
theorem adds_push (frame : OpenSection) (piece : Section) :
    Adds frame [piece] { frame.flush with content := piece :: frame.flush.content } where
  colons := by unfold flush; split <;> rfl
  directive := by unfold flush; split <;> rfl
  content := by
    have hPending := frame.flush_pending
    rw [flush_of_pending_eq_nil (by exact hPending)]
    rfl

/-- A container that is closed holds what has been read into it. -/
theorem Adds.close {colons : Nat} {directive : DirectiveBody} {content : List Section}
    {after : OpenSection} (h : Adds { colons, directive } content after) :
    after.close = .container directive content := by
  have hContent : after.flush.content = content.reverse := by
    rw [h.content]
    exact List.append_nil _
  rw [OpenSection.close, h.directive, sections, hContent, List.reverse_reverse]

end OpenSection

namespace Section

/-- Markdown that may stand by itself: its lines are ended, and read from the start none of them is
a directive and no code is left open. -/
structure IsPlain (source : Text) : Prop where
  ended : source.getLast? = some '\n'
  directives : ∀ entry ∈ scanLines {} (Text.lines source), entry.1 = none
  fence : (LineScanner.after {} (Text.lines source)).fence = none

mutual

/-- The Markdown of the section is plain and its directives can be written. -/
def Printable : Section → Prop
  | .markdown source => IsPlain source
  | .leaf directive => directive.Printable
  | .container directive content => directive.Printable ∧ PrintableAll content

def PrintableAll : List Section → Prop
  | [] => True
  | piece :: rest => piece.Printable ∧ PrintableAll rest

end

/-- The source is the sections written one after the other. A container may be opened by any number
of colons from three on, and closed by as many or more. -/
inductive Prints : List Section → Text → Prop
  | nil : Prints [] []
  | markdown (source : Text) {rest : List Section} {s : Text} :
    Prints rest s → Prints (.markdown source :: rest) (source ++ s)
  | leaf (directive : DirectiveBody) {rest : List Section} {s : Text} :
    Prints rest s →
      Prints (.leaf directive :: rest) ((BlockLine.leaf directive).print ++ '\n' :: s)
  | container (directive : DirectiveBody) {content rest : List Section} {inner s : Text}
    {colons closing : Nat} (hColons : 3 ≤ colons) (hClosing : colons ≤ closing) :
    Prints content inner → Prints rest s →
      Prints (.container directive content :: rest)
        ((BlockLine.opening colons directive).print ++
          '\n' :: (inner ++ ((BlockLine.closing closing).print ++ '\n' :: s)))

def resume (scanner : LineScanner) (state : OpenSections) (source : Text) : OpenSections :=
  (scanLines scanner (Text.lines source)).foldl OpenSections.next state

/-- A printed directive is taken as such, and the scanner starts anew. -/
theorem resume_directive {scanner : LineScanner} (hNeutral : scanner.IsNeutral) {line : BlockLine}
    (hLine : line.Printable) (state : OpenSections) (rest : Text) :
    resume scanner state (line.print ++ '\n' :: rest) =
      resume {} (state.next (some line, line.print ++ ['\n'])) rest := by
  obtain ⟨more, hPrint, hNewline⟩ := hLine.exists_cons
  have hRead := hLine.read?
  have hNext : scanner.next (line.print ++ ['\n']) = (some line, {}) := by
    rw [hPrint] at hRead ⊢
    exact hNeutral.next hRead
  rw [resume, Text.lines_append_newline hNewline, scanLines, hNext]
  rfl

/-- Lines without directives become pending, in order. -/
theorem foldl_next_of_none {entries : List (Option BlockLine × Text)}
    (h : ∀ entry ∈ entries, entry.1 = none) (top : OpenSection) (outer : List OpenSection) :
    entries.foldl OpenSections.next ⟨top, outer⟩ =
      ⟨{ top with pending := top.pending ++ (entries.map Prod.snd).flatten }, outer⟩ := by
  induction entries generalizing top with
  | nil => simp
  | cons entry rest ih =>
      have hEntry := h entry (List.mem_cons_self ..)
      have hNext : OpenSections.next ⟨top, outer⟩ entry =
          ⟨{ top with pending := top.pending ++ entry.2 }, outer⟩ := by
        rw [OpenSections.next, hEntry]
        rfl
      rw [List.foldl_cons, hNext, ih fun entry hMem => h entry (List.mem_cons_of_mem _ hMem)]
      simp

/-- Plain Markdown is pending after it has been read from the start. -/
theorem resume_markdown {source : Text} (h : IsPlain source) (top : OpenSection)
    (outer : List OpenSection) (rest : Text) :
    resume {} ⟨top, outer⟩ (source ++ rest) =
      resume (LineScanner.after {} (Text.lines source))
        ⟨{ top with pending := top.pending ++ source }, outer⟩ rest := by
  rw [resume, Text.lines_append h.ended, scanLines_append, List.foldl_append,
    foldl_next_of_none h.directives, map_snd_scanLines, Text.flatten_lines]
  rfl

/-- Printed sections are read into the innermost container, whatever follows them, if the scanner
is as at the start or no Markdown comes first. -/
theorem Prints.resume_eq {sections : List Section} {s : Text} (h : Prints sections s)
    (hTidy : TidyAll sections) (hPrintable : PrintableAll sections) {scanner : LineScanner}
    (hNeutral : scanner.IsNeutral) (top : OpenSection) (outer : List OpenSection)
    (hStart : scanner = {} ∧ top.pending = [] ∨ sections.head?.any isMarkdown = false)
    (following : Text) :
    ∃ scanner' top', LineScanner.IsNeutral scanner' ∧ top.Adds sections top' ∧
      resume scanner ⟨top, outer⟩ (s ++ following) = resume scanner' ⟨top', outer⟩ following := by
  induction h generalizing scanner top outer following with
  | nil => exact ⟨scanner, top, hNeutral, .refl top, rfl⟩
  | markdown source _ ih =>
      obtain ⟨hBlank, hTidyRest, hAdjacent⟩ := hTidy
      obtain ⟨hPlain, hPrintableRest⟩ := hPrintable
      rcases hStart with ⟨rfl, hPending⟩ | hStart
      · have hAfter : (LineScanner.after {} (Text.lines source)).IsNeutral :=
          ⟨hPlain.fence, LineScanner.allPositive_after LineScanner.isNeutral_new.list _⟩
        obtain ⟨scanner', top', hNeutral', hAdds, hResume⟩ := ih hTidyRest hPrintableRest hAfter
          { top with pending := top.pending ++ source } outer (.inr (hAdjacent rfl)) following
        refine ⟨scanner', top', hNeutral', (OpenSection.adds_markdown hPending hBlank).cons hAdds, ?_⟩
        rw [List.append_assoc, resume_markdown hPlain, hResume]
      · cases hStart
  | leaf directive _ ih =>
      obtain ⟨-, hTidyRest, -⟩ := hTidy
      obtain ⟨hDirective, hPrintableRest⟩ := hPrintable
      obtain ⟨scanner', top', hNeutral', hAdds, hResume⟩ := ih hTidyRest hPrintableRest
        LineScanner.isNeutral_new (top.push (.leaf directive)) outer
        (.inl ⟨rfl, top.flush_pending⟩) following
      refine ⟨scanner', top', hNeutral', (top.adds_push _).cons hAdds, ?_⟩
      rw [List.append_assoc, List.cons_append,
        resume_directive hNeutral (show (BlockLine.leaf directive).Printable from hDirective)]
      exact hResume
  | @container directive content rest inner s colons closing hColons hClosing _ _ ihContent ih =>
      obtain ⟨hTidyContent, hTidyRest, -⟩ := hTidy
      obtain ⟨⟨hDirective, hPrintableContent⟩, hPrintableRest⟩ := hPrintable
      have hOpening : (BlockLine.opening colons directive).Printable := ⟨hColons, hDirective⟩
      have hClosed : (BlockLine.closing closing).Printable := Nat.le_trans hColons hClosing
      obtain ⟨scannerIn, topIn, hNeutralIn, hAddsIn, hResumeIn⟩ := ihContent hTidyContent
        hPrintableContent LineScanner.isNeutral_new { colons, directive } (top.flush :: outer)
        (.inl ⟨rfl, rfl⟩) ((BlockLine.closing closing).print ++ '\n' :: (s ++ following))
      obtain ⟨scanner', top', hNeutral', hAdds, hResume⟩ := ih hTidyRest hPrintableRest
        LineScanner.isNeutral_new
        { top.flush with content := .container directive content :: top.flush.content } outer
        (.inl ⟨rfl, top.flush_pending⟩) following
      refine ⟨scanner', top', hNeutral', (top.adds_push _).cons hAdds, ?_⟩
      have hCloses : topIn.colons ≤ closing := by
        rw [hAddsIn.colons]
        exact hClosing
      have hNext : OpenSections.next ⟨topIn, top.flush :: outer⟩
          (some (.closing closing), (BlockLine.closing closing).print ++ ['\n']) =
          ⟨{ top.flush with content := .container directive content :: top.flush.content }, outer⟩ := by
        rw [← hAddsIn.close]
        simp [OpenSections.next, OpenSections.closeTop, hCloses]
      have hText : (BlockLine.opening colons directive).print ++ '\n' :: (inner ++
          ((BlockLine.closing closing).print ++ '\n' :: s)) ++ following =
          (BlockLine.opening colons directive).print ++ '\n' :: (inner ++
            ((BlockLine.closing closing).print ++ '\n' :: (s ++ following))) := by
        simp
      rw [hText, resume_directive hNeutral hOpening]
      refine hResumeIn.trans ?_
      rw [resume_directive hNeutralIn hClosed, hNext, hResume]

mutual

theorem Prints.exists_cons (piece : Section) {rest : List Section} {s : Text}
    (hRest : Prints rest s) : ∃ source, Prints (piece :: rest) source :=
  match piece with
  | .markdown source => ⟨_, .markdown source hRest⟩
  | .leaf directive => ⟨_, .leaf directive hRest⟩
  | .container directive content =>
    have ⟨_, hContent⟩ := Prints.exists_source content
    ⟨_, .container directive (Nat.le_refl 3) (Nat.le_refl 3) hContent hRest⟩

/-- Any sections can be written. -/
theorem Prints.exists_source (sections : List Section) : ∃ source, Prints sections source :=
  match sections with
  | [] => ⟨_, .nil⟩
  | piece :: rest =>
    have ⟨_, hRest⟩ := Prints.exists_source rest
    Prints.exists_cons piece hRest

end

/-- Tidy sections of plain Markdown and directives that can be written are what their source is
divided into, however many colons open and close the containers at every level. -/
theorem split_of_prints {sections : List Section} (hTidy : TidyAll sections)
    (hPrintable : PrintableAll sections) :
    (∃ source, Prints sections source) ∧
      ∀ source, Prints sections source → split source = sections := by
  refine ⟨Prints.exists_source sections, ?_⟩
  intro source hPrints
  obtain ⟨scanner, top, -, hAdds, hResume⟩ := hPrints.resume_eq hTidy hPrintable
    LineScanner.isNeutral_new .document [] (.inl ⟨rfl, rfl⟩) []
  have hContent : top.flush.content = sections.reverse := by
    rw [hAdds.content]
    exact List.append_nil _
  rw [List.append_nil] at hResume
  have hSplit : split source = OpenSections.finish ⟨top, []⟩ := congrArg OpenSections.finish hResume
  rw [hSplit, OpenSections.finish, OpenSections.closeAll, OpenSection.sections, hContent,
    List.reverse_reverse]

/-- Containers in each other, the inner one with more colons, after an open list item. -/
theorem split_of_prints_nested :
    split (text "- item\n:::note[Hi]\x7b#a\x7d\n:::::tip\n::video\x7bsrc=\"b\"\x7d\n::::::\n:::\n") =
      [.markdown (text "- item\n"),
        .container ⟨text "note", { label := text "Hi", id := some (text "a") }⟩
          [.container ⟨text "tip", {}⟩
            [.leaf ⟨text "video", { attributes := .ofList [(text "src", text "b")] }⟩]]] := by
  have hVideo : DirectiveBody.Printable
      ⟨text "video", { attributes := .ofList [(text "src", text "b")] }⟩ := by
    refine ⟨by decide, ⟨by decide, by decide, ?_, by decide⟩⟩
    intro entry hMem
    obtain rfl : entry = .attribute (text "src") (text "b") := List.mem_singleton.1 hMem
    exact ⟨⟨'s', rfl, rfl⟩, List.all_eq_true.1 rfl, .inl (by decide)⟩
  have hTip : DirectiveBody.Printable ⟨text "tip", {}⟩ := by
    refine ⟨by decide, ⟨by decide, by decide, ?_, by decide⟩⟩
    intro entry hMem
    cases hMem
  have hNote : DirectiveBody.Printable
      ⟨text "note", { label := text "Hi", id := some (text "a") }⟩ := by
    refine ⟨by decide, ⟨by decide, by decide, ?_, by decide⟩⟩
    intro entry hMem
    obtain rfl : entry = .id (text "a") := List.mem_singleton.1 hMem
    exact List.all_eq_true.1 rfl
  have hPlain : IsPlain (text "- item\n") := ⟨by decide, by decide, by decide⟩
  refine (split_of_prints ?_ ?_).2 _ ?_
  · exact ⟨rfl, ⟨⟨⟨trivial, trivial, nofun⟩, trivial, nofun⟩, trivial, nofun⟩, fun _ => rfl⟩
  · exact ⟨hPlain, ⟨hNote, ⟨hTip, hVideo, trivial⟩, trivial⟩, trivial⟩
  · exact .markdown _
      (.container _ (show 3 ≤ 3 by decide) (show 3 ≤ 3 by decide)
        (.container _ (show 3 ≤ 5 by decide) (show 5 ≤ 6 by decide) (.leaf _ .nil) .nil) .nil)

end Section

end DirectiveMarkdown
