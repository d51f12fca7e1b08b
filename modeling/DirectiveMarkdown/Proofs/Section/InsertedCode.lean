import DirectiveMarkdown.Proofs.Section.FencedCode
import DirectiveMarkdown.Proofs.Section.RoundTrip

/-! Fenced code between the lines of a source. The scanner is after it as it was before, so all other
lines are read as they would be without it, and it becomes part of the Markdown that is read where it
stands. -/
namespace DirectiveMarkdown

namespace Section

mutual

/-- The section without the Markdown inside it, unless it is Markdown itself. -/
def bare? : Section → Option Section
  | .markdown _ => none
  | .leaf directive => some (.leaf directive)
  | .container directive content => some (.container directive (skeleton content))

/-- The leaves and containers, with all Markdown left out at every level. -/
def skeleton : List Section → List Section
  | [] => []
  | piece :: rest => piece.bare?.toList ++ skeleton rest

end

theorem skeleton_eq (sections : List Section) : skeleton sections = sections.filterMap bare? := by
  induction sections with
  | nil => rfl
  | cons piece rest ih =>
      rw [skeleton, ih]
      cases h : piece.bare? with
      | none => exact (List.filterMap_cons_none h).symm
      | some bare => exact (List.filterMap_cons_some h).symm

theorem skeleton_reverse (sections : List Section) :
    skeleton sections.reverse = (skeleton sections).reverse := by
  rw [skeleton_eq, skeleton_eq, List.filterMap_reverse]

end Section

namespace OpenSection

def bare (frame : OpenSection) : OpenSection :=
  { frame with content := Section.skeleton frame.content, pending := [] }

theorem bare_flush (frame : OpenSection) : frame.flush.bare = frame.bare := by
  unfold flush
  split <;> rfl

theorem flush_bare (frame : OpenSection) : frame.bare.flush = frame.bare :=
  flush_of_pending_eq_nil rfl

/-- Leaving Markdown out of what is finished is finishing what has none. -/
theorem skeleton_sections (frame : OpenSection) :
    Section.skeleton frame.sections = frame.bare.sections := by
  rw [sections, sections, Section.skeleton_reverse, flush_bare, ← bare_flush]
  rfl

/-- A closed container without Markdown is the one that had none when it was closed. -/
theorem bare?_close (frame : OpenSection) : frame.close.bare? = some frame.bare.close := by
  rw [close, Section.bare?, skeleton_sections]
  rfl

end OpenSection

namespace OpenSections

def bare (state : OpenSections) : OpenSections :=
  ⟨state.top.bare, state.outer.map OpenSection.bare⟩

/-- Without Markdown a line does what the directive in it does. -/
theorem bare_next (state : OpenSections) (directive : Option BlockLine) (line : Text) :
    (state.next (directive, line)).bare = state.bare.next (directive, []) := by
  obtain ⟨top, outer⟩ := state
  rcases directive with _ | ⟨directive | ⟨colons, directive⟩ | colons⟩
  · rfl
  · have hPush : (top.push (.leaf directive)).bare = top.bare.push (.leaf directive) := by
      rw [OpenSection.push, OpenSection.push, OpenSection.flush_bare, ← top.bare_flush]
      rfl
    exact congrArg (OpenSections.mk · (outer.map OpenSection.bare)) hPush
  · have hFlush : top.flush.bare = top.bare.flush := by
      rw [OpenSection.bare_flush, OpenSection.flush_bare]
    exact congrArg (fun frame => OpenSections.mk { colons, directive }
      (frame :: outer.map OpenSection.bare)) hFlush
  · cases outer with
    | nil => rfl
    | cons parent outer =>
        have hColons : top.bare.colons = top.colons := rfl
        simp only [OpenSections.next, bare, List.map_cons, List.isEmpty_cons, hColons]
        split
        · simp only [closeTop, OpenSections.mk.injEq, and_true]
          rw [OpenSection.bare, Section.skeleton, OpenSection.bare?_close]
          rfl
        · rfl

/-- The containers that are open after some lines depend on the directives in these lines alone. -/
theorem bare_foldl_next (state : OpenSections) (entries : List (Option BlockLine × Text)) :
    (entries.foldl OpenSections.next state).bare =
      (entries.filterMap Prod.fst).foldl (fun state line => state.next (some line, []))
        state.bare := by
  induction entries generalizing state with
  | nil => rfl
  | cons entry rest ih =>
      obtain ⟨_ | line, text⟩ := entry
      · rw [List.foldl_cons, ih, bare_next]
        rfl
      · rw [List.foldl_cons, ih, bare_next]
        rfl

/-- Closing all containers commutes with leaving the Markdown out. -/
theorem skeleton_closeAll (top : OpenSection) (outer : List OpenSection) :
    Section.skeleton (closeAll top outer) = closeAll top.bare (outer.map OpenSection.bare) := by
  induction outer generalizing top with
  | nil => exact top.skeleton_sections
  | cons parent outer ih =>
      rw [closeAll, ih, List.map_cons, closeAll, OpenSection.bare, Section.skeleton,
        OpenSection.bare?_close]
      rfl

end OpenSections

/-- The skeleton of a source depends on the directives in its lines alone. -/
theorem Section.skeleton_split (source : Text) :
    skeleton (split source) =
      (((scanLines {} (Text.lines source)).filterMap Prod.fst).foldl
        (fun (state : OpenSections) line => state.next (some line, [])) ⟨.document, []⟩).finish := by
  have hBare : OpenSections.bare ⟨.document, []⟩ = ⟨.document, []⟩ := rfl
  rw [← hBare, ← OpenSections.bare_foldl_next]
  exact OpenSections.skeleton_closeAll ..

namespace OpenSection

variable {frame : OpenSection} {content : List Section}

/-- The content starts with what is finished in the open container. Then comes its pending Markdown,
if this is to be kept, and perhaps more. -/
structure ContinuesIn (frame : OpenSection) (content : List Section) : Prop where
  finished : frame.content.reverse <+: content
  pending : Text.isBlankText frame.pending = false → ∃ more,
    frame.content.reverse ++ [.markdown (frame.pending ++ more)] <+: content

/-- Content that starts with what is finished and pending goes on in the container. -/
theorem continuesIn_of_flush (h : frame.flush.content.reverse <+: content) :
    frame.ContinuesIn content := by
  cases hBlank : Text.isBlankText frame.pending with
  | true =>
      rw [flush, if_pos hBlank] at h
      exact ⟨h, fun hFalse => by rw [hBlank] at hFalse; cases hFalse⟩
  | false =>
      rw [flush, if_neg (by simp [hBlank]), List.reverse_cons] at h
      exact ⟨(List.prefix_append ..).trans h, fun _ => ⟨[], by rwa [List.append_nil]⟩⟩

/-- Another line of Markdown goes on with the pending Markdown. -/
theorem continuesIn_of_line {line : Text}
    (h : ContinuesIn { frame with pending := frame.pending ++ line } content) :
    frame.ContinuesIn content where
  finished := h.finished
  pending := by
    intro hBlank
    obtain ⟨more, hMore⟩ := h.pending (Text.not_isBlankText_append hBlank line)
    exact ⟨line ++ more, by rwa [← List.append_assoc]⟩

theorem continuesIn_sections (frame : OpenSection) : frame.ContinuesIn frame.sections :=
  continuesIn_of_flush (List.prefix_refl _)

end OpenSection

namespace OpenSections

/-- In the sections the innermost open container has this content. Around it stands what was finished
before it was opened, and perhaps more after it. -/
def EndsUpWith (sections : List Section) :
    OpenSection → List OpenSection → List Section → Prop
  | _, [], content => content = sections
  | top, parent :: outer, content => ∃ rest, EndsUpWith sections parent outer
      (parent.content.reverse ++ .container top.directive content :: rest)

variable {sections content : List Section} {top parent : OpenSection} {outer : List OpenSection}

/-- Of the innermost container only the directive counts, since its content is given. -/
theorem EndsUpWith.congr {other : OpenSection} (h : EndsUpWith sections top outer content)
    (hOther : top.directive = other.directive) : EndsUpWith sections other outer content := by
  cases outer with
  | nil => exact h
  | cons parent outer =>
      rw [EndsUpWith, hOther] at h
      exact h

/-- A container ends up as it was closed, if its parent goes on after it. -/
theorem EndsUpWith.of_close (h : EndsUpWith sections parent outer content)
    (hContent : (top.close :: parent.content).reverse <+: content) :
    EndsUpWith sections top (parent :: outer) top.sections := by
  obtain ⟨rest, rfl⟩ := hContent
  refine ⟨rest, ?_⟩
  rw [List.reverse_cons, List.append_assoc] at h
  exact h

/-- At the end of the source each container has what was read in it. -/
theorem endsUpWith_closeAll (top : OpenSection) (outer : List OpenSection) :
    EndsUpWith (closeAll top outer) top outer top.sections := by
  induction outer generalizing top with
  | nil => rfl
  | cons parent outer ih =>
      have hParent := ih { parent with content := top.close :: parent.content }
      exact EndsUpWith.of_close (hParent.congr rfl)
        (OpenSection.continuesIn_sections
          { parent with content := top.close :: parent.content }).finished

/-- What a line leaves finished and pending in the innermost container was there before it, or comes
after what was. -/
theorem EndsUpWith.of_next {state : OpenSections} {entry : Option BlockLine × Text}
    (h : EndsUpWith sections (state.next entry).top (state.next entry).outer content)
    (hContinues : (state.next entry).top.ContinuesIn content) :
    ∃ content, EndsUpWith sections state.top state.outer content ∧
      state.top.ContinuesIn content := by
  obtain ⟨top, outer⟩ := state
  obtain ⟨directive, line⟩ := entry
  have hLine (h : EndsUpWith sections (addLine ⟨top, outer⟩ line).top outer content)
      (hContinues : (addLine ⟨top, outer⟩ line).top.ContinuesIn content) :
      ∃ content, EndsUpWith sections top outer content ∧ top.ContinuesIn content :=
    ⟨content, h.congr rfl, OpenSection.continuesIn_of_line hContinues⟩
  rcases directive with _ | ⟨directive | ⟨colons, directive⟩ | colons⟩
  · exact hLine h hContinues
  · have hFlush : top.flush.content.reverse <+: content := by
      refine List.IsPrefix.trans ?_ hContinues.finished
      exact List.reverse_prefix.2 (List.suffix_cons ..)
    have hDirective : (top.push (.leaf directive)).directive = top.directive :=
      (OpenSection.adds_push top (.leaf directive)).directive
    exact ⟨content, h.congr hDirective, OpenSection.continuesIn_of_flush hFlush⟩
  · obtain ⟨rest, hParent⟩ := h
    have hDirective : top.flush.directive = top.directive :=
      (OpenSection.adds_push top (.leaf directive)).directive
    exact ⟨_, hParent.congr hDirective, OpenSection.continuesIn_of_flush (List.prefix_append ..)⟩
  · cases outer with
    | nil => exact hLine h hContinues
    | cons parent outer =>
        by_cases hCloses : top.colons ≤ colons
        · have hNext : OpenSections.next ⟨top, parent :: outer⟩ (some (.closing colons), line) =
              ⟨{ parent with content := top.close :: parent.content }, outer⟩ := by
            simp [OpenSections.next, closeTop, hCloses]
          rw [hNext] at h hContinues
          exact ⟨top.sections, EndsUpWith.of_close (h.congr rfl) hContinues.finished,
            top.continuesIn_sections⟩
        · have hNext : OpenSections.next ⟨top, parent :: outer⟩ (some (.closing colons), line) =
              addLine ⟨top, parent :: outer⟩ line := by
            simp [OpenSections.next, hCloses]
          rw [hNext] at h hContinues
          exact hLine h hContinues

/-- However a source goes on, what is finished and pending in the innermost container stays there. -/
theorem exists_endsUpWith (state : OpenSections) (entries : List (Option BlockLine × Text)) :
    ∃ content, EndsUpWith (entries.foldl OpenSections.next state).finish state.top state.outer
      content ∧ state.top.ContinuesIn content := by
  induction entries generalizing state with
  | nil => exact ⟨_, endsUpWith_closeAll state.top state.outer, state.top.continuesIn_sections⟩
  | cons entry rest ih =>
      obtain ⟨content, hEnds, hContinues⟩ := ih (state.next entry)
      exact hEnds.of_next hContinues

end OpenSections

/-- Fenced code that is closed holds no directive, and the scanner is after it as it was before. -/
theorem scanLines_code {fence : CodeFence} {first last : Text} {body : List Text}
    (hFirst : CodeFence.opening? first = some fence)
    (hBody : ∀ line ∈ body, fence.closedBy line = false) (hLast : fence.closedBy last = true)
    (list : ListColumns) (rest : List Text) :
    scanLines ⟨none, list⟩ (first :: (body ++ [last]) ++ rest) =
      (first :: (body ++ [last])).map (none, ·) ++ scanLines ⟨none, list⟩ rest := by
  have hClosing : scanLines ⟨some fence, list⟩ (last :: rest) =
      (none, last) :: scanLines ⟨none, list⟩ rest := by
    rw [scanLines, LineScanner.next_of_fence, if_pos hLast]
  have hCode : scanLines ⟨some fence, list⟩ (body ++ [last] ++ rest) =
      (body ++ [last]).map (none, ·) ++ scanLines ⟨none, list⟩ rest := by
    rw [List.append_assoc, scanLines_in_fence hBody, List.singleton_append, hClosing]
    simp
  rw [List.cons_append, scanLines, LineScanner.next_of_opening? hFirst]
  exact congrArg ((none, first) :: ·) hCode

namespace Section

/-- Fenced code that is opened and closed between the lines of a source leaves its leaves and
containers as they are, with what they hold of each other. All of it stands in one run of Markdown of
the container that is open where it is put, after what is finished and pending there. -/
theorem skeleton_split_insert_code {a code b first last : Text} {body : List Text}
    {fence : CodeFence} (hBefore : a = [] ∨ a.getLast? = some '\n')
    (hOpen : (LineScanner.after {} (Text.lines a)).fence = none)
    (hCode : code.getLast? = some '\n' ∨ b = [])
    (hLines : Text.lines code = first :: (body ++ [last]))
    (hFirst : CodeFence.opening? first = some fence)
    (hBody : ∀ line ∈ body, fence.closedBy line = false) (hLast : fence.closedBy last = true) :
    skeleton (split (a ++ code ++ b)) = skeleton (split (a ++ b)) ∧
      ∃ state content more rest, state = resume {} ⟨.document, []⟩ a ∧
        OpenSections.EndsUpWith (split (a ++ code ++ b)) state.top state.outer content ∧
        content = state.top.content.reverse ++
          .markdown (state.top.pending ++ code ++ more) :: rest := by
  obtain ⟨list, hAfter⟩ : ∃ list, LineScanner.after {} (Text.lines a) = ⟨none, list⟩ := by
    cases hScanner : LineScanner.after {} (Text.lines a) with
    | mk fence list =>
        rw [hScanner] at hOpen
        cases hOpen
        exact ⟨list, rfl⟩
  have hWithout : scanLines {} (Text.lines (a ++ b)) = scanLines {} (Text.lines a) ++
      scanLines ⟨none, list⟩ (Text.lines b) := by
    rw [Text.lines_append_of_whole (hBefore.imp_right .inl), scanLines_append, hAfter]
  have hWith : scanLines {} (Text.lines (a ++ code ++ b)) = scanLines {} (Text.lines a) ++
      ((Text.lines code).map (none, ·) ++ scanLines ⟨none, list⟩ (Text.lines b)) := by
    rw [List.append_assoc, Text.lines_append_of_whole (hBefore.imp_right .inl),
      Text.lines_append_of_whole (.inr hCode), scanLines_append, hAfter, hLines,
      scanLines_code hFirst hBody hLast]
  constructor
  · rw [skeleton_split, skeleton_split, hWith, hWithout]
    simp
  · have hPending : ((Text.lines code).map (none, ·)).foldl OpenSections.next
        (resume {} ⟨.document, []⟩ a) =
        (resume {} ⟨.document, []⟩ a).addLine code := by
      rw [foldl_next_of_none (by simp)]
      simp [OpenSections.addLine, Text.flatten_lines]
    obtain ⟨content, hEnds, hContinues⟩ := OpenSections.exists_endsUpWith
      ((resume {} ⟨.document, []⟩ a).addLine code) (scanLines ⟨none, list⟩ (Text.lines b))
    have hSplit : split (a ++ code ++ b) = ((scanLines ⟨none, list⟩ (Text.lines b)).foldl
        OpenSections.next ((resume {} ⟨.document, []⟩ a).addLine code)).finish := by
      rw [split, hWith, List.foldl_append, List.foldl_append, ← hPending]
      rfl
    have hSolid : Text.isBlankText
        ((resume {} ⟨.document, []⟩ a).addLine code).top.pending = false := by
      have hFirstMem : first ∈ Text.lines code := by
        rw [hLines]
        exact List.mem_cons_self ..
      have hCodeSolid := Text.not_isBlankText_of_mem_lines hFirstMem
        (CodeFence.not_isBlankText_of_opening? hFirst)
      rw [OpenSections.addLine, Text.isBlankText, List.all_append]
      exact Bool.and_eq_false_iff.2 (.inr hCodeSolid)
    obtain ⟨more, rest, hContent⟩ := hContinues.pending hSolid
    refine ⟨_, content, more, rest, rfl, ?_, ?_⟩
    · rw [hSplit]
      exact hEnds.congr rfl
    · rw [← hContent, List.append_assoc]
      rfl

/-- Code with a leaf and a closing line in it, inside an open item of an open container. -/
theorem skeleton_split_insert_code_item :
    let a := text ":::note\n- item\n\n"
    let code := text "  ~~~\n:::\n::video\n~~~\n"
    let b := text "  more\n::image\n:::\n"
    (LineScanner.after {} (Text.lines a)).fence = none ∧
      skeleton (split (a ++ code ++ b)) =
        [.container ⟨text "note", {}⟩ [.leaf ⟨text "image", {}⟩]] ∧
      ∃ more rest others, split (a ++ code ++ b) =
        .container ⟨text "note", {}⟩
          (.markdown (text "- item\n\n" ++ code ++ more) :: rest) :: others := by
  have hState : resume {} ⟨.document, []⟩ (text ":::note\n- item\n\n") =
      ⟨{ colons := 3, directive := ⟨text "note", {}⟩, pending := text "- item\n\n" },
        [.document]⟩ := by cbv
  have hWithout : skeleton (split (text ":::note\n- item\n\n  more\n::image\n:::\n")) =
      [.container ⟨text "note", {}⟩ [.leaf ⟨text "image", {}⟩]] := by cbv
  intro a code b
  have hOpen : (LineScanner.after {} (Text.lines a)).fence = none := by decide
  have hLines : Text.lines code =
      text "  ~~~\n" :: ([text ":::\n", text "::video\n"] ++ [text "~~~\n"]) := by decide
  have hFirst : CodeFence.opening? (text "  ~~~\n") = some ⟨'~', 3⟩ := by decide
  have hBody : ∀ line ∈ [text ":::\n", text "::video\n"],
      CodeFence.closedBy ⟨'~', 3⟩ line = false := by decide
  have hLast : CodeFence.closedBy ⟨'~', 3⟩ (text "~~~\n") = true := by decide
  obtain ⟨hSkeleton, _, content, more, rest, rfl, hEnds, hContent⟩ :=
    skeleton_split_insert_code (a := a) (b := b) (.inr (by decide)) hOpen (.inl (by decide)) hLines
      hFirst hBody hLast
  have hInside : resume {} ⟨.document, []⟩ a =
      ⟨{ colons := 3, directive := ⟨text "note", {}⟩, pending := text "- item\n\n" },
        [.document]⟩ := hState
  rw [hInside] at hEnds hContent
  obtain ⟨others, hSplit⟩ := hEnds
  exact ⟨hOpen, hSkeleton.trans hWithout, more, rest, others, by rw [← hSplit, hContent]; rfl⟩

end Section

end DirectiveMarkdown
