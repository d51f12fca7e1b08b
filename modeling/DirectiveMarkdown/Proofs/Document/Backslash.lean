import DirectiveMarkdown.Proofs.Document.OneParagraph
import DirectiveMarkdown.Proofs.Markdown.Backslash

/-! The document of a line with a backslash before all punctuation. Its only text node is the line, but
directives are sought in that node, where no backslash is left: the line is text exactly if it holds
no directive without its backslashes. -/
namespace DirectiveMarkdown

open Markdown

variable {gfm : Bool} {s ending : Text}

/-- The line is one run of Markdown. -/
theorem Section.split_escapePunctuation (h : IsPrintedLine s)
    (hEnding : ending = [] ∨ ending = ['\n']) :
    Section.split (escapePunctuation s ++ ending) =
      [.markdown (escapePunctuation s ++ ending)] := by
  have hStart := h.startsPlain ending
  have hFeed : '\n' ∉ escapePunctuation s := by
    intro hMem
    rcases mem_escapePunctuation hMem with hEq | hMem
    · exact absurd hEq (by decide)
    · exact absurd (h.printed _ hMem) (by decide)
  have hLine := h.startsPlain []
  rw [List.append_nil] at hLine
  exact split_line hFeed hLine.not_isBlankText hEnding hStart.blockLine_read?

/-- Markdown gives back the line: one paragraph of one text node. -/
theorem fragment_escapePunctuation (h : IsPrintedLine s) (hEnding : ending = [] ∨ ending = ['\n']) :
    fragment gfm (escapePunctuation s ++ ending) =
      [{ kind := .paragraph, children := [.ofText s] }] := by
  obtain ⟨values, hValues, hInlines⟩ := inlines_escapePunctuation gfm [] h
  have hNe : values ≠ [] := by
    rintro rfl
    exact h.nonempty hValues.symm
  rw [fragment_run (Section.split_escapePunctuation h hEnding),
    markdownNodes_texts (structureOf_escapePunctuation gfm h hEnding) hInlines hNe, hValues]

/-- A text that holds no directive is its only piece. -/
theorem splitTextUpTo_eq_ofText_iff (label : Text → List Node) (hNe : s ≠ []) :
    splitTextUpTo label s.length none s = [.ofText s] ↔ InlineDirective.find? none s = none := by
  obtain ⟨c, rest, rfl⟩ := List.exists_cons_of_ne_nil hNe
  rw [List.length_cons, splitTextUpTo]
  cases hFound : InlineDirective.find? none (c :: rest) with
  | none => exact iff_of_true rfl rfl
  | some found =>
      refine iff_of_false ?_ nofun
      intro hEq
      have hMem : directiveNode label found.body ∈ [Node.ofText (c :: rest)] := by
        rw [← hEq]
        exact List.mem_append_right _ (List.mem_cons_self ..)
      exact absurd (congrArg Node.kind (List.mem_singleton.1 hMem)) nofun

/-- A text node is divided around the directives in it. -/
theorem expandAll_ofText (label : Text → Text → List Node) (hNe : s ≠ []) :
    Node.expandAll label [.ofText s] = splitTextUpTo (label s) s.length none s := by
  rw [Node.expandAll]
  cases hFound : InlineDirective.find? none s with
  | none =>
      rw [(splitTextUpTo_eq_ofText_iff (label s) hNe).2 hFound, if_neg]
      · rfl
      · intro hText
        have hSome := hText.2
        rw [show (Node.ofText s).value = s from rfl, hFound] at hSome
        cases hSome
  | some found =>
      rw [if_pos ⟨rfl, by rw [show (Node.ofText s).value = s from rfl, hFound]; rfl⟩]
      exact List.append_nil _

/-- The line is written as it is, with backslashes before its punctuation, and is read as one
paragraph. The directives in it are those of the text without backslashes, so it is read as text
exactly if there are none. -/
theorem parseDocument_escapePunctuation (gfm : Bool) (h : IsPrintedLine s)
    (hEnding : ending = [] ∨ ending = ['\n']) :
    parseDocument gfm (escapePunctuation s ++ ending) =
        { kind := .root
          children := [{ kind := .paragraph
                         children := splitTextUpTo (expandedLabel gfm s.length) s.length none s }] } ∧
      (parseDocument gfm (escapePunctuation s ++ ending) =
          { kind := .root
            children := [{ kind := .paragraph, children := [.ofText s] }] } ↔
        InlineDirective.find? none s = none) := by
  have hDocument : parseDocument gfm (escapePunctuation s ++ ending) =
      { kind := .root
        children := [{ kind := .paragraph
                       children := splitTextUpTo (expandedLabel gfm s.length) s.length none s }] } := by
    rw [parseDocument, fragment_escapePunctuation h hEnding,
      ← expandAll_ofText (fun value => expandedLabel gfm value.length) h.nonempty]
    rfl
  refine ⟨hDocument, ?_⟩
  rw [hDocument, ← splitTextUpTo_eq_ofText_iff (expandedLabel gfm s.length) h.nonempty]
  constructor
  · intro hEq
    simpa using hEq
  · intro hEq
    rw [hEq]

/-- Colons and brackets that no directive starts with are text again. -/
theorem parseDocument_escapePunctuation_colons :
    IsPrintedLine (text "10:30 [b](c) *d* ::f #g") ∧
      parseDocument true
          (text "10\\:30 \\[b\\]\\(c\\) \\*d\\* \\:\\:f \\#g\n") =
        { kind := .root
          children := [{ kind := .paragraph
                         children := [.ofText (text "10:30 [b](c) *d* ::f #g")] }] } := by
  have hPrinted : IsPrintedLine (text "10:30 [b](c) *d* ::f #g") := by
    decide
  refine ⟨hPrinted, ?_⟩
  exact (parseDocument_escapePunctuation true hPrinted (.inr rfl)).2.2 (by decide)

/-- With all its punctuation escaped a directive is a directive still. -/
theorem parseDocument_escapePunctuation_directive :
    IsPrintedLine (text ":a[b]") ∧ escapePunctuation (text ":a[b]") = text "\\:a\\[b\\]" ∧
      parseDocument true (text "\\:a\\[b\\]\n") =
        { kind := .root
          children := [{ kind := .paragraph
                         children := [{ kind := .textDirective
                                        name := some (text "a")
                                        children := [.ofText (text "b")] }] }] } ∧
      parseDocument true (text "\\:a\\[b\\]\n") ≠
        { kind := .root
          children := [{ kind := .paragraph, children := [.ofText (text ":a[b]")] }] } := by
  have hDirective : parseDocument true (text "\\:a\\[b\\]\n") =
      { kind := .root
        children := [{ kind := .paragraph
                       children := [{ kind := .textDirective
                                      name := some (text "a")
                                      children := [.ofText (text "b")] }] }] } := by
    cbv
  refine ⟨by decide, rfl, hDirective, ?_⟩
  rw [hDirective]
  intro hEq
  have hChildren := congrArg (fun node => node.children.flatMap Node.children) hEq
  exact absurd (congrArg Node.kind (List.cons.inj hChildren).1) (by decide)

end DirectiveMarkdown
