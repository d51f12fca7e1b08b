import DirectiveMarkdown.Markdown.Emphasis

/-! What the pairing of delimiters keeps. A property of the openers and of the content after them holds
to the end, if it survives each change that a piece can make. -/
namespace DirectiveMarkdown.Markdown

variable {good : Piece → Prop} {p : List Opener → List Inline → Prop}
  {openers inner outer : List Opener} {opener : Opener} {content : List Inline}

/-- The openers are those inside the one that was found, this one and those outside it. -/
theorem eq_of_findOpener {closer : Delimiter}
    (h : findOpener closer openers = some (inner, opener, outer)) :
    openers = inner ++ opener :: outer := by
  induction openers generalizing inner with
  | nil => cases h
  | cons first rest ih =>
      unfold findOpener at h
      split at h
      · cases h
        rfl
      · obtain ⟨⟨nearer, other, further⟩, hFound, hEq⟩ := Option.map_eq_some_iff.1 h
        cases hEq
        rw [ih hFound]
        rfl

/-- The property is kept by what pieces of which `good` holds do to the openers and the content: a node
is added, a run waits as an opener, marks of a run become text, and content between paired runs becomes
a node, after which the opener is used up or has fewer marks left. -/
structure PairingKeeps (good : Piece → Prop) (p : List Opener → List Inline → Prop) : Prop where
  node : ∀ {openers : List Opener} {content : List Inline} {node : Inline}, good (.node node) →
    p openers content → p openers (node :: content)
  opens : ∀ {openers : List Opener} {content : List Inline} {run : Delimiter}, good (.delimiter run) →
    p openers content → ∀ length, p (⟨{ run with length }, content⟩ :: openers) []
  marks : ∀ {openers : List Opener} {content : List Inline} {run : Delimiter}, good (.delimiter run) →
    p openers content → ∀ length, p openers (Delimiter.toInlines { run with length } ++ content)
  wraps : ∀ {inner outer : List Opener} {opener : Opener} {content : List Inline},
    p (inner ++ opener :: outer) content → ∀ mark used,
      p outer (wrap mark used (giveUp inner content).reverse :: opener.before)
  leaves : ∀ {inner outer : List Opener} {opener : Opener} {content : List Inline},
    p (inner ++ opener :: outer) content → ∀ mark used length,
      p ({ opener with delimiter := { opener.delimiter with length } } :: outer)
        [wrap mark used (giveUp inner content).reverse]

/-- Pairing a closing run with openers keeps the property. -/
theorem PairingKeeps.close (h : PairingKeeps good p) (fuel : Nat) (closer : Delimiter)
    (hHolds : p openers content) :
    p (close fuel closer openers content).2.1 (close fuel closer openers content).2.2 := by
  induction fuel generalizing closer openers content with
  | zero => exact hHolds
  | succ fuel ih =>
      unfold Markdown.close
      split
      · exact hHolds
      · next inner opener outer hFound =>
          rw [eq_of_findOpener hFound] at hHolds
          dsimp only
          generalize (if closer.mark = '~' then closer.length
            else if closer.length ≥ 2 ∧ opener.delimiter.length ≥ 2 then 2 else 1) = used
          have hNext : ∀ left : Nat,
              let state := if left = 0 then
                  (outer, wrap closer.mark used (giveUp inner content).reverse :: opener.before)
                else ({ opener with delimiter := { opener.delimiter with length := left } } :: outer,
                  [wrap closer.mark used (giveUp inner content).reverse])
              p state.1 state.2 := by
            intro left
            dsimp only
            split
            · exact h.wraps hHolds _ _
            · exact h.leaves hHolds _ _ _
          have hState := hNext (opener.delimiter.length - used)
          by_cases hDone : closer.length - used = 0
          · rw [if_pos hDone]
            exact hState
          · rw [if_neg hDone]
            exact ih _ hState

/-- The content is what is left when the openers that still wait at the end are given up. -/
theorem PairingKeeps.pairDelimiters (h : PairingKeeps good p) {pieces : List Piece}
    (hPieces : ∀ piece ∈ pieces, good piece) (hHolds : p openers content) :
    ∃ openers' content', p openers' content' ∧
      pairDelimiters openers content pieces = (giveUp openers' content').reverse := by
  induction pieces generalizing openers content with
  | nil => exact ⟨openers, content, hHolds, rfl⟩
  | cons piece rest ih =>
      obtain ⟨hPiece, hRest⟩ := List.forall_mem_cons.1 hPieces
      cases piece with
      | node node => exact ih hRest (h.node hPiece hHolds)
      | delimiter run =>
          rw [Markdown.pairDelimiters]
          dsimp only
          have hClosed : p
              (if run.closes then Markdown.close run.length run openers content
                else (run.length, openers, content)).2.1
              (if run.closes then Markdown.close run.length run openers content
                else (run.length, openers, content)).2.2 := by
            split
            · exact h.close _ _ hHolds
            · exact hHolds
          generalize (if run.closes = true then Markdown.close run.length run openers content
            else (run.length, openers, content)) = closed at hClosed ⊢
          split
          · exact ih hRest hClosed
          · split
            · exact ih hRest (h.opens hPiece hClosed _)
            · exact ih hRest (h.marks hPiece hClosed _)

/-- Nodes before all delimiters are content at once. -/
theorem pairDelimiters_nodes_append (content nodes : List Inline) (pieces : List Piece) :
    Markdown.pairDelimiters [] content (nodes.map .node ++ pieces) =
      Markdown.pairDelimiters [] (nodes.reverse ++ content) pieces := by
  induction nodes generalizing content with
  | nil => rfl
  | cons node rest ih =>
      rw [List.map_cons, List.cons_append, Markdown.pairDelimiters, ih]
      simp

/-- Nodes without delimiters are the content. -/
theorem emphasize_nodes (nodes : List Inline) : emphasize (nodes.map .node) = nodes := by
  have hNodes := pairDelimiters_nodes_append [] nodes []
  rw [List.append_nil, List.append_nil] at hNodes
  rw [emphasize, hNodes, Markdown.pairDelimiters, giveUp, List.foldl_nil, List.reverse_reverse]

end DirectiveMarkdown.Markdown
