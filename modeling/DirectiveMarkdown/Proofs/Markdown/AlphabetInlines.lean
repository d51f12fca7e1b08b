import DirectiveMarkdown.Proofs.Markdown.InlineSteps
import DirectiveMarkdown.Proofs.Markdown.Pairing

/-! Inline content of text over an alphabet in which no character reference can start. Its text is over
the same alphabet, and it holds raw HTML only if angle brackets belong to the alphabet. -/
namespace DirectiveMarkdown

/-- The characters that a text may be made of. Markdown adds no others, since no character reference
starts with one of them. -/
structure Alphabet where
  holds : Char → Bool
  reference : holds '&' = false
  space : holds ' ' = true
  feed : holds '\n' = true
  exclamation : holds '!' = true
  opening : holds '[' = true
  closing : holds ']' = true
  replacement : holds '\ufffd' = true

variable {a : Alphabet}

namespace Text

def Over (a : Alphabet) (s : Text) : Prop := ∀ c ∈ s, a.holds c = true

variable {s t : Text}

theorem Over.sublist (h : s.Over a) (hSub : t.Sublist s) : t.Over a :=
  fun c hMem => h c (hSub.mem hMem)

theorem Over.append (hs : s.Over a) (ht : t.Over a) : Over a (s ++ t) :=
  List.forall_mem_append.2 ⟨hs, ht⟩

theorem over_replicate (n : Nat) {c : Char} (h : a.holds c = true) :
    Over a (List.replicate n c) := by
  intro d hMem
  rw [List.eq_of_mem_replicate hMem]
  exact h

theorem Over.reverse (h : s.Over a) : Over a s.reverse :=
  fun c hMem => h c (List.mem_reverse.1 hMem)

theorem over_join (hs : s.Over a) {pieces : List Text} (h : ∀ piece ∈ pieces, piece.Over a) :
    (join s pieces).Over a := by
  induction pieces with
  | nil => exact List.forall_mem_nil _
  | cons piece rest ih =>
      obtain ⟨hPiece, hRest⟩ := List.forall_mem_cons.1 h
      cases rest with
      | nil => exact hPiece
      | cons next rest => exact (hPiece.append hs).append (ih hRest)

end Text

namespace Markdown

/-- The text of the inline content is over the alphabet, and so is its raw HTML, which there is none of
unless angle brackets belong to the alphabet. -/
inductive Inline.Over (a : Alphabet) : Inline → Prop
  | text {value : Text} (h : value.Over a) : Over a (.text value)
  | softBreak : Over a .softBreak
  | hardBreak : Over a .hardBreak
  | code (value : Text) : Over a (.code value)
  | html {value : Text} (hOpens : a.holds '<' = true) (h : value.Over a) : Over a (.html value)
  | emphasis {content : List Inline} (h : ∀ inline ∈ content, Over a inline) :
    Over a (.emphasis content)
  | strong {content : List Inline} (h : ∀ inline ∈ content, Over a inline) : Over a (.strong content)
  | strikethrough {content : List Inline} (h : ∀ inline ∈ content, Over a inline) :
    Over a (.strikethrough content)
  | link (url title : Text) {content : List Inline} (h : ∀ inline ∈ content, Over a inline) :
    Over a (.link url title content)
  | image (url title : Text) {content : List Inline} (h : ∀ inline ∈ content, Over a inline) :
    Over a (.image url title content)

inductive Piece.Over (a : Alphabet) : Piece → Prop
  | node {inline : Inline} (h : inline.Over a) : Over a (.node inline)
  | delimiter {delimiter : Delimiter} (h : a.holds delimiter.mark = true) :
    Over a (.delimiter delimiter)

structure Opener.Over (a : Alphabet) (opener : Opener) : Prop where
  mark : a.holds opener.delimiter.mark = true
  before : ∀ inline ∈ opener.before, inline.Over a

section Emphasis

variable {openers : List Opener} {content : List Inline}

/-- Marks that are left over are text made of one character of the alphabet. -/
theorem Delimiter.over_toInlines {delimiter : Delimiter} (h : a.holds delimiter.mark = true) :
    ∀ inline ∈ delimiter.toInlines, inline.Over a := by
  unfold Delimiter.toInlines
  split
  · exact List.forall_mem_nil _
  · exact List.forall_mem_singleton.2 (.text (Text.over_replicate _ h))

/-- Openers that are given up become marks of the alphabet. -/
theorem over_giveUp (hOpeners : ∀ opener ∈ openers, opener.Over a)
    (hContent : ∀ inline ∈ content, inline.Over a) :
    ∀ inline ∈ giveUp openers content, inline.Over a := by
  unfold giveUp
  induction openers generalizing content with
  | nil => exact hContent
  | cons opener rest ih =>
      obtain ⟨hOpener, hRest⟩ := List.forall_mem_cons.1 hOpeners
      refine ih hRest ?_
      exact List.forall_mem_append.2
        ⟨List.forall_mem_append.2 ⟨hContent, Delimiter.over_toInlines hOpener.mark⟩, hOpener.before⟩

/-- Emphasis adds no text to its content. -/
theorem over_wrap (mark : Char) (used : Nat) (hContent : ∀ inline ∈ content, inline.Over a) :
    (wrap mark used content).Over a := by
  unfold wrap
  split
  · exact .strikethrough hContent
  · split
    · exact .strong hContent
    · exact .emphasis hContent

/-- Pairing runs keeps the openers and the content over the alphabet. -/
theorem pairingKeeps_over (a : Alphabet) : PairingKeeps (Piece.Over a) fun openers content =>
    (∀ opener ∈ openers, opener.Over a) ∧ ∀ inline ∈ content, inline.Over a where
  node := by
    rintro openers content node ⟨hNode⟩ ⟨hOpeners, hContent⟩
    exact ⟨hOpeners, List.forall_mem_cons.2 ⟨hNode, hContent⟩⟩
  opens := by
    rintro openers content run (hRun : Piece.Over a (.delimiter run)) ⟨hOpeners, hContent⟩ length
    obtain _ | hMark := hRun
    exact ⟨List.forall_mem_cons.2 ⟨⟨hMark, hContent⟩, hOpeners⟩, List.forall_mem_nil _⟩
  marks := by
    rintro openers content run (hRun : Piece.Over a (.delimiter run)) ⟨hOpeners, hContent⟩ length
    obtain _ | hMark := hRun
    exact ⟨hOpeners, List.forall_mem_append.2 ⟨Delimiter.over_toInlines hMark, hContent⟩⟩
  wraps := by
    rintro inner outer opener content ⟨hOpeners, hContent⟩ mark used
    obtain ⟨hInner, hOuter⟩ := List.forall_mem_append.1 hOpeners
    obtain ⟨hOpener, hOuter⟩ := List.forall_mem_cons.1 hOuter
    have hInside : ∀ inline ∈ (giveUp inner content).reverse, inline.Over a := fun inline hMem =>
      over_giveUp hInner hContent inline (List.mem_reverse.1 hMem)
    exact ⟨hOuter, List.forall_mem_cons.2 ⟨over_wrap mark used hInside, hOpener.before⟩⟩
  leaves := by
    rintro inner outer opener content ⟨hOpeners, hContent⟩ mark used length
    obtain ⟨hInner, hOuter⟩ := List.forall_mem_append.1 hOpeners
    obtain ⟨hOpener, hOuter⟩ := List.forall_mem_cons.1 hOuter
    have hInside : ∀ inline ∈ (giveUp inner content).reverse, inline.Over a := fun inline hMem =>
      over_giveUp hInner hContent inline (List.mem_reverse.1 hMem)
    exact ⟨List.forall_mem_cons.2 ⟨⟨hOpener.mark, hOpener.before⟩, hOuter⟩,
      List.forall_mem_singleton.2 (over_wrap mark used hInside)⟩

theorem over_emphasize {pieces : List Piece} (hPieces : ∀ piece ∈ pieces, piece.Over a) :
    ∀ inline ∈ emphasize pieces, inline.Over a := by
  have hStart : (∀ opener ∈ ([] : List Opener), opener.Over a) ∧
      ∀ inline ∈ ([] : List Inline), inline.Over a := ⟨List.forall_mem_nil _, List.forall_mem_nil _⟩
  obtain ⟨openers, content, ⟨hOpeners, hContent⟩, hPairs⟩ :=
    (pairingKeeps_over a).pairDelimiters hPieces hStart
  intro inline hMem
  rw [emphasize, hPairs] at hMem
  exact over_giveUp hOpeners hContent inline (List.mem_reverse.1 hMem)

end Emphasis

/-- The pieces that were read are over the alphabet, inside the open brackets and before them. -/
structure InlineState.Over (a : Alphabet) (state : InlineState) : Prop where
  pieces : ∀ piece ∈ state.pieces, piece.Over a
  before : ∀ bracket ∈ state.brackets, ∀ piece ∈ bracket.before, piece.Over a

/-- Reading ends in a state over the alphabet, before a text that stands in the given one. -/
structure InlineState.Reads (a : Alphabet) (s : Text) (result : InlineState × Text) : Prop where
  kept : result.1.Over a
  rest : result.2.Sublist s

/-- The text of a bracket, with or without an exclamation mark, is over every alphabet. -/
theorem Bracket.over_piece (bracket : Bracket) : bracket.piece.Over a := by
  unfold Bracket.piece
  refine .node (.text ?_)
  split
  · exact List.forall_mem_cons.2 ⟨a.exclamation, List.forall_mem_singleton.2 a.opening⟩
  · exact List.forall_mem_singleton.2 a.opening

namespace InlineState

variable {state : InlineState} {s rest : Text}

theorem Over.add (h : state.Over a) {piece : Piece} (hPiece : piece.Over a) (last : Option Char) :
    Over a { state with pieces := piece :: state.pieces, last } :=
  ⟨List.forall_mem_cons.2 ⟨hPiece, h.pieces⟩, h.before⟩

theorem Over.push (h : state.Over a) {node : Inline} (hNode : node.Over a) (last : Char) :
    (state.push node last).Over a :=
  h.add (.node hNode) (some last)

theorem Over.openBracket (h : state.Over a) (image : Bool) (source : Text) :
    (state.openBracket image source).Over a := by
  refine ⟨List.forall_mem_nil _, List.forall_mem_cons.2 ⟨h.pieces, ?_⟩⟩
  split
  · exact List.forall_mem_nil _
  · next bracket more hBrackets =>
      have hBefore := h.before
      rw [hBrackets] at hBefore
      exact List.forall_mem_cons.2 (List.forall_mem_cons.1 hBefore)

theorem Over.allPieces (h : state.Over a) : ∀ piece ∈ state.allPieces, piece.Over a := by
  obtain ⟨brackets, pieces, last⟩ := state
  obtain ⟨hPieces, hBefore⟩ := h
  unfold InlineState.allPieces
  dsimp only at hPieces hBefore ⊢
  induction brackets generalizing pieces with
  | nil => exact hPieces
  | cons bracket outer ih =>
      obtain ⟨hBracket, hOuter⟩ := List.forall_mem_cons.1 hBefore
      refine ih _ ?_ hOuter
      exact List.forall_mem_append.2
        ⟨hPieces, List.forall_mem_cons.2 ⟨bracket.over_piece, hBracket⟩⟩

/-- A closing bracket makes a link or stays text, of characters that were there before. -/
theorem reads_closeBracket (definitions : Definitions) (h : state.Over a) :
    Reads a rest (closeBracket definitions state rest) := by
  have hText : (Inline.text [']']).Over a := .text (List.forall_mem_singleton.2 a.closing)
  unfold closeBracket
  split
  · exact ⟨h.push hText _, List.Sublist.refl _⟩
  · next bracket outer hBrackets =>
      have hBefore := h.before
      rw [hBrackets] at hBefore
      obtain ⟨hBracket, hOuter⟩ := List.forall_mem_cons.1 hBefore
      split
      · next target after hTarget =>
          have hAfter : after.Sublist rest := by
            split at hTarget
            · exact linkTarget?_sublist hTarget
            · cases hTarget
          have hContent := over_emphasize fun piece hMem => h.pieces piece (List.mem_reverse.1 hMem)
          dsimp only
          split
          · exact ⟨⟨List.forall_mem_cons.2 ⟨.node (.image _ _ hContent), hBracket⟩, hOuter⟩, hAfter⟩
          · refine ⟨⟨List.forall_mem_cons.2 ⟨.node (.link _ _ hContent), hBracket⟩, ?_⟩, hAfter⟩
            refine List.forall_mem_map.2 ?_
            intro other hMem
            split <;> exact hOuter other hMem
      · refine ⟨⟨List.forall_mem_cons.2 ⟨.node hText, ?_⟩, hOuter⟩, List.Sublist.refl _⟩
        exact List.forall_mem_append.2
          ⟨h.pieces, List.forall_mem_cons.2 ⟨bracket.over_piece, hBracket⟩⟩

/-- Plain text is taken from the text that is read. -/
theorem reads_plainText (h : state.Over a) (hText : s.Over a) : Reads a s (plainText state s) := by
  have hRun : Text.Over a (s.takeWhile fun c => !isSpecial c) :=
    hText.sublist (List.takeWhile_sublist _)
  have hDropped := List.drop_sublist (s.takeWhile fun c => !isSpecial c).length s
  unfold plainText
  dsimp only
  split
  · next rest hRest =>
      rw [hRest] at hDropped
      have hAfter := (List.dropWhile_sublist isInlineBlank).trans
        ((List.sublist_cons_self '\n' rest).trans hDropped)
      have hTrimmed := (hRun.reverse.sublist (List.dropWhile_sublist isInlineBlank)).reverse
      have hBreak : ∀ hard : Prop, [Decidable hard] →
          (if hard then Inline.hardBreak else .softBreak).Over a := by
        intro hard _
        split
        · exact .hardBreak
        · exact .softBreak
      refine ⟨Over.push ?_ (hBreak _) _, hAfter⟩
      split
      · exact h
      · exact h.push (.text hTrimmed) _
  · exact ⟨h.add (.node (.text hRun)) _, hDropped⟩

/-- One step of reading text over the alphabet leaves such content. -/
theorem reads_inlineStep (gfm : Bool) (definitions : Definitions) (h : state.Over a) {c : Char}
    (hText : Text.Over a (c :: rest)) :
    Reads a (c :: rest) (inlineStep gfm definitions state c rest) := by
  obtain ⟨hHead, hRest⟩ := List.forall_mem_cons.1 hText
  have hRead := inlineRead_inlineStep gfm definitions state c rest
  generalize inlineStep gfm definitions state c rest = result at hRead
  cases hRead with
  | hardBreak after => exact ⟨h.push .hardBreak _, ((List.dropWhile_sublist _).cons _).cons _⟩
  | escape after =>
      obtain ⟨hNext, -⟩ := List.forall_mem_cons.1 hRest
      exact ⟨h.push (.text (List.forall_mem_singleton.2 hNext)) _,
        ((List.Sublist.refl _).cons _).cons _⟩
  | softBreak => exact ⟨h.push .softBreak _, (List.dropWhile_sublist _).cons _⟩
  | code hCode =>
      exact ⟨h.push (.code _) _, (codeEnd?_sublist hCode).trans (List.dropWhile_sublist _)⟩
  | backticks =>
      exact ⟨h.push (.text (hText.sublist (List.takeWhile_sublist _))) _, List.dropWhile_sublist _⟩
  | @autolink _ address after hLink =>
      rw [eq_of_autolink? hLink] at hRest ⊢
      have hAddress : Text.Over a address := fun d hMem => hRest d (List.mem_append_left _ hMem)
      exact ⟨h.push (.link _ _ (List.forall_mem_singleton.2 (.text hAddress))) _,
        ((List.sublist_cons_self ..).trans (List.sublist_append_right ..)).cons _⟩
  | @html _ after hHtml =>
      have hValue : Text.Over a ('<' :: rest.take (rest.length - after.length)) :=
        hText.sublist ((List.take_sublist _ _).cons_cons '<')
      exact ⟨h.push (.html hHead hValue) _, (inlineHtml?_sublist hHtml).cons _⟩
  | reference =>
      rw [a.reference] at hHead
      cases hHead
  | delimiters =>
      refine ⟨h.add ?_ _, List.dropWhile_sublist _⟩
      unfold delimiterPiece
      dsimp only
      split
      · exact .delimiter hHead
      · exact .node (.text (Text.over_replicate _ hHead))
  | image => exact ⟨h.openBracket _ _, ((List.Sublist.refl _).cons _).cons _⟩
  | openBracket => exact ⟨h.openBracket _ _, List.sublist_cons_self ..⟩
  | closeBracket =>
      have hReads : Reads a rest (closeBracket definitions state rest) :=
        reads_closeBracket definitions h
      exact ⟨hReads.kept, hReads.rest.cons _⟩
  | mark =>
      exact ⟨h.push (.text (List.forall_mem_singleton.2 hHead)) c, List.sublist_cons_self ..⟩
  | plain => exact reads_plainText h hText

/-- Any number of steps keeps the content over the alphabet. -/
theorem over_readInlines (gfm : Bool) (definitions : Definitions) (fuel : Nat) (h : state.Over a)
    (hText : s.Over a) : (readInlines gfm definitions fuel state s).Over a := by
  fun_induction readInlines gfm definitions fuel state s with
  | case1 => exact h
  | case2 => exact h
  | case3 fuel state c rest next after hStep ih =>
      have hReads := reads_inlineStep gfm definitions h hText
      rw [hStep] at hReads
      exact ih hReads.kept (hText.sublist hReads.rest)

end InlineState

/-- The inline content of text over the alphabet is over it. -/
theorem over_inlines (gfm : Bool) (definitions : Definitions) {s : Text} (hText : s.Over a) :
    ∀ inline ∈ inlines gfm definitions s, inline.Over a := by
  have hEmpty : InlineState.Over a {} :=
    ⟨List.forall_mem_nil _, List.forall_mem_nil _⟩
  have hTrimmed :=
    ((hText.sublist (List.dropWhile_sublist isAsciiBlank)).reverse.sublist
      (List.dropWhile_sublist isAsciiBlank)).reverse
  refine over_emphasize fun piece hMem => ?_
  exact (InlineState.over_readInlines gfm definitions _ hEmpty hTrimmed).allPieces piece
    (List.mem_reverse.1 hMem)

end Markdown

end DirectiveMarkdown
