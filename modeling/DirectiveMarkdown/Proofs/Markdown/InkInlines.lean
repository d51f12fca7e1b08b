import DirectiveMarkdown.Markdown.Event
import DirectiveMarkdown.Proofs.Markdown.InlineSteps
import DirectiveMarkdown.Proofs.Text.Ink
import DirectiveMarkdown.Proofs.Text.Lines

/-! The ink of inline content. A text is read piece by piece, and each piece has no more ink than the
part of the text that is used up for it. So the text in inline content has no more ink than the text
that it was read from. -/
namespace DirectiveMarkdown.Markdown

open Text

/-- The ink of the text that an event brings. -/
def Event.ink : Event → Nat
  | .text value => value.ink
  | _ => 0

@[simp] theorem Event.ink_text (value : Text) : (Event.text value).ink = value.ink := rfl

@[simp] theorem Event.total_around (tag : Tag) (inner : List Event) :
    total Event.ink (tag.around inner) = total Event.ink inner := by
  simp [Tag.around, Event.ink]

/-- The ink of the text in a piece of inline content. -/
def Inline.ink (inline : Inline) : Nat := total Event.ink inline.events

namespace Inline

theorem total_allEvents (content : List Inline) :
    total Event.ink (allEvents content) = total ink content := by
  induction content with
  | nil => rfl
  | cons inline rest ih => rw [allEvents, total_append, ih, total_cons, ink]

@[simp] theorem ink_text (value : Text) : (Inline.text value).ink = value.ink := by
  rw [ink, events, total_cons, total_nil, Event.ink_text, Nat.add_zero]

@[simp] theorem ink_link (url title : Text) (content : List Inline) :
    (Inline.link url title content).ink = total ink content := by
  rw [ink, events, Event.total_around, total_allEvents]

@[simp] theorem ink_image (url title : Text) (content : List Inline) :
    (Inline.image url title content).ink = total ink content := by
  rw [ink, events, Event.total_around, total_allEvents]

end Inline

def Delimiter.ink (delimiter : Delimiter) : Nat :=
  Text.ink (List.replicate delimiter.length delimiter.mark)

def Piece.ink : Piece → Nat
  | .node inline => inline.ink
  | .delimiter run => run.ink

def Opener.ink (opener : Opener) : Nat := opener.delimiter.ink + total Inline.ink opener.before

section Emphasis

variable {openers : List Opener} {content : List Inline}

@[simp] theorem Piece.ink_node (inline : Inline) : (Piece.node inline).ink = inline.ink := rfl

/-- Marks that are left over keep their ink as text. -/
theorem Delimiter.total_toInlines (delimiter : Delimiter) :
    total Inline.ink delimiter.toInlines = delimiter.ink := by
  unfold Delimiter.toInlines Delimiter.ink
  split
  · next hLength =>
      rw [hLength]
      rfl
  · rw [total_cons, Inline.ink_text, total_nil, Nat.add_zero]

/-- Fewer marks have less ink. -/
theorem Delimiter.ink_mono (delimiter : Delimiter) {length : Nat} (h : length ≤ delimiter.length) :
    Delimiter.ink { delimiter with length } ≤ delimiter.ink :=
  ink_replicate_mono h delimiter.mark

/-- Openers that are given up are text with their ink. -/
theorem total_giveUp (openers : List Opener) (content : List Inline) :
    total Inline.ink (giveUp openers content) =
      total Opener.ink openers + total Inline.ink content := by
  unfold giveUp
  induction openers generalizing content with
  | nil => rw [List.foldl_nil, total_nil, Nat.zero_add]
  | cons opener rest ih =>
      rw [List.foldl_cons, ih, total_append, total_append, Delimiter.total_toInlines, total_cons,
        Opener.ink]
      omega

/-- Finding an opener divides the openers without loss. -/
theorem total_of_findOpener {closer : Delimiter} {inner outer : List Opener} {found : Opener}
    (h : findOpener closer openers = some (inner, found, outer)) :
    total Opener.ink openers = total Opener.ink inner + found.ink + total Opener.ink outer := by
  induction openers generalizing inner with
  | nil => cases h
  | cons opener rest ih =>
      unfold findOpener at h
      split at h
      · cases h
        rw [total_cons, total_nil, Nat.zero_add]
      · obtain ⟨⟨nearer, other, further⟩, hFound, hEq⟩ := Option.map_eq_some_iff.1 h
        cases hEq
        rw [total_cons, total_cons, ih hFound]
        omega

theorem ink_wrap (mark : Char) (used : Nat) (content : List Inline) :
    (wrap mark used content).ink = total Inline.ink content := by
  unfold wrap
  split
  · rw [Inline.ink, Inline.events, Event.total_around, Inline.total_allEvents]
  · split <;> rw [Inline.ink, Inline.events, Event.total_around, Inline.total_allEvents]

/-- An opener that has only `left` of its marks left, with the node that the others open after it,
has no more ink than the opener and the node had. -/
theorem total_spendOpener_le (opener : Opener) (outer : List Opener) (node : Inline) {left : Nat}
    (hLeft : left ≤ opener.delimiter.length) :
    let state := if left = 0 then (outer, node :: opener.before)
      else ({ opener with delimiter := { opener.delimiter with length := left } } :: outer, [node])
    total Opener.ink state.1 + total Inline.ink state.2 ≤
      opener.ink + total Opener.ink outer + node.ink := by
  have hMarks := opener.delimiter.ink_mono hLeft
  rw [Opener.ink]
  dsimp only
  split
  · dsimp only
    rw [total_cons]
    omega
  · dsimp only
    rw [total_cons, Opener.ink, total_cons, total_nil]
    dsimp only
    omega

/-- Pairing a closing run makes no ink. -/
theorem total_close_le (fuel : Nat) (closer : Delimiter) (openers : List Opener)
    (content : List Inline) :
    total Opener.ink (close fuel closer openers content).2.1 +
        total Inline.ink (close fuel closer openers content).2.2 +
        Delimiter.ink { closer with length := (close fuel closer openers content).1 } ≤
      total Opener.ink openers + total Inline.ink content + closer.ink := by
  induction fuel generalizing closer openers content with
  | zero => exact Nat.le_refl _
  | succ fuel ih =>
      unfold close
      split
      · exact Nat.le_refl _
      · next inner opener outer hFound =>
          dsimp only
          generalize (if closer.mark = '~' then closer.length
            else if closer.length ≥ 2 ∧ opener.delimiter.length ≥ 2 then 2 else 1) = used
          have hSpent := total_spendOpener_le opener outer
            (wrap closer.mark used (giveUp inner content).reverse)
            (Nat.sub_le opener.delimiter.length used)
          rw [ink_wrap, total_reverse, total_giveUp] at hSpent
          dsimp only at hSpent
          have hState := Nat.le_trans hSpent (Nat.le_of_eq
            (show _ = total Opener.ink openers + total Inline.ink content by
              rw [total_of_findOpener hFound]
              omega))
          have hCloser := closer.ink_mono (Nat.sub_le closer.length used)
          by_cases hDone : closer.length - used = 0
          · rw [if_pos hDone]
            rw [hDone] at hCloser
            exact Nat.add_le_add hState hCloser
          · rw [if_neg hDone]
            exact Nat.le_trans (ih _ _ _) (Nat.add_le_add hState hCloser)

/-- Pairing the delimiters of pieces makes no ink. -/
theorem total_pairDelimiters_le (openers : List Opener) (content : List Inline)
    (pieces : List Piece) :
    total Inline.ink (pairDelimiters openers content pieces) ≤
      total Opener.ink openers + total Inline.ink content + total Piece.ink pieces := by
  induction pieces generalizing openers content with
  | nil =>
      rw [pairDelimiters, total_reverse, total_giveUp]
      exact Nat.le_refl _
  | cons piece rest ih =>
      rw [total_cons]
      cases piece with
      | node inline =>
          have hRest := ih openers (inline :: content)
          rw [total_cons] at hRest
          rw [pairDelimiters, Piece.ink_node]
          omega
      | delimiter run =>
          have hClosed := total_close_le run.length run openers content
          rw [pairDelimiters, Piece.ink]
          dsimp only
          generalize hEq : (if run.closes = true then close run.length run openers content
            else (run.length, openers, content)) = closed
          have hClosed : total Opener.ink closed.2.1 + total Inline.ink closed.2.2 +
              Delimiter.ink { run with length := closed.1 } ≤
                total Opener.ink openers + total Inline.ink content + run.ink := by
            rw [← hEq]
            split
            · exact hClosed
            · exact Nat.le_refl _
          obtain ⟨left, outer, inside⟩ := closed
          dsimp only at hClosed ⊢
          split
          · have hRest := ih outer inside
            omega
          · split
            · have hRest := ih (⟨{ run with length := left }, inside⟩ :: outer) []
              rw [total_cons, Opener.ink, total_nil] at hRest
              dsimp only at hRest
              omega
            · have hRest := ih outer (Delimiter.toInlines { run with length := left } ++ inside)
              rw [total_append, Delimiter.total_toInlines] at hRest
              omega

/-- Pairing delimiters adds no ink, since marks that are used have none. -/
theorem total_emphasize_le (pieces : List Piece) :
    total Inline.ink (emphasize pieces) ≤ total Piece.ink pieces := by
  have hPaired := total_pairDelimiters_le [] [] pieces
  rwa [total_nil, total_nil, Nat.zero_add] at hPaired

end Emphasis

def Bracket.ink (bracket : Bracket) : Nat := bracket.piece.ink + total Piece.ink bracket.before

def InlineState.ink (state : InlineState) : Nat :=
  total Piece.ink state.pieces + total Bracket.ink state.brackets

/-- Reading a text from a state makes no ink: what was read and the text that is left have no more
of it than the state and the text before. -/
def InlineState.Keeps (state : InlineState) (s : Text) (result : InlineState × Text) : Prop :=
  result.1.ink + result.2.ink ≤ state.ink + s.ink

namespace InlineState

variable {state : InlineState} {s rest : Text}

theorem ink_mk (brackets : List Bracket) (pieces : List Piece) (last : Option Char) :
    InlineState.ink ⟨brackets, pieces, last⟩ = total Piece.ink pieces + total Bracket.ink brackets :=
  rfl

theorem ink_push (state : InlineState) (node : Inline) (last : Char) :
    (state.push node last).ink = node.ink + state.ink := by
  rw [InlineState.push, ink_mk, total_cons, Piece.ink_node, Nat.add_assoc, InlineState.ink]

theorem keeps_piece (piece : Piece) (h : piece.ink + rest.ink ≤ s.ink) (last : Option Char) :
    state.Keeps s ({ state with pieces := piece :: state.pieces, last }, rest) := by
  unfold Keeps
  dsimp only
  rw [ink_mk, total_cons, InlineState.ink]
  omega

/-- A node may be read from a text that has its ink. -/
theorem keeps_push {node : Inline} (h : node.ink + rest.ink ≤ s.ink) (last : Char) :
    state.Keeps s (state.push node last, rest) :=
  keeps_piece (.node node) h (some last)

/-- A piece without text makes no ink. -/
theorem keeps_push_of_ink_eq_zero {node : Inline} (hNode : node.ink = 0) (h : rest.Sublist s)
    (last : Char) : state.Keeps s (state.push node last, rest) := by
  refine keeps_push ?_ last
  rw [hNode, Nat.zero_add]
  exact ink_mono h

/-- Open brackets that become text keep their ink. -/
theorem total_allPieces (state : InlineState) : total Piece.ink state.allPieces = state.ink := by
  obtain ⟨brackets, pieces, last⟩ := state
  unfold InlineState.allPieces InlineState.ink
  dsimp only
  induction brackets generalizing pieces with
  | nil => rfl
  | cons bracket outer ih =>
      rw [List.foldl_cons, ih, total_append, total_cons, total_cons, Bracket.ink]
      omega

theorem Bracket.ink_mk (image active crossed : Bool) (source : Text) (before : List Piece) :
    Bracket.ink ⟨image, active, crossed, source, before⟩ =
      Text.ink (if image then ['!', '['] else ['[']) + total Piece.ink before := by
  rw [Bracket.ink, Bracket.piece, Piece.ink_node, Inline.ink_text]

theorem ink_openBracket (state : InlineState) (image : Bool) (source : Text) :
    (state.openBracket image source).ink =
      state.ink + Text.ink (if image then ['!', '['] else ['[']) := by
  rw [InlineState.openBracket, InlineState.ink_mk, total_nil, total_cons, Bracket.ink_mk,
    InlineState.ink]
  generalize Text.ink (if image then ['!', '['] else ['[']) = mark
  split
  · next hBrackets =>
      rw [hBrackets]
      omega
  · next bracket more hBrackets =>
      have hCrossed : Bracket.ink { bracket with crossed := true } = bracket.ink := rfl
      rw [hBrackets, total_cons, total_cons, hCrossed]
      omega

/-- A link or an image has at most the ink of the brackets and of what stands between them. -/
theorem keeps_closeBracket (definitions : Definitions) (state : InlineState) (rest : Text) :
    state.Keeps (']' :: rest) (closeBracket definitions state rest) := by
  have hOwn : (Inline.text [']']).ink = 1 := rfl
  have hText : Text.ink (']' :: rest) = rest.ink + 1 := ink_cons_of_not_blank rfl rest
  unfold closeBracket
  split
  · exact keeps_push (Nat.le_of_eq (by rw [hOwn, hText, Nat.add_comm])) _
  · next bracket outer hBrackets =>
      have hState : state.ink =
          total Piece.ink state.pieces + (bracket.ink + total Bracket.ink outer) := by
        rw [InlineState.ink, hBrackets, total_cons]
      have hContent := total_emphasize_le state.pieces.reverse
      rw [total_reverse] at hContent
      rw [Bracket.ink] at hState
      unfold Keeps
      split
      · next target after hTarget =>
          have hAfter : after.Sublist rest := by
            split at hTarget
            · exact linkTarget?_sublist hTarget
            · cases hTarget
          have hAfter := ink_mono hAfter
          dsimp only
          split
          · dsimp only
            rw [InlineState.ink_mk, total_cons, Piece.ink_node, Inline.ink_image]
            omega
          · have hOuter := total_map_of_eq Bracket.ink (f := fun other =>
              if other.image then other else { other with active := false })
              (fun other => by split <;> rfl) outer
            dsimp only
            rw [InlineState.ink_mk, total_cons, Piece.ink_node, Inline.ink_link, hOuter]
            omega
      · dsimp only
        rw [InlineState.ink_mk, total_cons, Piece.ink_node, hOwn, total_append, total_cons]
        omega

/-- Plain text has the ink of the characters that it is read from. -/
theorem keeps_plainText (state : InlineState) (s : Text) : state.Keeps s (plainText state s) := by
  have hText := List.takeWhile_append_dropWhile (p := fun c => !isSpecial c) (l := s)
  unfold plainText
  dsimp only
  rw [drop_length_takeWhile]
  generalize (s.takeWhile fun c => !isSpecial c) = run at hText ⊢
  generalize (s.dropWhile fun c => !isSpecial c) = left at hText ⊢
  subst hText
  split
  · next rest =>
      have hAfter : (rest.dropWhile isInlineBlank).Sublist ('\n' :: rest) :=
        (List.dropWhile_sublist _).cons _
      have hBreak : ∀ hard : Prop, [Decidable hard] →
          (if hard then Inline.hardBreak else .softBreak).ink = 0 := by
        intro hard _
        split <;> rfl
      have hTrimmed := ink_mono (List.dropWhile_sublist (l := run.reverse) isInlineBlank)
      rw [ink_reverse] at hTrimmed
      have hTrimmedLine : ∀ trimmed : Text, trimmed.ink ≤ Text.ink run →
          (if trimmed.isEmpty then state else state.push (.text trimmed) '\n').ink ≤
            state.ink + Text.ink run := by
        intro trimmed hLe
        split
        · exact Nat.le_add_right ..
        · rw [ink_push, Inline.ink_text, Nat.add_comm]
          exact Nat.add_le_add_left hLe _
      have hState := hTrimmedLine _ (ink_reverse _ ▸ hTrimmed)
      have hRest := ink_mono hAfter
      unfold Keeps
      dsimp only
      rw [ink_push, hBreak, ink_append]
      omega
  · refine keeps_piece (.node (.text run)) (Nat.le_of_eq ?_) _
    rw [Piece.ink_node, Inline.ink_text, ink_append]

/-- A character that stands for itself. -/
theorem keeps_char (state : InlineState) (c : Char) (rest : Text) :
    state.Keeps (c :: rest) (state.push (.text [c]) c, rest) := by
  refine keeps_push ?_ c
  exact Nat.le_of_eq (by rw [Inline.ink_text, ← ink_append, List.singleton_append])

theorem keeps_openBracket (state : InlineState) (image : Bool) (rest : Text) :
    state.Keeps ((if image then ['!', '['] else ['[']) ++ rest)
      (state.openBracket image rest, rest) := by
  unfold Keeps
  dsimp only
  exact Nat.le_of_eq (by rw [ink_openBracket, Nat.add_assoc, ink_append])

/-- An address is the text of its own link. -/
theorem keeps_autolink {address after : Text} (h : autolink? s = some (address, after)) (c : Char) :
    state.Keeps (c :: s) (state.push (.link address [] [.text address]) '>', after) := by
  have hText : s.ink = address.ink + Text.ink ('>' :: after) := by
    rw [eq_of_autolink? h, ink_append]
  have hStart := ink_mono (List.sublist_cons_self c s)
  have hEnd := ink_mono (List.sublist_cons_self '>' after)
  refine keeps_push ?_ _
  rw [Inline.ink_link, total_cons, Inline.ink_text, total_nil]
  omega

/-- A reference stands for no more characters than the ampersand and the semicolon around it. -/
theorem keeps_characterReference {value after : Text}
    (h : characterReference? s = some (value, after)) :
    state.Keeps ('&' :: s) (state.push (.text value) ';', after) := by
  obtain ⟨hLength, hAfter⟩ := characterReference?_sublist h
  have hValue := ink_le_length value
  have hAfter := ink_lt_of_sublist rfl hAfter
  refine keeps_push ?_ _
  rw [Inline.ink_text, ink_cons_of_not_blank rfl]
  omega

/-- A run has the ink of its marks, whether they can be paired or not. -/
theorem ink_delimiterPiece (mark : Char) (length : Nat) (before after : Option Char) :
    (delimiterPiece mark length before after).ink = Text.ink (List.replicate length mark) := by
  unfold delimiterPiece
  dsimp only
  split <;> rfl

/-- A run of marks is read as a piece, or as text. -/
theorem keeps_delimiters (state : InlineState) (c : Char) (s : Text) (before after : Option Char) :
    state.Keeps s ({ state with
      pieces := delimiterPiece c (s.takeWhile (· == c)).length before after :: state.pieces,
      last := some c }, s.dropWhile (· == c)) := by
  have hMarks : s.takeWhile (· == c) = List.replicate (s.takeWhile (· == c)).length c :=
    List.eq_replicate_iff.2
      ⟨rfl, fun d hMem => beq_iff_eq.1 (List.all_eq_true.1 List.all_takeWhile d hMem)⟩
  refine keeps_piece _ (Nat.le_of_eq ?_) _
  rw [ink_delimiterPiece, ← hMarks, ← ink_append, List.takeWhile_append_dropWhile]

/-- One step of reading makes no ink. -/
theorem keeps_inlineStep (gfm : Bool) (definitions : Definitions) (state : InlineState) (c : Char)
    (rest : Text) : state.Keeps (c :: rest) (inlineStep gfm definitions state c rest) := by
  have hRead := inlineRead_inlineStep gfm definitions state c rest
  generalize inlineStep gfm definitions state c rest = result at hRead
  cases hRead with
  | hardBreak after =>
      exact keeps_push_of_ink_eq_zero rfl (((List.dropWhile_sublist _).cons _).cons _) _
  | escape after =>
      refine keeps_push ?_ _
      rw [Inline.ink_text, ← ink_append, List.singleton_append]
      exact ink_mono (List.sublist_cons_self ..)
  | softBreak => exact keeps_push_of_ink_eq_zero rfl ((List.dropWhile_sublist _).cons _) _
  | code hCode =>
      exact keeps_push_of_ink_eq_zero rfl
        ((codeEnd?_sublist hCode).trans (List.dropWhile_sublist _)) _
  | backticks =>
      refine keeps_push (Nat.le_of_eq ?_) _
      rw [Inline.ink_text, ← ink_append, List.takeWhile_append_dropWhile]
  | autolink hLink => exact keeps_autolink hLink '<'
  | html hHtml => exact keeps_push_of_ink_eq_zero rfl ((inlineHtml?_sublist hHtml).cons _) _
  | reference hReference => exact keeps_characterReference hReference
  | delimiters => exact keeps_delimiters state c (c :: rest) _ _
  | image after => exact keeps_openBracket state true after
  | openBracket => exact keeps_openBracket state false rest
  | closeBracket => exact keeps_closeBracket definitions state rest
  | mark => exact keeps_char state c rest
  | plain => exact keeps_plainText state (c :: rest)

/-- Reading inline content makes no ink. -/
theorem ink_readInlines_le (gfm : Bool) (definitions : Definitions) (fuel : Nat)
    (state : InlineState) (s : Text) :
    (readInlines gfm definitions fuel state s).ink ≤ state.ink + s.ink := by
  fun_induction readInlines gfm definitions fuel state s with
  | case1 => exact Nat.le_add_right ..
  | case2 => exact Nat.le_add_right ..
  | case3 fuel state c rest next after hStep ih =>
      have hKeeps := keeps_inlineStep gfm definitions state c rest
      rw [hStep] at hKeeps
      exact Nat.le_trans ih hKeeps

end InlineState

/-- Inline content has no more ink than the text that it was read from. -/
theorem total_inlines_le (gfm : Bool) (definitions : Definitions) (s : Text) :
    total Inline.ink (inlines gfm definitions s) ≤ s.ink := by
  have hTrimmed : ((s.dropWhile isAsciiBlank).reverse.dropWhile isAsciiBlank).reverse.Sublist s := by
    have hEnd := List.dropWhile_sublist (l := (s.dropWhile isAsciiBlank).reverse) isAsciiBlank
    exact (List.reverse_sublist.1 (by rwa [List.reverse_reverse])).trans
      (List.dropWhile_sublist _)
  have hTrimmed := ink_mono hTrimmed
  unfold inlines
  dsimp only
  generalize ((s.dropWhile isAsciiBlank).reverse.dropWhile isAsciiBlank).reverse = trimmed
    at hTrimmed ⊢
  have hRead := InlineState.ink_readInlines_le gfm definitions trimmed.length {} trimmed
  have hEmpty : InlineState.ink {} = 0 := rfl
  have hPaired := total_emphasize_le (readInlines gfm definitions trimmed.length {}
    trimmed).allPieces.reverse
  rw [total_reverse, InlineState.total_allPieces] at hPaired
  omega

end DirectiveMarkdown.Markdown
