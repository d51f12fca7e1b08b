import DirectiveMarkdown.Proofs.Markdown.LabelText
import DirectiveMarkdown.Proofs.Markdown.Pairing
import DirectiveMarkdown.Proofs.Markdown.TextLine

/-! A reference to a link in the middle of a sentence, and the line that defines the link. The reference
becomes a link if its label is defined. If not, the text before the label and the bracket that opens it
come first in the content of the sentence, whatever delimiters the label holds. -/
namespace DirectiveMarkdown.Markdown

section Outermost

variable {kept : List Inline}

/-- The content before all runs that still wait for others, last first. -/
def outermost (openers : List Opener) (content : List Inline) : List Inline :=
  openers.foldl (fun _ opener => opener.before) content

/-- Openers that are given up leave the content before them in place. -/
theorem outermost_suffix_giveUp (openers : List Opener) (content : List Inline) :
    outermost openers content <:+ giveUp openers content := by
  induction openers generalizing content with
  | nil => exact List.suffix_refl _
  | cons opener outer ih =>
      refine List.IsSuffix.trans ?_ (ih _)
      rw [outermost, List.foldl_cons]
      cases outer with
      | nil => exact List.suffix_append _ _
      | cons next outer => exact List.suffix_refl _

theorem suffix_outermost_append {openers : List Opener} {content : List Inline}
    (h : kept <:+ outermost openers content) (more : List Inline) :
    kept <:+ outermost openers (more ++ content) := by
  cases openers with
  | nil => exact List.IsSuffix.trans h (List.suffix_append _ _)
  | cons opener outer => exact h

/-- What was read before all delimiters is not touched. -/
theorem pairingKeeps_outermost (kept : List Inline) :
    PairingKeeps (fun _ => True) fun openers content => kept <:+ outermost openers content where
  node := fun {_ _ node} _ h => suffix_outermost_append h [node]
  opens := fun _ h _ => h
  marks := fun _ h _ => suffix_outermost_append h _
  wraps := by
    intro inner outer opener content h mark used
    rw [outermost, List.foldl_append, List.foldl_cons] at h
    exact suffix_outermost_append h [_]
  leaves := by
    intro inner outer opener content h mark used length
    rw [outermost, List.foldl_append, List.foldl_cons] at h
    exact h

/-- Nodes before all other pieces come first in the content. -/
theorem prefix_emphasize (nodes : List Inline) (pieces : List Piece) :
    nodes <+: emphasize (nodes.map .node ++ pieces) := by
  have hStart : nodes.reverse <:+ outermost [] nodes.reverse := List.suffix_refl _
  obtain ⟨openers, content, hKept, hPairs⟩ := (pairingKeeps_outermost nodes.reverse).pairDelimiters
    (fun piece (_ : piece ∈ pieces) => trivial) hStart
  have hPrefix := List.reverse_prefix.2 (hKept.trans (outermost_suffix_giveUp openers content))
  rw [List.reverse_reverse] at hPrefix
  rw [emphasize, pairDelimiters_nodes_append, List.append_nil, hPairs]
  exact hPrefix

end Outermost

section Definition

variable {s label after target url : Text}

/-- A label that is closed stays the same, whatever follows. -/
theorem labelBody?_append (h : labelBody? s = some (label, after)) (more : Text) :
    labelBody? (s ++ more) = some (label, after ++ more) := by
  fun_induction labelBody? s generalizing label with
  | case1 => cases h
  | case2 c rest ih =>
      obtain ⟨⟨inner, left⟩, hRest, hEq⟩ := Option.map_eq_some_iff.1 h
      cases hEq
      rw [List.cons_append, List.cons_append, labelBody?, ih hRest]
      rfl
  | case3 rest =>
      cases h
      rfl
  | case4 => cases h
  | case5 c rest hEscape hClose hOpen ih =>
      obtain ⟨⟨inner, left⟩, hRest, hEq⟩ := Option.map_eq_some_iff.1 h
      cases hEq
      rw [List.cons_append, labelBody?, if_neg hClose, if_neg hOpen, ih hRest]
      · rfl
      · rintro d other rfl
        intro hEq
        have hFollowed : rest ≠ [] := by
          rintro rfl
          cases hRest
        obtain ⟨e, other, rfl⟩ := List.exists_cons_of_ne_nil hFollowed
        exact hEscape e other rfl rfl

/-- A label in brackets is read as this label, whatever follows. -/
theorem linkLabel?_append (h : linkLabel? ('[' :: (label ++ [']'])) = some (label, []))
    (more : Text) : linkLabel? ('[' :: (label ++ ']' :: more)) = some (label, more) := by
  obtain ⟨⟨inner, left⟩, hBody, hKept⟩ := Option.bind_eq_some_iff.1 h
  dsimp only at hKept
  split at hKept
  · cases hKept
  · next hSize =>
      cases hKept
      have hMore := labelBody?_append hBody more
      rw [List.append_assoc, List.nil_append] at hMore
      rw [linkLabel?]
      exact (congrArg (fun found : Option (Text × Text) => found.bind _) hMore).trans (if_neg hSize)

theorem labelBody?_of_linkLabel? (h : linkLabel? ('[' :: (label ++ [']'])) = some (label, []))
    (more : Text) : labelBody? (label ++ ']' :: more) = some (label, more) := by
  obtain ⟨⟨inner, left⟩, hBody, hKept⟩ := Option.bind_eq_some_iff.1 (linkLabel?_append h more)
  dsimp only at hKept
  split at hKept
  · cases hKept
  · cases hKept
    exact hBody

/-- A destination starts with no white space. -/
theorem not_isAsciiBlank_of_linkDestination? (h : linkDestination? target = some (url, [])) :
    ∀ c ∈ target.head?, isAsciiBlank c = false := by
  intro c hMem
  cases target with
  | nil => cases hMem
  | cons d rest =>
      cases hMem
      cases hBlank : isAsciiBlank c with
      | false => rfl
      | true =>
          simp only [isAsciiBlank, Bool.or_eq_true, beq_iff_eq] at hBlank
          rcases hBlank with ((((rfl | rfl) | rfl) | rfl) | rfl) | rfl <;> cases h

/-- A line that defines a link. -/
theorem definition?_line (hLabel : linkLabel? ('[' :: (label ++ [']'])) = some (label, []))
    (hTarget : linkDestination? target = some (url, [])) (hNe : target ≠ []) :
    definition? ('[' :: (label ++ ']' :: ':' :: ' ' :: target)) =
      some (normalizeLabel label, ⟨url, []⟩, []) := by
  have hStart : skipBlanks (' ' :: target) = target := by
    have hSelf := dropWhile_eq_self (not_isAsciiBlank_of_linkDestination? hTarget)
    rw [skipBlanks, List.dropWhile_cons_of_pos rfl, hSelf]
  rw [definition?, List.dropWhile_cons_of_neg (by decide), linkLabel?_append hLabel,
    Option.bind_some]
  simp only [hStart, hTarget]
  cases target with
  | nil => exact absurd rfl hNe
  | cons c rest => rfl

end Definition

/-- The sentence `See [label].` with a reference. -/
def sentence (label : Text) : Text := 'S' :: 'e' :: 'e' :: ' ' :: '[' :: (label ++ [']', '.'])

section Sentence

variable {gfm : Bool} {definitions : Definitions} {label : Text}

def sentenceBracket (label : Text) : Bracket :=
  ⟨false, true, false, label ++ [']', '.'], [.node (.text ['S', 'e', 'e', ' '])]⟩

/-- Reading the sentence comes to the end of the label with its opening bracket as the only open one. -/
theorem readInlines_sentence (hLabel : labelBody? (label ++ [']', '.']) = some (label, ['.']))
    (hFeed : '\n' ∉ label) :
    ∃ fuel more last, 1 < fuel ∧
      readInlines gfm definitions (sentence label).length {} (sentence label) =
        readInlines gfm definitions fuel ⟨[sentenceBracket label], more, last⟩ [']', '.'] := by
  have hInside : '\n' ∉ label ++ [']', '.'] := by
    rw [List.mem_append, not_or]
    exact ⟨hFeed, by decide⟩
  have hTail : EndsNothing ['.'] := List.forall_mem_singleton.2 (by decide)
  obtain ⟨fuel, more, last, hFuel, hRead⟩ := readInlines_label gfm definitions hLabel hInside hTail
    (Nat.le_add_right _ 3) ⟨[sentenceBracket label], [], some '['⟩
  refine ⟨fuel, more, last, hFuel, ?_⟩
  rw [List.append_nil] at hRead
  have hLength : (sentence label).length = (label ++ [']', '.']).length + 3 + 2 := by
    simp [sentence]
  have hText : '\n' ∉ sentence label := by
    simp [sentence, hFeed]
  have hFirst : inlineStep gfm definitions {} 'S'
      ('e' :: 'e' :: ' ' :: '[' :: (label ++ [']', '.'])) =
      (⟨[], [.node (.text ['S', 'e', 'e', ' '])], some ' '⟩, '[' :: (label ++ [']', '.'])) := by
    rw [inlineStep_of_not_isSpecial rfl]
    exact plainText_of_oneLine hText _
  rw [hLength, sentence, readInlines, hFirst]
  exact hRead

/-- The closing bracket asks for the definition of the label. -/
theorem linkTarget?_sentence : linkTarget? definitions (sentenceBracket label) ['.'] =
    (definitions.find? label).map fun target => (target, ['.']) := by
  have hTarget : inlineTarget? ['.'] = none := rfl
  have hNext : linkLabel? ['.'] = none := rfl
  simp [linkTarget?, hTarget, hNext, sentenceBracket]

/-- The pieces of the sentence. The reference is one of them if its label is defined. -/
theorem allPieces_sentence (gfm : Bool) (definitions : Definitions)
    (hLabel : labelBody? (label ++ [']', '.']) = some (label, ['.'])) (hFeed : '\n' ∉ label) :
    ∃ more, (readInlines gfm definitions (sentence label).length {} (sentence label)).allPieces =
      .node (.text ['.']) :: match definitions.find? label with
        | some target => [.node (.link target.url target.title (emphasize more)),
            .node (.text ['S', 'e', 'e', ' '])]
        | none => .node (.text [']']) :: (more.reverse ++ [.node (.text ['[']),
            .node (.text ['S', 'e', 'e', ' '])]) := by
  obtain ⟨fuel, more, last, hFuel, hRead⟩ := readInlines_sentence hLabel hFeed
  obtain ⟨fuel, rfl⟩ : ∃ less, fuel = less + 2 := ⟨fuel - 2, by omega⟩
  have hStep : readInlines gfm definitions (fuel + 2) ⟨[sentenceBracket label], more, last⟩
      [']', '.'] = readInlines gfm definitions (fuel + 1)
        (closeBracket definitions ⟨[sentenceBracket label], more, last⟩ ['.']).1
        (closeBracket definitions ⟨[sentenceBracket label], more, last⟩ ['.']).2 := rfl
  refine ⟨more.reverse, ?_⟩
  rw [hRead, hStep, closeBracket]
  simp only [linkTarget?_sentence]
  cases definitions.find? label with
  | some target => exact allPieces_readInlines_nil fuel rfl
  | none =>
      rw [List.reverse_reverse]
      exact allPieces_readInlines_nil fuel rfl

theorem inlines_sentence (gfm : Bool) (definitions : Definitions) (label : Text) :
    inlines gfm definitions (sentence label) = emphasize
      (readInlines gfm definitions (sentence label).length {} (sentence label)).allPieces.reverse := by
  refine inlines_of_solid gfm definitions ?_ ?_
  · intro c hMem
    obtain rfl : 'S' = c := by simpa [sentence] using hMem
    rfl
  · have hLast : (sentence label).getLast? = some '.' := by
      rw [sentence, ← List.cons_append, ← List.cons_append, ← List.cons_append, ← List.cons_append,
        ← List.cons_append, List.getLast?_append]
      rfl
    rw [hLast]
    rintro c ⟨⟩
    rfl

/-- A reference with a definition is a link. -/
theorem inlines_sentence_of_some (gfm : Bool)
    (hLabel : labelBody? (label ++ [']', '.']) = some (label, ['.'])) (hFeed : '\n' ∉ label)
    {target : Definition} (hFound : definitions.find? label = some target) :
    ∃ content, inlines gfm definitions (sentence label) =
      [.text ['S', 'e', 'e', ' '], .link target.url target.title content, .text ['.']] := by
  obtain ⟨more, hPieces⟩ := allPieces_sentence gfm definitions hLabel hFeed
  refine ⟨emphasize more, ?_⟩
  rw [inlines_sentence, hPieces, hFound]
  exact emphasize_nodes [.text ['S', 'e', 'e', ' '], .link _ _ _, .text ['.']]

/-- A reference without a definition stays text from its opening bracket on. -/
theorem inlines_sentence_of_none (gfm : Bool)
    (hLabel : labelBody? (label ++ [']', '.']) = some (label, ['.'])) (hFeed : '\n' ∉ label)
    (hNone : definitions.find? label = none) :
    [.text ['S', 'e', 'e', ' '], .text ['[']] <+: inlines gfm definitions (sentence label) := by
  obtain ⟨more, hPieces⟩ := allPieces_sentence gfm definitions hLabel hFeed
  have hPrefix := prefix_emphasize [.text ['S', 'e', 'e', ' '], .text ['[']]
    (more ++ [.node (.text [']']), .node (.text ['.'])])
  rw [inlines_sentence, hPieces, hNone]
  simpa using hPrefix

end Sentence

end DirectiveMarkdown.Markdown
