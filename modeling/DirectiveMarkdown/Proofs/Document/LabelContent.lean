import DirectiveMarkdown.Proofs.Document.Depth
import DirectiveMarkdown.Proofs.Document.LabelHtml
import DirectiveMarkdown.Proofs.Markdown.AlphabetEvents
import DirectiveMarkdown.Proofs.Markdown.SourceLines
import DirectiveMarkdown.Proofs.Shape.Document

/-! The content of a label of one line without brackets and colons. It does not depend on where the label
stands, nor on whether its characters were read before. Only character references can bring directives
into it. -/
namespace DirectiveMarkdown

open Markdown

section Colons

variable {s : Text}

theorem Text.hasDoubleColon_of_not_mem (h : ':' ∉ s) : hasDoubleColon s = false := by
  induction s with
  | nil => rfl
  | cons c s ih =>
      rw [List.mem_cons, not_or] at h
      rw [hasDoubleColon, ih h.2, beq_eq_false_iff_ne.2 (Ne.symm h.1)]
      rfl

/-- Without colons nothing is read again. -/
theorem reread?_of_not_mem (h : ':' ∉ s) (read : Text → List Node) :
    reread? read s = fun _ _ => none := by
  have hSpan (span : Span) : Text.hasDoubleColon (span.slice s) = false :=
    Text.hasDoubleColon_of_not_mem fun hMem => h ((span.slice_sublist s).subset hMem)
  funext tag inner
  cases tag with
  | quote span => simp [reread?, hSpan]
  | item span => simp [reread?, hSpan]
  | _ => rfl

/-- Markdown without colons is read as its characters are, whatever is done with containers. -/
theorem markdownNodes_readCharacter (gfm : Bool) (h : ':' ∉ s) (read other : Text → List Node) :
    markdownNodes gfm read (s.map readCharacter) = markdownNodes gfm other s := by
  have hRead : ':' ∉ s.map readCharacter :=
    fun hMem => h ((mem_map_readCharacter_iff (by decide) (by decide) s).1 hMem)
  have hEvents : events gfm (s.map readCharacter) = events gfm s := by
    have hLines : sourceLines (s.map readCharacter) = sourceLines s :=
      sourceLinesFrom_readCharacter ..
    rw [events, blocks, structureOf, hLines, List.length_map, events, blocks, structureOf]
  rw [markdownNodes, markdownNodes, reread?_of_not_mem h, reread?_of_not_mem hRead, hEvents]

end Colons

/-- A label of one line without brackets and colons. -/
structure IsInlineLabel (label : Text) : Prop where
  nonempty : label ≠ []
  plain : ∀ c ∈ label, c ∉ ['\n', '\r', '[', ']', ':']

def labelContent (gfm : Bool) (label : Text) : List Node :=
  Node.expandAll (fun value => expandedLabel gfm value.length) (inlineNodes gfm label)

section Content

variable {gfm : Bool} {label : Text}

theorem IsInlineLabel.not_mem (h : IsInlineLabel label) {c : Char}
    (hChar : c ∈ ['\n', '\r', '[', ']', ':']) : c ∉ label :=
  fun hMem => h.plain c hMem hChar

/-- Reading a label gives such a label again. -/
theorem IsInlineLabel.read (h : IsInlineLabel label) : IsInlineLabel (label.map readCharacter) where
  nonempty := by simpa using h.nonempty
  plain := by
    intro c hMem hChar
    have hKept : c ≠ '\x00' ∧ c ≠ '\ufffd' := by
      constructor <;> rintro rfl <;> exact absurd hChar (by decide)
    exact h.plain c ((mem_map_readCharacter_iff hKept.1 hKept.2 label).1 hMem) hChar

/-- The content of a label is that of the characters that are read of it. -/
theorem inlineNodes_readCharacter (gfm : Bool) (h : IsInlineLabel label) :
    inlineNodes gfm (label.map readCharacter) = inlineNodes gfm label := by
  rw [inlineNodes, inlineNodes, labelNodes, labelNodes, List.isEmpty_map,
    markdownNodes_readCharacter gfm (h.not_mem (by decide))]

/-- At any depth that the length of the label bounds, its content is the same. -/
theorem expandedLabel_eq_labelContent (gfm : Bool) {depth : Nat} (h : label.length ≤ depth) :
    expandedLabel gfm (depth + 1) label = labelContent gfm label := by
  have hFits := textFits_inlineOver (addsNoText_events gfm) label
  rw [← fragmentUpTo_eq] at hFits
  refine Node.expandAll_congr _ fun entry hEntry => ?_
  have hCount := Node.countP_lt_of_mem_allLabels rfl hFits hEntry
  have hRoot : entry ∈ Node.labels { kind := .root, children := inlineNodes gfm label } := hEntry
  have hShort := Node.length_lt_of_mem_labels hRoot
  have hLabel := label.countP_le_length (p := fun c => !isAsciiBlank c)
  have hEntryLabel := entry.2.countP_le_length (p := fun c => !isAsciiBlank c)
  rw [expandedLabel_eq, expandedLabel_eq]
  exact labelOver_congr rfl (addsNoText_events gfm) .empty .empty (by omega) (by omega)

theorem InlineDirective.find?_of_not_mem {s : Text} (h : ':' ∉ s) (previous : Option Char) :
    InlineDirective.find? previous s = none := by
  induction s generalizing previous with
  | nil => rfl
  | cons c s ih =>
      rw [List.mem_cons, not_or] at h
      rw [find?, if_neg fun hStart => h.1 hStart.1.symm, ih h.2]
      rfl

/-- No text in the tree holds a directive. -/
def Node.IsExpanded (node : Node) : Prop :=
  node.Everywhere fun other => other.kind = .text → InlineDirective.find? none other.value = none

/-- Expansion changes nothing where no text holds a directive. -/
theorem Node.IsExpanded.expandWith_eq_self {node : Node} (h : node.IsExpanded)
    (label : Text → Text → List Node) : node.expandWith label = node := by
  induction h with
  | @intro node _ hBelow ih =>
      have hChildren : ∀ nodes : List Node, (∀ child ∈ nodes, child ∈ node.children) →
          Node.expandAll label nodes = nodes := by
        intro nodes hNodes
        induction nodes with
        | nil => rfl
        | cons child rest ihRest =>
            obtain ⟨hChild, hRest⟩ := List.forall_mem_cons.1 hNodes
            obtain ⟨hNone, -⟩ := hBelow child hChild
            rw [expandAll, if_neg, ih child hChild, ihRest hRest, List.singleton_append]
            rintro ⟨hText, hFound⟩
            rw [hNone hText] at hFound
            cases hFound
      rw [expandWith_eq]
      exact with_children_eq (hChildren node.children fun _ hMem => hMem).symm

/-- The characters that are neither colons nor start character references. -/
def colonlessAlphabet : Alphabet where
  holds c := c != ':' && c != '&'
  reference := rfl
  space := rfl
  feed := rfl
  exclamation := rfl
  opening := rfl
  closing := rfl
  replacement := rfl

/-- Without character references no directive stands in the label, and its content is all there is. -/
theorem labelContent_eq_inlineNodes (gfm : Bool) (h : IsInlineLabel label) (hReference : '&' ∉ label) :
    labelContent gfm label = inlineNodes gfm label := by
  have hLabel : label.Over colonlessAlphabet := by
    intro c hMem
    have hColon : c ≠ ':' := ne_of_mem_of_not_mem hMem (h.not_mem (by decide))
    have hOpens : c ≠ '&' := ne_of_mem_of_not_mem hMem hReference
    simp [colonlessAlphabet, hColon, hOpens]
  have hNodes : ∀ node ∈ inlineNodes gfm label, node.Everywhere (Node.Over colonlessAlphabet) :=
    everywhere_inlineNodes (readingKeeps_over colonlessAlphabet)
      (fun source hSource event hEvent => (over_events gfm hSource event hEvent).adds) hLabel
  have hRoot : Node.IsExpanded { kind := .root, children := inlineNodes gfm label } := by
    refine .intro (fun hRoot => absurd hRoot (by decide : NodeKind.root ≠ .text)) fun node hMem => ?_
    refine (hNodes node hMem).mono fun other hOver hText => ?_
    have hColon : ':' ∉ other.value := fun hMem => absurd (hOver.value hText ':' hMem) (by decide)
    exact InlineDirective.find?_of_not_mem hColon none
  have hSelf := hRoot.expandWith_eq_self fun value => expandedLabel gfm value.length
  rw [Node.expandWith_eq] at hSelf
  exact congrArg Node.children hSelf

end Content

end DirectiveMarkdown
