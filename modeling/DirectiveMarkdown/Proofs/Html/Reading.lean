import DirectiveMarkdown.Proofs.Html.Markup

/-! Written HTML determines the tree that it was written from, as far as this can be: roots leave no
trace, and neither does the place where one text ends and the next begins. -/
namespace DirectiveMarkdown

namespace HtmlNode

/-- A text before nodes. It joins a text that the nodes start with, and an empty one is dropped. -/
def joinText (value : Text) (nodes : List HtmlNode) : List HtmlNode :=
  if value.isEmpty then nodes
  else match nodes with
    | .text more :: rest => .text (value ++ more) :: rest
    | _ => .text value :: nodes

mutual

/-- A node in normal form before nodes in normal form: the children of a root stand in its place,
texts that stand together are one text, and no text is empty. -/
def normalizeBefore : HtmlNode → List HtmlNode → List HtmlNode
  | .root children, after => normalizeAllBefore children after
  | .element tag properties children, after =>
    .element tag properties (normalizeAllBefore children []) :: after
  | .text value, after => joinText value after
  | .raw value, after => .raw value :: after

def normalizeAllBefore : List HtmlNode → List HtmlNode → List HtmlNode
  | [], after => after
  | node :: rest, after => node.normalizeBefore (normalizeAllBefore rest after)

end

/-- The normal form of a tree: a sequence of nodes, without a root around them. -/
def normalForm (node : HtmlNode) : List HtmlNode := node.normalizeBefore []

/-- The tree can be read back: no raw markup, tags and keys that are plain names, and nothing in the
elements that have no end tag. -/
def isWritable : HtmlNode → Bool :=
  everyElement fun tag properties children =>
    isPlainTag tag properties && (!voidElements.contains tag || children.isEmpty)

theorem joinText_append (value more : Text) (nodes : List HtmlNode) :
    joinText value (joinText more nodes) = joinText (value ++ more) nodes := by
  cases value with
  | nil => rfl
  | cons c value =>
      cases more with
      | nil => rw [List.append_nil]; rfl
      | cons d more =>
          cases nodes with
          | nil => rfl
          | cons node rest => cases node <;> simp [joinText]

theorem writeAll_joinText (value : Text) (nodes : List HtmlNode) :
    writeAll (joinText value nodes) = escapeHtml value ++ writeAll nodes := by
  cases value with
  | nil => rfl
  | cons c value =>
      cases nodes with
      | nil => rfl
      | cons node rest => cases node <;> simp [joinText, writeAll, write, escapeHtml]

mutual

/-- The normal form is written as the tree is. -/
theorem writeAll_normalizeBefore (node : HtmlNode) (after : List HtmlNode) :
    writeAll (node.normalizeBefore after) = node.write ++ writeAll after := by
  match node with
  | .root children => exact writeAll_normalizeAllBefore children after
  | .element tag properties children =>
      have hChildren := writeAll_normalizeAllBefore children []
      rw [writeAll, List.append_nil] at hChildren
      rw [normalizeBefore, writeAll, write, write, hChildren]
  | .text value => exact writeAll_joinText value after
  | .raw value => rfl

theorem writeAll_normalizeAllBefore (nodes after : List HtmlNode) :
    writeAll (normalizeAllBefore nodes after) = writeAll nodes ++ writeAll after := by
  match nodes with
  | [] => rfl
  | node :: rest =>
      rw [normalizeAllBefore, writeAll_normalizeBefore node, writeAll_normalizeAllBefore rest,
        writeAll, List.append_assoc]

end

/-- A tree and its normal form are written alike. -/
theorem writeAll_normalForm (node : HtmlNode) : writeAll node.normalForm = node.write := by
  rw [normalForm, writeAll_normalizeBefore, writeAll, List.append_nil]

/-- A writable tree is written in plain pieces. -/
theorem isPlain_of_isWritable {node : HtmlNode} (h : node.isWritable = true) :
    ∀ piece ∈ node.markup, piece.isPlain = true := by
  refine markup_of_everyElement (fun c => rfl) ?_ ?_ node h
  · intro tag properties children hElement
    rw [Bool.and_eq_true] at hElement
    exact hElement.1
  · intro tag properties children hElement
    rw [Bool.and_eq_true, isPlainTag, Bool.and_eq_true] at hElement
    exact hElement.1.1

end HtmlNode

/-- What follows a place in written HTML: the nodes up to the end of the element that the place is
in, and the nodes after that element and each one around it, innermost first. -/
structure Following where
  nodes : List HtmlNode
  outer : List (List HtmlNode)

/-- What follows the place before a piece, given what follows the place after it. An end tag starts
an element without content, which its start tag then takes. -/
def Markup.before : Markup → Following → Following
  | .char c, after => { after with nodes := HtmlNode.joinText [c] after.nodes }
  | .start tag properties, after =>
    if voidElements.contains tag then
      { after with nodes := .element tag properties [] :: after.nodes }
    else match after.outer with
      | nodes :: outer => ⟨.element tag properties after.nodes :: nodes, outer⟩
      | [] => ⟨[.element tag properties after.nodes], []⟩
  | .stop _, after => ⟨[], after.nodes :: after.outer⟩
  | .raw value, after => { after with nodes := .raw value :: after.nodes }

/-- The nodes that HTML was written from. The pieces are put together from the last to the first. -/
def HtmlNode.read (s : Text) : List HtmlNode :=
  ((Markup.readAll s).foldr Markup.before ⟨[], []⟩).nodes

namespace HtmlNode

/-- Characters put together are a text in front of what follows. -/
theorem foldr_before_char (value : Text) (after : Following) :
    (value.map Markup.char).foldr Markup.before after =
      { after with nodes := joinText value after.nodes } := by
  induction value with
  | nil => rfl
  | cons c value ih =>
      rw [List.map_cons, List.foldr_cons, ih, Markup.before, joinText_append, List.singleton_append]

mutual

/-- The pieces of a tree are put together to its normal form, whatever follows them. -/
theorem foldr_before_markup (node : HtmlNode) (h : node.isWritable = true) (after : Following) :
    node.markup.foldr Markup.before after =
      { after with nodes := node.normalizeBefore after.nodes } := by
  match node with
  | .root children => exact foldr_before_allMarkup children h after
  | .element tag properties children =>
      rw [isWritable, everyElement, Bool.and_eq_true, Bool.and_eq_true] at h
      obtain ⟨⟨-, hVoid⟩, hChildren⟩ := h
      unfold markup
      split
      · next hTag =>
          rw [hTag, Bool.not_true, Bool.false_or, List.isEmpty_iff] at hVoid
          subst hVoid
          rw [List.foldr_cons, List.foldr_nil, Markup.before, if_pos hTag]
          rfl
      · next hTag =>
          rw [List.cons_append, List.foldr_cons, List.foldr_append, List.foldr_cons, List.foldr_nil,
            foldr_before_allMarkup children hChildren, Markup.before, if_neg hTag]
          rfl
  | .text value => exact foldr_before_char value after
  | .raw value => cases h

/-- The pieces of writable trees are put together to the trees in normal form. -/
theorem foldr_before_allMarkup (nodes : List HtmlNode)
    (h : everyElementOf (fun tag properties children =>
      isPlainTag tag properties && (!voidElements.contains tag || children.isEmpty)) nodes = true)
    (after : Following) :
    (allMarkup nodes).foldr Markup.before after =
      { after with nodes := normalizeAllBefore nodes after.nodes } := by
  match nodes with
  | [] => rfl
  | node :: rest =>
      rw [everyElementOf, Bool.and_eq_true] at h
      rw [allMarkup, List.foldr_append, foldr_before_allMarkup rest h.2,
        foldr_before_markup node h.1]
      rfl

end

/-- A tree is read back from what it is written as, in its normal form. -/
theorem read_write {node : HtmlNode} (h : node.isWritable = true) :
    read node.write = node.normalForm := by
  rw [read, ← flatMap_markup, Markup.readAll_write (isPlain_of_isWritable h),
    foldr_before_markup node h]
  rfl

/-- Two trees are written alike exactly when they have the same normal form, and the normal form can
be read off what is written. -/
theorem write_eq_iff_normalForm_eq {a b : HtmlNode} (ha : a.isWritable = true)
    (hb : b.isWritable = true) :
    (a.write = b.write ↔ a.normalForm = b.normalForm) ∧ read a.write = a.normalForm := by
  refine ⟨⟨?_, ?_⟩, read_write ha⟩
  · intro hWrite
    rw [← read_write ha, ← read_write hb, hWrite]
  · intro hForm
    rw [← writeAll_normalForm a, ← writeAll_normalForm b, hForm]

/-- A paragraph with text in several pieces, a property without a value and a line break is written
as the paragraph without those pieces. -/
theorem write_eq_iff_normalForm_eq_pieces :
    let properties := TextMap.ofList [("checked".toList, []), ("title".toList, "a \"b\"".toList)]
    let a := HtmlNode.root [.element "p".toList properties
      [.text "1 <".toList, .root [.text " 2".toList, .element "br".toList ∅ []], .text []]]
    let b := HtmlNode.element "p".toList properties
      [.text "1 < 2".toList, .element "br".toList ∅ []]
    a.isWritable = true ∧ b.isWritable = true ∧ a.normalForm = b.normalForm ∧ a.write = b.write ∧
      a.write = "<p checked title=\"a &quot;b&quot;\">1 &lt; 2<br></p>".toList := by
  intro properties a b
  have ha : a.isWritable = true := by decide
  have hb : b.isWritable = true := by decide
  have hForm : a.normalForm = b.normalForm := rfl
  exact ⟨ha, hb, hForm, (write_eq_iff_normalForm_eq ha hb).1.2 hForm, rfl⟩

end HtmlNode

end DirectiveMarkdown
