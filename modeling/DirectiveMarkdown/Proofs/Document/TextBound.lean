import DirectiveMarkdown.Proofs.Document.Invariant

/-! How much text there is in a document. Texts that follow each other become one text node, so it is the
text of all events together that bounds what a text node holds. Only some characters may be counted:
a parser may add white space to a text and still not make more of the others. -/
namespace DirectiveMarkdown

open Markdown

/-- The text that an event brings. -/
def Markdown.Event.written : Event → Text
  | .text value => value
  | .softBreak => ['\n']
  | _ => []

/-- All text in the events of a source has together no more of the counted characters than the
source. -/
def AddsNoText (counts : Char → Bool) (parse : Text → List Event) : Prop :=
  ∀ source : Text, ((parse source).flatMap Event.written).countP counts ≤ source.countP counts

/-- If the node is text, it has at most so many of the counted characters. -/
def Node.TextFits (counts : Char → Bool) (bound : Nat) (node : Node) : Prop :=
  node.kind = .text → node.value.countP counts ≤ bound

variable {counts : Char → Bool} {bound left : Nat}

namespace Node

variable {node child : Node}

theorem Everywhere.widen {more : Nat} (h : node.Everywhere (TextFits counts bound))
    (hLe : bound ≤ more) : node.Everywhere (TextFits counts more) :=
  h.mono fun _ hNode hText => Nat.le_trans (hNode hText) hLe

/-- A node that is no text fits if what is below it does. -/
theorem everywhere_textFits_of_kind (hKind : node.kind ≠ .text)
    (hBelow : ∀ child ∈ node.children, child.Everywhere (TextFits counts bound)) :
    node.Everywhere (TextFits counts bound) :=
  .intro (fun hText => absurd hText hKind) hBelow

/-- The node is no text, the text nodes below it fit, and if its last child is text, it will fit with
`left` more characters. -/
structure HasRoom (counts : Char → Bool) (bound left : Nat) (node : Node) : Prop where
  kind : node.kind ≠ .text
  below : ∀ child ∈ node.children, child.Everywhere (TextFits counts bound)
  last : ∀ last ∈ node.children.getLast?, last.kind = .text →
    last.value.countP counts + left ≤ bound

/-- A node without children has room for as much as may ever come. -/
theorem hasRoom_of_children (hKind : node.kind ≠ .text) (hChildren : node.children = []) :
    node.HasRoom counts bound left := by
  refine ⟨hKind, ?_, ?_⟩
  · rw [hChildren]
    exact List.forall_mem_nil _
  · rw [hChildren]
    exact fun last hLast => absurd hLast (Option.not_mem_none last)

namespace HasRoom

theorem everywhere (h : node.HasRoom counts bound left) :
    node.Everywhere (TextFits counts bound) :=
  everywhere_textFits_of_kind h.kind h.below

theorem reduce {less : Nat} (h : node.HasRoom counts bound left) (hLe : less ≤ left) :
    node.HasRoom counts bound less :=
  ⟨h.kind, h.below, fun last hMem hText =>
    Nat.le_trans (Nat.add_le_add_left hLe _) (h.last last hMem hText)⟩

/-- Behind a child that is no text there is room for any new text. -/
theorem appendChild (h : node.HasRoom counts bound left)
    (hChild : child.Everywhere (TextFits counts bound)) (hKind : child.kind ≠ .text) (more : Nat) :
    (node.appendChild child).HasRoom counts bound more := by
  refine ⟨h.kind, List.forall_mem_append.2 ⟨h.below, List.forall_mem_singleton.2 hChild⟩, ?_⟩
  intro last hMem hText
  rw [Node.appendChild, List.getLast?_concat, Option.mem_some_iff] at hMem
  exact absurd (hMem ▸ hText) hKind

theorem appendLeaf (h : node.HasRoom counts bound left) (hChild : child.children = [])
    (hKind : child.kind ≠ .text) (more : Nat) :
    (node.appendChild child).HasRoom counts bound more := by
  have hRoom : child.HasRoom counts bound left := hasRoom_of_children hKind hChild
  exact h.appendChild hRoom.everywhere hKind more

/-- More text uses the room up. -/
theorem appendText {value : Text} (h : node.HasRoom counts bound (value.countP counts + left))
    (hLe : value.countP counts + left ≤ bound) :
    (node.appendText value).HasRoom counts bound left := by
  have hNew : HasRoom counts bound left
      { node with children := node.children ++ [.ofText value] } := by
    have hText : (Node.ofText value).Everywhere (TextFits counts bound) :=
      .intro (fun _ => Nat.le_trans (Nat.le_add_right ..) hLe) (List.forall_mem_nil _)
    refine ⟨h.kind, List.forall_mem_append.2 ⟨h.below, List.forall_mem_singleton.2 hText⟩, ?_⟩
    intro last hMem _
    rw [List.getLast?_concat, Option.mem_some_iff] at hMem
    rw [← hMem]
    exact hLe
  unfold Node.appendText
  split
  · exact ⟨h.kind, h.below, (h.reduce (Nat.le_add_left ..)).last⟩
  · split
    · next last hLast =>
        split
        · next hText =>
            have hOld := h.last last hLast hText
            have hValue : (last.value ++ value).countP counts =
                last.value.countP counts + value.countP counts := List.countP_append
            obtain ⟨-, hBelow⟩ := h.below last (List.mem_of_getLast? hLast)
            have hFits : Everywhere (TextFits counts bound)
                { last with value := last.value ++ value } := by
              refine .intro (fun _ => ?_) hBelow
              dsimp only
              omega
            refine ⟨h.kind, List.forall_mem_append.2 ⟨fun child hMem => ?_,
              List.forall_mem_singleton.2 hFits⟩, ?_⟩
            · exact h.below child (List.dropLast_subset _ hMem)
            · intro other hMem _
              rw [List.getLast?_concat, Option.mem_some_iff] at hMem
              rw [← hMem]
              dsimp only
              omega
        · exact hNew
    · exact hNew

theorem appendHtml (h : node.HasRoom counts bound left) (value : Text) :
    (node.appendHtml value).HasRoom counts bound left := by
  unfold Node.appendHtml
  split
  · exact ⟨h.kind, h.below, h.last⟩
  · exact h.appendLeaf rfl (by decide : NodeKind.html ≠ .text) left

theorem describeImage (h : node.HasRoom counts bound left) :
    node.describeImage.HasRoom counts bound left :=
  ⟨h.kind, List.forall_mem_nil _, fun last hLast => absurd hLast (Option.not_mem_none last)⟩

theorem withAttribute (h : node.HasRoom counts bound left) (key value : Text) :
    (node.withAttribute key value).HasRoom counts bound left :=
  ⟨h.kind, h.below, h.last⟩

end HasRoom

end Node

/-- All nodes that are being read have room for so much more text. -/
def Assembly.HasRoom (counts : Char → Bool) (bound left : Nat) (assembly : Assembly) : Prop :=
  ∀ node ∈ assembly.top :: assembly.outer, node.HasRoom counts bound left

namespace Assembly

variable {assembly : Assembly} {node : Node}

theorem hasRoom_new : HasRoom counts bound left {} :=
  List.forall_mem_singleton.2
    (Node.hasRoom_of_children (by decide : NodeKind.root ≠ .text) rfl)

namespace HasRoom

theorem top (h : assembly.HasRoom counts bound left) : assembly.top.HasRoom counts bound left :=
  h _ (List.mem_cons_self ..)

theorem reduce {less : Nat} (h : assembly.HasRoom counts bound left) (hLe : less ≤ left) :
    assembly.HasRoom counts bound less :=
  fun node hMem => (h node hMem).reduce hLe

theorem withTop (h : assembly.HasRoom counts bound left) (hNode : node.HasRoom counts bound left) :
    HasRoom counts bound left { assembly with top := node } :=
  List.forall_mem_cons.2 ⟨hNode, fun other hMem => h other (List.mem_cons_of_mem _ hMem)⟩

theorem push (h : assembly.HasRoom counts bound left)
    (hNode : node.Everywhere (Node.TextFits counts bound)) (hKind : node.kind ≠ .text) :
    (assembly.push node).HasRoom counts bound left :=
  h.withTop (h.top.appendChild hNode hKind left)

theorem close (h : assembly.HasRoom counts bound left) :
    assembly.close.HasRoom counts bound left := by
  obtain ⟨top, outer⟩ := assembly
  cases outer with
  | nil => exact h
  | cons parent outer =>
      obtain ⟨hTop, hOuter⟩ := List.forall_mem_cons.1 h
      obtain ⟨hParent, hOuter⟩ := List.forall_mem_cons.1 hOuter
      exact List.forall_mem_cons.2 ⟨hParent.appendChild hTop.everywhere hTop.kind left, hOuter⟩

/-- An event uses the room for its text up. -/
theorem step {event : Event}
    (h : assembly.HasRoom counts bound (event.written.countP counts + left))
    (hLe : event.written.countP counts + left ≤ bound) :
    (assembly.step event).HasRoom counts bound left := by
  have hLess := h.reduce (Nat.le_add_left left _)
  have hPush : ∀ node : Node, node.children = [] → node.kind ≠ .text →
      (assembly.push node).HasRoom counts bound left := fun node hChildren hKind =>
    hLess.withTop (hLess.top.appendLeaf hChildren hKind left)
  cases event with
  | start tag =>
      exact List.forall_mem_cons.2
        ⟨Node.hasRoom_of_children tag.kind_node_ne.1 tag.children_node, hLess⟩
  | stop tag =>
      cases tag with
      | image url title => exact (hLess.withTop hLess.top.describeImage).close
      | _ => exact hLess.close
  | text value => exact hLess.withTop (h.top.appendText hLe)
  | softBreak => exact hLess.withTop (h.top.appendText hLe)
  | code value => exact hPush _ rfl (by decide : NodeKind.inlineCode ≠ .text)
  | html value => exact hLess.withTop (hLess.top.appendHtml value)
  | hardBreak => exact hPush _ rfl (by decide : NodeKind.break ≠ .text)
  | thematicBreak => exact hPush _ rfl (by decide : NodeKind.thematicBreak ≠ .text)
  | taskMarker checked =>
      have hChecked : ∀ node ∈ checkItem (Node.checkedValue checked)
          (assembly.top :: assembly.outer), node.HasRoom counts bound left :=
        forall_checkItem (fun _ hNode => hNode.withAttribute _ _) hLess
      unfold Assembly.step
      dsimp only
      split
      · next top outer hStack =>
          rw [hStack] at hChecked
          exact hChecked
      · exact hLess

/-- All text in a finished document fits. -/
theorem finish (h : assembly.HasRoom counts bound left) :
    ∀ node ∈ assembly.finish, node.Everywhere (Node.TextFits counts bound) := by
  obtain ⟨top, outer⟩ := assembly
  have hRoot : (outer.foldl (fun node parent => parent.appendChild node) top).HasRoom counts bound
      left := by
    induction outer generalizing top with
    | nil => exact h.top
    | cons parent outer ih => exact ih _ h.close
  exact hRoot.below

end HasRoom

end Assembly

/-- Events use the room for their text up, if what answers for containers is no text, and text nodes
in it fit. -/
theorem hasRoom_assemble {reread : Tag → List Event → Option Node}
    (hReread : ∀ tag inner made, reread tag inner = some made →
      made.kind ≠ .text ∧ made.Everywhere (Node.TextFits counts bound))
    {events : List Event} (skip : Nat) {assembly : Assembly}
    (h : assembly.HasRoom counts bound ((events.flatMap Event.written).countP counts))
    (hLe : (events.flatMap Event.written).countP counts ≤ bound) :
    (assemble reread skip assembly events).HasRoom counts bound 0 := by
  have hCons : ∀ (event : Event) (rest : List Event),
      ((event :: rest).flatMap Event.written).countP counts =
        event.written.countP counts + (rest.flatMap Event.written).countP counts := by
    intro event rest
    rw [List.flatMap_cons, List.countP_append]
  fun_induction assemble reread skip assembly events with
  | case1 => exact h
  | case2 assembly tag rest node hNode ih =>
      rw [hCons] at h hLe
      obtain ⟨inner, -, hInner⟩ := Option.bind_eq_some_iff.1 hNode
      obtain ⟨hKind, hFits⟩ := hReread tag inner node hInner
      exact ih ((h.reduce (Nat.le_add_left ..)).push hFits hKind)
        (Nat.le_trans (Nat.le_add_left ..) hLe)
  | case3 assembly tag rest _ ih =>
      rw [hCons] at h hLe
      exact ih (h.step hLe) (Nat.le_trans (Nat.le_add_left ..) hLe)
  | case4 assembly event rest _ ih =>
      rw [hCons] at h hLe
      exact ih (h.step hLe) (Nat.le_trans (Nat.le_add_left ..) hLe)
  | case5 skip assembly tag rest ih =>
      rw [hCons] at h hLe
      exact ih (h.reduce (Nat.le_add_left ..)) (Nat.le_trans (Nat.le_add_left ..) hLe)
  | case6 skip assembly tag rest ih =>
      rw [hCons] at h hLe
      exact ih (h.reduce (Nat.le_add_left ..)) (Nat.le_trans (Nat.le_add_left ..) hLe)
  | case7 skip assembly event rest _ _ ih =>
      rw [hCons] at h hLe
      exact ih (h.reduce (Nat.le_add_left ..)) (Nat.le_trans (Nat.le_add_left ..) hLe)

/-- A container that is read again is no text, and fits if its content does. -/
theorem textFits_rereadNode (tag : Tag) (inner : List Event) {content : List Node}
    (h : ∀ node ∈ content, node.Everywhere (Node.TextFits counts bound)) :
    (rereadNode tag inner content).kind ≠ .text ∧
      (rereadNode tag inner content).Everywhere (Node.TextFits counts bound) := by
  have hItem : ∀ child ∈ if hasParagraph 0 inner then content else unwrapParagraphs content,
      child.Everywhere (Node.TextFits counts bound) := by
    split
    · exact h
    · exact everywhere_unwrapParagraphs h
  have hMade : ∀ node : Node, node.kind ≠ .text →
      (∀ child ∈ node.children, child.Everywhere (Node.TextFits counts bound)) →
      node.kind ≠ .text ∧ node.Everywhere (Node.TextFits counts bound) := fun node hKind hBelow =>
    ⟨hKind, Node.everywhere_textFits_of_kind hKind hBelow⟩
  unfold rereadNode
  split
  · dsimp only
    split
    · exact hMade _ (by decide : NodeKind.listItem ≠ .text) hItem
    · exact hMade _ (by decide : NodeKind.listItem ≠ .text) hItem
  · exact hMade _ (by decide : NodeKind.blockQuote ≠ .text) h

/-- The text nodes of events fit, if those of what is read again in the source do. -/
theorem textFits_finish_assemble {events : List Event} {read : Text → List Node} {source : Text}
    (hEvents : (events.flatMap Event.written).countP counts ≤ source.countP counts)
    (hRead : ∀ content : Text, content.Sublist source →
      ∀ node ∈ read content, node.Everywhere (Node.TextFits counts (content.countP counts))) :
    ∀ node ∈ (assemble (reread? read source) 0 {} events).finish,
      node.Everywhere (Node.TextFits counts (source.countP counts)) := by
  refine (hasRoom_assemble ?_ 0 Assembly.hasRoom_new hEvents).finish
  intro tag inner made hMade
  rw [reread?_eq] at hMade
  obtain ⟨content, hContent, rfl⟩ := Option.map_eq_some_iff.1 hMade
  have hSub := (rereadContent?_sublist hContent).1
  exact textFits_rereadNode tag inner fun node hMem => (hRead content hSub node hMem).widen hSub.countP_le

/-- The text of a section fits in the source if that of every run fits in the run. -/
theorem textFits_sectionNodes {markdown : Text → List Node} {source : Text}
    (hMarkdown : ∀ run : Text, run.Sublist source →
      ∀ node ∈ markdown run, node.Everywhere (Node.TextFits counts (run.countP counts)))
    {piece : Section} (hPiece : piece.Within source) :
    ∀ node ∈ piece.nodes markdown,
      node.Everywhere (Node.TextFits counts (source.countP counts)) := by
  have hRuns : ∀ run : Text, run.Sublist source →
      ∀ node ∈ markdown run, node.Everywhere (Node.TextFits counts (source.countP counts)) :=
    fun run hRun node hMem => (hMarkdown run hRun node hMem).widen hRun.countP_le
  induction hPiece with
  | markdown hRun => exact hRuns _ hRun
  | leaf hLabel =>
      rw [Section.nodes]
      exact List.forall_mem_singleton.2 (Node.everywhere_textFits_of_kind
        (by decide : NodeKind.leafDirective ≠ .text) (everywhere_labelNodes (hRuns _ hLabel)))
  | @container directive content _ ih =>
      have hBelow : ∀ child ∈ Section.allNodes markdown content,
          child.Everywhere (Node.TextFits counts (source.countP counts)) := by
        intro child hChild
        obtain ⟨piece, hPiece, hNode⟩ := mem_allNodes hChild
        exact ih piece hPiece child hNode
      rw [Section.nodes]
      refine List.forall_mem_singleton.2 ?_
      unfold containerNode
      dsimp only
      split
      · exact Node.everywhere_textFits_of_kind (by decide : NodeKind.containerDirective ≠ .text) hBelow
      · exact Node.everywhere_textFits_of_kind (by decide : NodeKind.containerDirective ≠ .text) hBelow

end DirectiveMarkdown
