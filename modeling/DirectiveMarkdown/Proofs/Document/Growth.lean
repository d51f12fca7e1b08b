import DirectiveMarkdown.Document.Container
import DirectiveMarkdown.Proofs.Markdown.Nesting

/-! What events make of the node that they stand in. The nodes around it do not matter, so a run of
nested events can be cut at every element. Events that follow hide no difference between two nodes
that agree in their kind and in that of their last child. -/
namespace DirectiveMarkdown

open Markdown

/-- A node at the end of its element. -/
def Markdown.Tag.finish : Tag → Node → Node
  | .image _ _, node => node.describeImage
  | _, node => node

/-- The end of an element changes its node only if it is an image. -/
theorem Markdown.Tag.finish_of_not_image {tag : Tag} (h : tag.isImage = false) (node : Node) :
    tag.finish node = node := by
  cases tag <;> first | rfl | cases h

/-- What an event makes of the node that it stands in, if it starts and ends no element. -/
def Markdown.Event.grow : Event → Node → Node
  | .text value, node => node.appendText value
  | .softBreak, node => node.appendText ['\n']
  | .code value, node => node.appendChild { kind := .inlineCode, value }
  | .html value, node => node.appendHtml value
  | .hardBreak, node => node.appendChild { kind := .break }
  | .thematicBreak, node => node.appendChild { kind := .thematicBreak }
  | .taskMarker checked, node => node.withAttribute "checked".toList (Node.checkedValue checked)
  | .start _, node | .stop _, node => node

namespace Node

/-- Nodes with more text at the end: in the last one if this is text, else in a new one. -/
def addText (nodes : List Node) (value : Text) : List Node :=
  match nodes.getLast? with
  | some last =>
    if last.kind = .text then nodes.dropLast ++ [{ last with value := last.value ++ value }]
    else nodes ++ [.ofText value]
  | none => nodes ++ [.ofText value]

theorem appendText_eq (node : Node) (value : Text) :
    node.appendText value =
      if node.kind = .code then { node with value := node.value ++ value }
      else { node with children := addText node.children value } := by
  unfold appendText addText appendChild
  cases node.children.getLast? with
  | none => rfl
  | some last => by_cases h : last.kind = .text <;> simp [h]

theorem addText_concat (nodes : List Node) (last : Node) (value : Text) :
    addText (nodes ++ [last]) value =
      if last.kind = .text then nodes ++ [{ last with value := last.value ++ value }]
      else nodes ++ [last] ++ [.ofText value] := by
  simp [addText]

def lastKind? (nodes : List Node) : Option NodeKind := nodes.getLast?.map kind

theorem lastKind?_concat (nodes : List Node) (node : Node) :
    lastKind? (nodes ++ [node]) = some node.kind := by
  simp [lastKind?]

theorem lastKind?_addText (nodes : List Node) (value : Text) :
    lastKind? (addText nodes value) = some .text := by
  rcases List.eq_nil_or_concat nodes with rfl | ⟨before, last, rfl⟩
  · rfl
  · rw [List.concat_eq_append, addText_concat]
    split
    · next hText => rw [lastKind?_concat, ← hText]
    · exact lastKind?_concat ..

theorem concat_eq_concat_iff {a b : List Node} {c d : Node} :
    a ++ [c] = b ++ [d] ↔ a = b ∧ c = d := by
  constructor
  · intro h
    obtain ⟨hInit, hLast⟩ := List.append_inj' h rfl
    exact ⟨hInit, (List.cons.inj hLast).1⟩
  · rintro ⟨rfl, rfl⟩
    rfl

/-- More text hides no difference, if it starts a new node on both sides or on none. -/
theorem addText_eq_iff {a b : List Node} (h : lastKind? a = lastKind? b) (value : Text) :
    addText a value = addText b value ↔ a = b := by
  rcases List.eq_nil_or_concat a with rfl | ⟨a, last, rfl⟩
  · rcases List.eq_nil_or_concat b with rfl | ⟨b, other, rfl⟩
    · simp
    · simp [lastKind?] at h
  · rcases List.eq_nil_or_concat b with rfl | ⟨b, other, rfl⟩
    · simp [lastKind?] at h
    · rw [List.concat_eq_append, List.concat_eq_append] at *
      rw [lastKind?_concat, lastKind?_concat, Option.some.injEq] at h
      rw [addText_concat, addText_concat]
      by_cases hText : last.kind = .text
      · rw [if_pos hText, if_pos (h ▸ hText), concat_eq_concat_iff, concat_eq_concat_iff]
        obtain ⟨_, _, _, _, _, _⟩ := last
        obtain ⟨_, _, _, _, _, _⟩ := other
        simp
      · rw [if_neg hText, if_neg (h ▸ hText), concat_eq_concat_iff]
        simp

/-- Later events do the same to both nodes. -/
structure Alike (a b : Node) : Prop where
  kind : a.kind = b.kind
  last : lastKind? a.children = lastKind? b.children

theorem Alike.refl (node : Node) : node.Alike node := ⟨rfl, rfl⟩

/-- Nodes that are alike stay so with children of one kind. -/
theorem Alike.appendChild {a b c d : Node} (h : a.Alike b) (hKind : c.kind = d.kind) :
    (a.appendChild c).Alike (b.appendChild d) := by
  refine ⟨h.kind, ?_⟩
  have hLast := (lastKind?_concat a.children c).trans (congrArg some hKind)
  exact hLast.trans (lastKind?_concat b.children d).symm

/-- A new child is told from every other, so nothing is lost by adding it. -/
theorem appendChild_eq_iff {a b c d : Node} :
    a.appendChild c = b.appendChild d ↔ a = b ∧ c = d := by
  obtain ⟨_, _, _, _, _, _⟩ := a
  obtain ⟨_, _, _, _, _, _⟩ := b
  simp only [appendChild, Node.mk.injEq, concat_eq_concat_iff]
  constructor
  · rintro ⟨rfl, rfl, rfl, rfl, ⟨rfl, rfl⟩, rfl⟩
    exact ⟨⟨rfl, rfl, rfl, rfl, rfl, rfl⟩, rfl⟩
  · rintro ⟨⟨rfl, rfl, rfl, rfl, rfl, rfl⟩, rfl⟩
    exact ⟨rfl, rfl, rfl, rfl, ⟨rfl, rfl⟩, rfl⟩

/-- The same text keeps nodes alike, and makes none equal that were not. -/
theorem Alike.appendText {a b : Node} (h : a.Alike b) (value : Text) :
    (a.appendText value).Alike (b.appendText value) ∧
      (a.appendText value = b.appendText value ↔ a = b) := by
  rw [appendText_eq, appendText_eq]
  by_cases hCode : a.kind = .code
  · rw [if_pos hCode, if_pos (h.kind ▸ hCode)]
    refine ⟨⟨h.kind, h.last⟩, ?_⟩
    obtain ⟨_, _, _, _, _, _⟩ := a
    obtain ⟨_, _, _, _, _, _⟩ := b
    simp
  · rw [if_neg hCode, if_neg (h.kind ▸ hCode)]
    refine ⟨⟨h.kind, ?_⟩, ?_⟩
    · exact (lastKind?_addText a.children value).trans (lastKind?_addText b.children value).symm
    · have hText := addText_eq_iff h.last value
      obtain ⟨_, _, _, _, _, _⟩ := a
      obtain ⟨_, _, _, _, _, _⟩ := b
      simp only [Node.mk.injEq, hText]

/-- The same raw HTML keeps nodes alike, and makes none equal that were not. -/
theorem Alike.appendHtml {a b : Node} (h : a.Alike b) (value : Text) :
    (a.appendHtml value).Alike (b.appendHtml value) ∧
      (a.appendHtml value = b.appendHtml value ↔ a = b) := by
  unfold Node.appendHtml
  by_cases hHtml : a.kind = .html
  · rw [if_pos hHtml, if_pos (h.kind ▸ hHtml)]
    refine ⟨⟨h.kind, h.last⟩, ?_⟩
    obtain ⟨_, _, _, _, _, _⟩ := a
    obtain ⟨_, _, _, _, _, _⟩ := b
    simp
  · rw [if_neg hHtml, if_neg (h.kind ▸ hHtml)]
    exact ⟨h.appendChild rfl, by simp [appendChild_eq_iff]⟩

end Node

/-- An event hides no difference. -/
theorem Markdown.Event.grow_eq_iff {event : Event} (hEvent : event.isContent = true) {a b : Node}
    (h : a.Alike b) :
    (event.grow a).Alike (event.grow b) ∧ (event.grow a = event.grow b ↔ a = b) := by
  cases event with
  | text value => exact h.appendText value
  | softBreak => exact h.appendText ['\n']
  | html value => exact h.appendHtml value
  | code value => exact ⟨h.appendChild rfl, by simp [Event.grow, Node.appendChild_eq_iff]⟩
  | hardBreak => exact ⟨h.appendChild rfl, by simp [Event.grow, Node.appendChild_eq_iff]⟩
  | thematicBreak => exact ⟨h.appendChild rfl, by simp [Event.grow, Node.appendChild_eq_iff]⟩
  | _ => cases hEvent

theorem Markdown.Event.kind_grow (event : Event) (node : Node) :
    (event.grow node).kind = node.kind := by
  cases event with
  | text value =>
      rw [Event.grow, Node.appendText_eq]
      split <;> rfl
  | softBreak =>
      rw [Event.grow, Node.appendText_eq]
      split <;> rfl
  | html value =>
      rw [Event.grow, Node.appendHtml]
      split <;> rfl
  | _ => rfl

/-- A root gets more children and nothing else. -/
theorem Markdown.Event.grow_of_root {event : Event} (hEvent : event.isContent = true) {node : Node}
    (h : node.kind = .root) :
    event.grow node = { node with children := (event.grow node).children } := by
  have hText : ∀ value : Text, node.appendText value =
      { node with children := (node.appendText value).children } := by
    intro value
    rw [Node.appendText_eq, if_neg (by rw [h]; decide)]
  cases event with
  | text value => exact hText value
  | softBreak => exact hText ['\n']
  | html value =>
      rw [Event.grow, Node.appendHtml, if_neg (by rw [h]; decide)]
      rfl
  | code value => rfl
  | hardBreak => rfl
  | thematicBreak => rfl
  | _ => cases hEvent

section Nested

variable {reread : Tag → List Event → Option Node} {ofItem : Bool} {inner events : List Event}

/-- An event that starts and ends nothing only makes the innermost node grow. -/
theorem assemble_content {event : Event} (h : event.isContent = true) (node : Node)
    (outer : List Node) (rest : List Event) :
    assemble reread 0 ⟨node, outer⟩ (event :: rest) =
      assemble reread 0 ⟨event.grow node, outer⟩ rest := by
  cases event <;> first | rfl | cases h

theorem assemble_task (checked : Bool) {node : Node} (h : node.kind = .listItem)
    (outer : List Node) (rest : List Event) :
    assemble reread 0 ⟨node, outer⟩ (.taskMarker checked :: rest) =
      assemble reread 0 ⟨(Event.taskMarker checked).grow node, outer⟩ rest := by
  rw [assemble, Assembly.step, Assembly.checkItem, if_pos h]
  · rfl
  · nofun

/-- The end of an element puts the finished node into the one around it. -/
theorem assemble_stop (tag : Tag) (node parent : Node) (outer : List Node) (rest : List Event) :
    assemble reread 0 ⟨node, parent :: outer⟩ (.stop tag :: rest) =
      assemble reread 0 ⟨parent.appendChild (tag.finish node), outer⟩ rest := by
  cases tag <;> rfl

theorem innerEvents?_cons {event : Event} (h : event.isBoundary = false) (depth : Nat)
    (rest : List Event) :
    innerEvents? depth (event :: rest) = (innerEvents? depth rest).map (event :: ·) := by
  cases event <;> first | rfl | cases h

theorem assemble_skip_cons {event : Event} (h : event.isBoundary = false) (skip : Nat)
    (assembly : Assembly) (rest : List Event) :
    assemble reread (skip + 1) assembly (event :: rest) = assemble reread (skip + 1) assembly rest := by
  cases event <;> first | rfl | cases h

/-- The search for the end of an element passes over nested events. -/
theorem innerEvents?_append (h : Nested ofItem inner) (depth : Nat) (rest : List Event) :
    innerEvents? depth (inner ++ rest) = (innerEvents? depth rest).map (inner ++ ·) := by
  induction h generalizing depth rest with
  | nil => simp
  | content hEvent _ ih =>
      rw [List.cons_append, innerEvents?_cons (Event.not_isBoundary_of_isContent hEvent), ih,
        Option.map_map]
      rfl
  | task _ ih =>
      rw [List.cons_append, innerEvents?_cons rfl, ih, Option.map_map]
      rfl
  | element _ _ _ ihInner ihMore =>
      simp [Tag.around, innerEvents?, ihInner, ihMore, Function.comp_def]

/-- The events up to the end of an element are those in it. -/
theorem innerEvents?_eq (h : Nested ofItem inner) (tag : Tag) (rest : List Event) :
    innerEvents? 0 (inner ++ .stop tag :: rest) = some inner := by
  rw [innerEvents?_append h, innerEvents?, Option.map_some, List.append_nil]

/-- What stands in a container that was answered for adds nothing. -/
theorem assemble_skip (h : Nested ofItem events) (skip : Nat) (assembly : Assembly)
    (rest : List Event) :
    assemble reread (skip + 1) assembly (events ++ rest) =
      assemble reread (skip + 1) assembly rest := by
  induction h generalizing skip rest with
  | nil => rfl
  | content hEvent _ ih =>
      rw [List.cons_append, assemble_skip_cons (Event.not_isBoundary_of_isContent hEvent), ih]
  | task _ ih => rw [List.cons_append, assemble_skip_cons rfl, ih]
  | element _ _ _ ihInner ihMore =>
      simp [Tag.around, assemble, ihInner, ihMore]

/-- What events make of the node that they stand in. -/
def grown (reread : Tag → List Event → Option Node) (events : List Event) (node : Node) : Node :=
  (assemble reread 0 ⟨node, []⟩ events).top

/-- The node of an element: what is answered for it, or else what its events make of it. -/
def elementNode (reread : Tag → List Event → Option Node) (tag : Tag) (inner : List Event) : Node :=
  (reread tag inner).getD (tag.finish (grown reread inner tag.node))

theorem grown_content {event : Event} (h : event.isContent = true) (rest : List Event) (node : Node) :
    grown reread (event :: rest) node = grown reread rest (event.grow node) := by
  rw [grown, assemble_content h]
  rfl

theorem grown_task (checked : Bool) {node : Node} (h : node.kind = .listItem) (rest : List Event) :
    grown reread (.taskMarker checked :: rest) node =
      grown reread rest ((Event.taskMarker checked).grow node) := by
  rw [grown, assemble_task checked h]
  rfl

theorem Markdown.Tag.kind_node_of_isItem {tag : Tag} (h : tag.isItem = true) :
    tag.node.kind = .listItem := by
  cases tag <;> first | rfl | cases h

/-- An element adds its node to the innermost one, if its events change no other. -/
theorem assemble_around {tag : Tag} (hInner : Nested tag.isItem inner)
    (hFrame : ∀ outer rest, assemble reread 0 ⟨tag.node, outer⟩ (inner ++ rest) =
      assemble reread 0 ⟨grown reread inner tag.node, outer⟩ rest)
    (node : Node) (outer : List Node) (rest : List Event) :
    assemble reread 0 ⟨node, outer⟩ (tag.around inner ++ rest) =
      assemble reread 0 ⟨node.appendChild (elementNode reread tag inner), outer⟩ rest := by
  have hEvents : tag.around inner ++ rest = .start tag :: (inner ++ .stop tag :: rest) := by
    simp [Tag.around]
  rw [hEvents, assemble, innerEvents?_eq hInner, Option.bind_some, elementNode]
  cases reread tag inner with
  | some made =>
      dsimp only
      rw [assemble_skip hInner, assemble]
      rfl
  | none =>
      dsimp only
      rw [Assembly.step, hFrame, assemble_stop]
      rfl

/-- Events change the innermost node only, and this as if it stood alone. -/
theorem assemble_append (h : Nested ofItem events) {node : Node}
    (hItem : ofItem = true → node.kind = .listItem) (outer : List Node) (rest : List Event) :
    assemble reread 0 ⟨node, outer⟩ (events ++ rest) =
      assemble reread 0 ⟨grown reread events node, outer⟩ rest := by
  induction h generalizing node outer rest with
  | nil => rfl
  | content hEvent _ ih =>
      rw [List.cons_append, assemble_content hEvent, ih nofun, grown_content hEvent]
  | task _ ih =>
      rw [List.cons_append, assemble_task _ (hItem rfl), ih nofun, grown_task _ (hItem rfl)]
  | @element _ tag inner more _ hInner _ ihInner ihMore =>
      have hAround := assemble_around hInner (ihInner Tag.kind_node_of_isItem)
      have hGrown : grown reread (tag.around inner ++ more) node =
          grown reread more (node.appendChild (elementNode reread tag inner)) := by
        rw [grown, hAround]
        rfl
      rw [List.append_assoc, hAround, ihMore nofun, hGrown]

/-- Events are taken one after the other. -/
theorem grown_append (h : Nested false events) (more : List Event) (node : Node) :
    grown reread (events ++ more) node = grown reread more (grown reread events node) := by
  rw [grown, assemble_append h nofun]
  rfl

/-- An element in the events becomes one more child. -/
theorem grown_around {tag : Tag} (hInner : Nested tag.isItem inner) (rest : List Event)
    (node : Node) :
    grown reread (tag.around inner ++ rest) node =
      grown reread rest (node.appendChild (elementNode reread tag inner)) := by
  rw [grown, assemble_around hInner (assemble_append hInner Tag.kind_node_of_isItem)]
  rfl

/-- Events in a node leave its kind alone. -/
theorem kind_grown (h : Nested ofItem events) {node : Node}
    (hItem : ofItem = true → node.kind = .listItem) :
    (grown reread events node).kind = node.kind := by
  induction h generalizing node with
  | nil => rfl
  | content hEvent _ ih => rw [grown_content hEvent, ih nofun, Event.kind_grow]
  | task _ ih => rw [grown_task _ (hItem rfl), ih nofun, Event.kind_grow]
  | element _ hInner _ _ ihMore =>
      rw [grown_around hInner, ihMore nofun]
      rfl

/-- The events of a document only give children to its root. -/
theorem grown_of_root (h : Nested false events) {node : Node} (hRoot : node.kind = .root) :
    grown reread events node = { node with children := (grown reread events node).children } := by
  generalize hItem : false = ofItem at h
  induction h generalizing node with
  | nil =>
      obtain ⟨_, _, _, _, _, _⟩ := node
      rfl
  | @content _ event _ hEvent _ ih =>
      have hKind : (event.grow node).kind = .root := by rw [Event.kind_grow, hRoot]
      rw [grown_content hEvent, ih hKind rfl, Event.grow_of_root hEvent hRoot]
  | task => cases hItem
  | @element _ tag inner _ _ hInner _ _ ihMore =>
      have hKind : (node.appendChild (elementNode reread tag inner)).kind = .root := hRoot
      rw [grown_around hInner]
      exact ihMore hKind rfl

/-- The nodes of a document are what its events make of the root. -/
theorem finish_assemble (h : Nested false events) :
    (assemble reread 0 {} events).finish =
      (grown reread events { kind := .root }).children := by
  have hAppend : assemble reread 0 ⟨{ kind := .root }, []⟩ (events ++ []) =
      assemble reread 0 ⟨grown reread events { kind := .root }, []⟩ [] :=
    assemble_append h nofun [] []
  rw [List.append_nil] at hAppend
  rw [hAppend]
  rfl

/-- One element adds one child. -/
theorem grown_single {tag : Tag} (hInner : Nested tag.isItem inner) (node : Node) :
    grown reread (tag.around inner) node = node.appendChild (elementNode reread tag inner) := by
  have hAround : grown reread (tag.around inner ++ []) node = _ := grown_around hInner [] node
  rw [List.append_nil] at hAround
  exact hAround

/-- Elements in a row add a child each. -/
theorem grown_flatMap {α : Type} {tag : α → Tag} {inner : α → List Event}
    (hInner : ∀ item, Nested (tag item).isItem (inner item)) (items : List α) (node : Node) :
    grown reread (items.flatMap fun item => (tag item).around (inner item)) node =
      { node with
        children := node.children ++
          items.map fun item => elementNode reread (tag item) (inner item) } := by
  induction items generalizing node with
  | nil =>
      obtain ⟨_, _, _, _, _, _⟩ := node
      simp [grown, assemble]
  | cons item rest ih =>
      rw [List.flatMap_cons, grown_around (hInner item), ih, Node.appendChild]
      simp

end Nested

end DirectiveMarkdown
