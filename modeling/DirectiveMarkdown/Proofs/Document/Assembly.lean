import DirectiveMarkdown.Proofs.Document.NestedNodes

/-! The nodes that the stack makes of well-nested events. Events extend the innermost open node,
whatever stands in it and around it, and a check box marks the innermost open item; so the nodes are
those of the forest of the events. -/
namespace DirectiveMarkdown

open Markdown

namespace Assembly

open EventTree

/-- The open nodes, innermost first. -/
def stack (assembly : Assembly) : List Node := assembly.top :: assembly.outer

theorem eq_of_stack {assembly : Assembly} {top : Node} {outer : List Node}
    (h : assembly.stack = top :: outer) : assembly = ⟨top, outer⟩ := by
  cases assembly
  cases h
  rfl

/-- The stack with the check box of its innermost item, if there is one. -/
def checkOpen (mark : Option Bool) (stack : List Node) : List Node :=
  match mark with
  | some checked => checkItem (Node.checkedValue checked) stack
  | none => stack

section CheckOpen

variable {node : Node}

theorem checkOpen_item (h : node.kind = .listItem) (mark : Option Bool) (outer : List Node) :
    checkOpen mark (node :: outer) = node.checkedBy mark :: outer := by
  cases mark with
  | none => rfl
  | some checked => rw [checkOpen, checkItem, if_pos h, Node.checkedBy]

theorem checkOpen_other (h : node.kind ≠ .listItem) (mark : Option Bool) (outer : List Node) :
    checkOpen mark (node :: outer) = node :: checkOpen mark outer := by
  cases mark with
  | none => rfl
  | some checked => rw [checkOpen, checkItem, if_neg h, checkOpen]

theorem checkOpen_nil (mark : Option Bool) : checkOpen mark [] = [] := by
  cases mark <;> rfl

/-- Of two check boxes the later counts. -/
theorem checkOpen_checkOpen (mark later : Option Bool) (stack : List Node) :
    checkOpen later (checkOpen mark stack) = checkOpen (later.or mark) stack := by
  induction stack with
  | nil => rw [checkOpen_nil, checkOpen_nil, checkOpen_nil]
  | cons node outer ih =>
      by_cases hItem : node.kind = .listItem
      · have hChecked : (node.checkedBy mark).kind = .listItem := (node.kind_checkedBy mark).trans hItem
        rw [checkOpen_item hItem, checkOpen_item hChecked, checkOpen_item hItem,
          Node.checkedBy_checkedBy]
      · rw [checkOpen_other hItem, checkOpen_other hItem, checkOpen_other hItem, ih]

theorem kinds_checkOpen (mark : Option Bool) (stack : List Node) :
    (checkOpen mark stack).map Node.kind = stack.map Node.kind := by
  induction stack with
  | nil => rw [checkOpen_nil]
  | cons node outer ih =>
      by_cases hItem : node.kind = .listItem
      · rw [checkOpen_item hItem, List.map_cons, List.map_cons, Node.kind_checkedBy]
      · rw [checkOpen_other hItem, List.map_cons, List.map_cons, ih]

/-- A check box and what stands in the innermost node do not get in each other's way. -/
theorem exists_checkOpen (mark : Option Bool) (top : Node) (outer : List Node) :
    ∃ (marked : Node) (rest : List Node), marked.kind = top.kind ∧ ∀ nodes value,
      checkOpen mark (top.extend nodes value :: outer) = marked.extend nodes value :: rest := by
  by_cases hItem : top.kind = .listItem
  · refine ⟨top.checkedBy mark, outer, top.kind_checkedBy mark, fun nodes value => ?_⟩
    have hExtended : (top.extend nodes value).kind = .listItem := hItem
    rw [checkOpen_item hExtended, Node.checkedBy_extend]
  · refine ⟨top, checkOpen mark outer, rfl, fun nodes value => ?_⟩
    have hExtended : (top.extend nodes value).kind ≠ .listItem := hItem
    rw [checkOpen_other hExtended]

end CheckOpen

/-- An event that starts and ends nothing adds to the innermost node alone, a check box apart. -/
theorem stack_step_leaf {event : Event} (hLeaf : event.isBoundary = false) (assembly : Assembly) :
    (assembly.step event).stack =
      checkOpen event.mark?
        (assembly.top.extend (event.nodesIn assembly.top.kind) (event.valueIn assembly.top.kind) ::
          assembly.outer) := by
  obtain ⟨top, outer⟩ := assembly
  have hText : ∀ value : Text, top.appendText value =
      top.extend (if top.kind = .code then [] else [.ofText value])
        (if top.kind = .code then value else []) := by
    intro value
    rw [Node.appendText_eq]
    by_cases hCode : top.kind = .code
    · simp [hCode, Node.extend]
    · simp [hCode, Node.extend, Node.addNode, Node.ofText]
  have hPush : ∀ (kind : NodeKind) (value : Text), kind ≠ .text →
      top.appendChild { kind, value } = top.extend [{ kind, value }] [] :=
    fun kind value hKind => Node.appendChild_eq_extend hKind top
  cases event with
  | text value => exact congrArg (· :: outer) (hText value)
  | softBreak => exact congrArg (· :: outer) (hText ['\n'])
  | code value => exact congrArg (· :: outer) (hPush .inlineCode value (by decide))
  | hardBreak => exact congrArg (· :: outer) (hPush .break [] (by decide))
  | thematicBreak => exact congrArg (· :: outer) (hPush .thematicBreak [] (by decide))
  | html value =>
      have hHtml : top.appendHtml value =
          top.extend (if top.kind = .html then [] else [.ofHtml value])
            (if top.kind = .html then value else []) := by
        unfold Node.appendHtml
        by_cases hKind : top.kind = .html
        · simp [hKind, Node.extend]
        · rw [if_neg hKind, if_neg hKind, if_neg hKind]
          exact hPush .html value (by decide)
      exact congrArg (· :: outer) hHtml
  | taskMarker checked =>
      show _ = checkOpen (some checked) (top.extend [] [] :: outer)
      obtain ⟨marked, rest, -, hMarked⟩ := exists_checkOpen (some checked) top outer
      have hCheck : checkItem (Node.checkedValue checked) (top :: outer) =
          marked.extend [] [] :: rest := by
        have hStack := hMarked [] []
        rwa [Node.extend_nil, checkOpen] at hStack
      rw [hMarked, Assembly.step, hCheck]
      rfl
  | _ => cases hLeaf

/-- The end of an element puts its node into the node around it. -/
theorem step_stop (tag : Tag) (node parent : Node) (outer : List Node) :
    (⟨node, parent :: outer⟩ : Assembly).step (.stop tag) =
      ⟨parent.appendChild (tag.finish node), outer⟩ := by
  cases tag <;> rfl

/-- A check box in an item stays with the item, and one in another element goes to the nodes around
it. -/
theorem checkOpen_element {tag : Tag} {node : Node} (hKind : node.kind = tag.node.kind)
    (mark : Option Bool) (outer : List Node) :
    checkOpen mark (node :: outer) =
      (if tag.isItem then node.checkedBy mark else node) ::
        checkOpen (if tag.isItem then none else mark) outer := by
  by_cases hItem : tag.isItem = true
  · rw [if_pos hItem, if_pos hItem]
    exact checkOpen_item (hKind.trans (tag.kind_node_listItem_iff.2 hItem)) mark outer
  · rw [if_neg hItem, if_neg hItem]
    exact checkOpen_other (fun h => hItem (tag.kind_node_listItem_iff.1 (hKind ▸ h))) mark outer

/-- The text of an image's content takes the place of its children. -/
theorem describeImage_eq {node : Node} (hKind : node.kind = .image) (hChildren : node.children = [])
    (hValue : node.value = []) (children : List Node) :
    { node with children, value := [] : Node }.describeImage =
      node.withAttribute (text "alt") (Node.allTextContent children) := by
  obtain ⟨_, _, _, _, _, _⟩ := node
  cases hKind
  cases hChildren
  cases hValue
  rfl

/-- The node of an element, as its end leaves it. -/
theorem finish_extend (tag : Tag) {nodes : List Node} (hNodes : Node.PlainTexts nodes) {value : Text}
    (hValue : tag.isImage = true → value = []) (mark : Option Bool) :
    tag.finish (if tag.isItem then (tag.node.extend nodes value).checkedBy mark
      else tag.node.extend nodes value) = tag.nodeWith (Node.joinTexts nodes) value mark := by
  have hExtend : tag.node.extend nodes value =
      { tag.node with children := Node.joinTexts nodes, value } := by
    rw [Node.extend, tag.children_node, tag.value_node, Node.foldl_addNode hNodes, List.nil_append]
  rw [hExtend]
  cases tag with
  | image url title =>
      rw [hValue rfl]
      exact describeImage_eq (Node.kind_withTitle ..) (Tag.children_node _) (Tag.value_node _) _
  | item span => cases mark <;> rfl
  | _ => rfl

/-- An image has no value. -/
theorem allValuesIn_of_isImage {tag : Tag} (h : tag.isImage = true) (content : List EventTree) :
    EventTree.allValuesIn tag.node.kind content = [] := by
  have hKind : tag.node.kind = .image := by
    cases tag with
    | image url title => exact Node.kind_withTitle ..
    | _ => cases h
  rw [hKind, EventTree.allValuesIn, List.flatMap_eq_nil_iff]
  intro tree _
  cases tree with
  | leaf event _ => cases event <;> rfl
  | element tag content => rfl

mutual

/-- The events of a tree add its nodes to the innermost one, and leave all others but for a check
box. -/
theorem stack_events (tree : EventTree) (assembly : Assembly) :
    (tree.events.foldl step assembly).stack =
      checkOpen tree.mark?
        (assembly.top.extend (tree.nodesIn assembly.top.kind) (tree.valueIn assembly.top.kind) ::
          assembly.outer) := by
  match tree with
  | .leaf event hLeaf => exact stack_step_leaf hLeaf assembly
  | .element tag content =>
      obtain ⟨top, outer⟩ := assembly
      obtain ⟨marked, rest, -, hMarked⟩ := exists_checkOpen (element tag content).mark? top outer
      have hOuter := hMarked [] []
      rw [Node.extend_nil, Node.extend_nil] at hOuter
      have hContent := stack_allEvents content ⟨tag.node, top :: outer⟩
      rw [checkOpen_element (Node.kind_extend ..)] at hContent
      have hInner := eq_of_stack (hContent.trans (congrArg _ hOuter))
      have hMade := finish_extend tag (EventTree.plainTexts_allNodesIn tag.node.kind content)
        (allValuesIn_of_isImage · content) (EventTree.lastMark? content)
      have hText := (tag.kind_nodeWith (Node.joinTexts (allNodesIn tag.node.kind content))
        (allValuesIn tag.node.kind content) (lastMark? content)).trans_ne tag.kind_node_ne.1
      rw [EventTree.events, Tag.around, List.cons_append, List.foldl_cons, List.foldl_append, step,
        hInner, List.foldl_cons, step_stop, hMade, Node.appendChild_eq_extend hText]
      exact (hMarked ..).symm

/-- Trees extend the innermost node and set the check box of the innermost item. -/
theorem stack_allEvents (trees : List EventTree) (assembly : Assembly) :
    ((EventTree.allEvents trees).foldl step assembly).stack =
      checkOpen (EventTree.lastMark? trees)
        (assembly.top.extend (EventTree.allNodesIn assembly.top.kind trees)
          (EventTree.allValuesIn assembly.top.kind trees) :: assembly.outer) := by
  match trees with
  | [] => exact congrArg (· :: assembly.outer) assembly.top.extend_nil.symm
  | tree :: rest =>
      obtain ⟨marked, outer, hKind, hMarked⟩ :=
        exists_checkOpen tree.mark? assembly.top assembly.outer
      have hTree := stack_events tree assembly
      rw [hMarked] at hTree
      rw [EventTree.allEvents, List.foldl_append, eq_of_stack hTree, stack_allEvents rest,
        Node.kind_extend, Node.extend_extend, hKind, ← hMarked, checkOpen_checkOpen]
      rfl

end

/-- The stack holds the root and above it a node for each open element. -/
def StandsFor (opened : List Tag) (assembly : Assembly) : Prop :=
  assembly.stack.map Node.kind = opened.map (fun tag => tag.node.kind) ++ [.root]

/-- An event keeps the stack in step with the open elements. -/
theorem standsFor_step {opened later : List Tag} {event : Event} {assembly : Assembly}
    (h : StandsFor opened assembly) (hOpened : openTags opened [event] = some later) :
    StandsFor later (assembly.step event) := by
  by_cases hLeaf : event.isBoundary = false
  · have hSame : opened = later := by
      rw [openTags_leaf hLeaf] at hOpened
      cases opened <;> exact Option.some.inj hOpened
    rw [StandsFor, stack_step_leaf hLeaf, kinds_checkOpen, ← hSame]
    exact h
  · cases event with
    | start tag =>
        cases hOpened
        exact congrArg (tag.node.kind :: ·) h
    | stop tag =>
        cases opened with
        | nil => cases hOpened
        | cons innermost opened =>
            rw [openTags] at hOpened
            split at hOpened
            · obtain ⟨top, outer⟩ := assembly
              obtain ⟨parent, rest, rfl, hParent⟩ :
                  ∃ parent rest, outer = parent :: rest ∧ StandsFor opened ⟨parent, rest⟩ := by
                have hOuter : outer.map Node.kind =
                    opened.map (fun tag => tag.node.kind) ++ [.root] := (List.cons.inj h).2
                cases outer with
                | nil => simp at hOuter
                | cons parent rest => exact ⟨parent, rest, rfl, hOuter⟩
              have hSame : opened = later := by
                cases opened <;> exact Option.some.inj hOpened
              rw [step_stop, ← hSame]
              exact hParent
            · cases hOpened
    | _ => exact absurd rfl hLeaf

/-- Events keep the stack in step with the open elements. -/
theorem standsFor_run {opened later : List Tag} {events : List Event} {assembly : Assembly}
    (h : StandsFor opened assembly) (hOpened : openTags opened events = some later) :
    StandsFor later (events.foldl step assembly) := by
  induction events generalizing opened assembly with
  | nil =>
      have hSame : opened = later := by cases opened <;> exact Option.some.inj hOpened
      exact hSame ▸ h
  | cons event rest ih =>
      obtain ⟨between, hEvent, hRest⟩ := Option.bind_eq_some_iff.1
        ((openTags_append opened [event] rest).symm.trans hOpened)
      exact ih (standsFor_step h hEvent) hRest

end Assembly

mutual

/-- The search for the end of an element passes over whole trees. -/
theorem innerEvents?_events (tree : EventTree) (depth : Nat) (rest : List Event) :
    innerEvents? depth (tree.events ++ rest) = (innerEvents? depth rest).map (tree.events ++ ·) := by
  match tree with
  | .leaf event hLeaf => exact innerEvents?_cons hLeaf depth rest
  | .element tag content =>
      simp [EventTree.events, Tag.around, innerEvents?, innerEvents?_allEvents content,
        Function.comp_def]

/-- The end of an open element does not stand among the events of trees inside it. -/
theorem innerEvents?_allEvents (trees : List EventTree) (depth : Nat) (rest : List Event) :
    innerEvents? depth (EventTree.allEvents trees ++ rest) =
      (innerEvents? depth rest).map (EventTree.allEvents trees ++ ·) := by
  match trees with
  | [] => simp [EventTree.allEvents]
  | tree :: more =>
      rw [EventTree.allEvents, List.append_assoc, innerEvents?_events tree,
        innerEvents?_allEvents more, Option.map_map]
      simp [Function.comp_def]

end

/-- What the stack makes of the events of trees. At every point it holds the root and one node for each
open element. The search for the end of an element finds its own. -/
structure Assembled (trees : List EventTree) (events : List Event) : Prop where
  forest : EventTree.allEvents trees = events
  nodes : (events.foldl Assembly.step {}).finish =
    Node.joinTexts (EventTree.allNodesIn .root trees)
  apart : ({ kind := .root, children := (events.foldl Assembly.step {}).finish } : Node).Everywhere
    fun node => Node.TextsApart node.children
  stack : ∀ before after, before ++ after = events → ∃ opened, openTags [] before = some opened ∧
    (before.foldl Assembly.step {}).stack.map Node.kind =
      opened.map (fun tag => tag.node.kind) ++ [.root]
  ended : (events.foldl Assembly.step {}).outer = []
  matching : ∀ before tag after, before ++ .start tag :: after = events → ∃ inner rest,
    after = inner ++ .stop tag :: rest ∧ WellNested inner ∧ innerEvents? 0 after = some inner

/-- The stack makes of well-nested events the nodes of their forest. -/
theorem exists_assembled {events : List Event} (hNested : WellNested events) :
    ∃ trees, Assembled trees events := by
  obtain ⟨trees, rfl⟩ := wellNested_iff.1 hNested
  have hStack := Assembly.stack_allEvents trees {}
  rw [Assembly.checkOpen_other (by rw [Node.kind_extend]; decide), Assembly.checkOpen_nil] at hStack
  have hFinish := Assembly.eq_of_stack hStack
  have hNodes : ((EventTree.allEvents trees).foldl Assembly.step {}).finish =
      Node.joinTexts (EventTree.allNodesIn .root trees) := by
    rw [hFinish]
    exact Node.foldl_addNode (EventTree.plainTexts_allNodesIn .root trees)
  refine ⟨trees, rfl, hNodes, ?_, ?_, ?_, ?_⟩
  · rw [hNodes]
    exact .intro (Node.textsApart_joinTexts _)
      (Node.everywhere_joinTexts (EventTree.textsApart_allNodesIn .root trees))
  · intro before after hEvents
    rw [WellNested, ← hEvents, openTags_append] at hNested
    obtain ⟨opened, hOpened, -⟩ := Option.bind_eq_some_iff.1 hNested
    have hStart : Assembly.StandsFor [] {} := rfl
    exact ⟨opened, hOpened, Assembly.standsFor_run hStart hOpened⟩
  · rw [hFinish]
  · intro before tag after hEvents
    obtain ⟨content, rest, rfl⟩ := (hEvents ▸ hNested).exists_content
    refine ⟨_, rest, rfl, wellNested_allEvents content, ?_⟩
    rw [innerEvents?_allEvents, innerEvents?, Option.map_some, List.append_nil]

theorem exists_assembled_item :
    ∃ events : List Event, WellNested events ∧ (∃ trees, Assembled trees events) ∧
      (events.foldl Assembly.step {}).finish =
        [{ kind := .list
           attributes := TextMap.ofList [(text "ordered", text "false")]
           children :=
            [{ kind := .listItem
               attributes := TextMap.ofList [(text "checked", text "true")]
               children :=
                [.ofText (text "a\nb"),
                 { kind := .image
                   attributes := TextMap.ofList [(text "alt", text "c"), (text "url", text "u")] },
                 .ofText (text "d")] }] }] :=
  ⟨[.start (.list none), .start (.item ⟨0, 0⟩), .taskMarker true, .text (text "a"), .softBreak,
      .text (text "b"), .start (.image (text "u") []), .text (text "c"),
      .stop (.image (text "u") []), .text (text "d"), .stop (.item ⟨0, 0⟩), .stop (.list none)],
    by decide, exists_assembled (by decide), rfl⟩

/-- Without answers for whole elements, all events go to the stack. -/
theorem assemble_eq_foldl {reread : Tag → List Event → Option Node}
    (h : ∀ tag inner, reread tag inner = none) (assembly : Assembly) (events : List Event) :
    assemble reread 0 assembly events = events.foldl Assembly.step assembly := by
  induction events generalizing assembly with
  | nil => rfl
  | cons event rest ih =>
      cases event with
      | start tag =>
          have hNone : (innerEvents? 0 rest).bind (reread tag) = none := by
            cases innerEvents? 0 rest with
            | none => rfl
            | some inner => exact h tag inner
          rw [assemble, hNone]
          exact ih _
      | _ => exact ih _

theorem Text.hasDoubleColon_iff_infix {s : Text} :
    Text.hasDoubleColon s = true ↔ [':', ':'] <:+: s := by
  induction s with
  | nil => simp [Text.hasDoubleColon]
  | cons c s ih =>
      rw [Text.hasDoubleColon, List.infix_cons_iff, ← ih]
      cases s with
      | nil => simp [Text.hasDoubleColon]
      | cons d s => grind

/-- In a source without two colons that stand together no element is read again. -/
theorem markdownNodes_eq_joinTexts {source : Text} (h : Text.hasDoubleColon source = false)
    (gfm : Bool) (read : Text → List Node) :
    ∃ trees, EventTree.allEvents trees = events gfm source ∧
      markdownNodes gfm read source = Node.joinTexts (EventTree.allNodesIn .root trees) := by
  have hSlice : ∀ span : Span, Text.hasDoubleColon (span.slice source) = false := by
    intro span
    rw [← Bool.not_eq_true, Text.hasDoubleColon_iff_infix] at h ⊢
    exact fun hInfix => h (hInfix.trans
      ((List.take_prefix ..).isInfix.trans (List.drop_suffix ..).isInfix))
  have hSilent : ∀ tag inner, reread? read source tag inner = none := by
    intro tag inner
    cases tag <;> simp [reread?, hSlice]
  obtain ⟨trees, hTrees⟩ := exists_assembled (wellNested_events gfm source)
  refine ⟨trees, hTrees.forest, ?_⟩
  rw [markdownNodes, assemble_eq_foldl hSilent, hTrees.nodes]

end DirectiveMarkdown
