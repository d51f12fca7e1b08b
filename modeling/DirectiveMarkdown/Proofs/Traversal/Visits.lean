import DirectiveMarkdown.Proofs.Traversal.Ending
import Mathlib.Data.List.Basic

/-! The visits of a pass that succeeds. Though the tree changes under the pass and the visitor may
keep a state, the visits are the places of the resulting tree in pre-order, and what is shown at each
of them is settled by what the visits above it left and by what has become of the nodes before. -/
namespace DirectiveMarkdown

namespace Node

/-- The node at a place, which is given by the indices that lead to it. -/
def at? : Node → List Nat → Option Node
  | node, [] => some node
  | node, index :: path => (node.children[index]?).bind fun child => child.at? path

mutual

/-- The places of a tree, parents before children. -/
def paths : Node → List (List Nat)
  | ⟨_, _, _, _, children, _⟩ => [] :: pathsFrom 0 children

/-- The places of several trees, of which the first has the index `first`. -/
def pathsFrom (first : Nat) : List Node → List (List Nat)
  | [] => []
  | node :: rest => node.paths.map (first :: ·) ++ pathsFrom (first + 1) rest

end

theorem paths_eq (node : Node) : node.paths = [] :: pathsFrom 0 node.children := by
  cases node
  rw [paths]

/-- A place among several trees is the index of one of them and a place in it. -/
theorem mem_pathsFrom {first : Nat} {nodes : List Node} {path : List Nat} :
    path ∈ pathsFrom first nodes ↔
      ∃ index child inner, nodes[index]? = some child ∧ inner ∈ child.paths ∧
        path = (first + index) :: inner := by
  induction nodes generalizing first with
  | nil => simp [pathsFrom]
  | cons node rest ih =>
      rw [pathsFrom, List.mem_append, ih, List.mem_map]
      constructor
      · rintro (⟨inner, hInner, rfl⟩ | ⟨index, child, inner, hChild, hInner, rfl⟩)
        · exact ⟨0, node, inner, rfl, hInner, rfl⟩
        · refine ⟨index + 1, child, inner, hChild, hInner, ?_⟩
          rw [Nat.add_assoc, Nat.add_comm 1]
      · rintro ⟨_ | index, child, inner, hChild, hInner, rfl⟩
        · cases hChild
          exact .inl ⟨inner, hInner, rfl⟩
        · refine .inr ⟨index, child, inner, hChild, hInner, ?_⟩
          rw [Nat.add_assoc, Nat.add_comm 1]

/-- The places of a tree are those where there is a node. -/
theorem mem_paths_iff (node : Node) (path : List Nat) :
    path ∈ node.paths ↔ (node.at? path).isSome = true := by
  induction path generalizing node with
  | nil => simp [paths_eq, at?]
  | cons index path ih =>
      rw [paths_eq, List.mem_cons, mem_pathsFrom, at?]
      cases hChild : node.children[index]? with
      | none => simp +contextual [hChild]
      | some child => simp [hChild, ih]

theorem pathsFrom_increasing {nodes : List Node}
    (h : ∀ node ∈ nodes, node.paths.Pairwise (· < ·)) (first : Nat) :
    (pathsFrom first nodes).Pairwise (· < ·) := by
  induction nodes generalizing first with
  | nil => exact .nil
  | cons node rest ih =>
      rw [pathsFrom, List.pairwise_append]
      refine ⟨?_, ih (fun other hMem => h other (List.mem_cons_of_mem _ hMem)) _, ?_⟩
      · refine (h node (List.mem_cons_self ..)).map _ fun a b hLt => ?_
        exact List.cons_lt_cons_iff.2 (.inr ⟨rfl, hLt⟩)
      · intro before hBefore after hAfter
        obtain ⟨inner, -, rfl⟩ := List.mem_map.1 hBefore
        obtain ⟨index, _, _, -, -, rfl⟩ := mem_pathsFrom.1 hAfter
        exact List.cons_lt_cons_iff.2 (.inl (by omega))

/-- The places of a tree stand in lexicographic order, which is pre-order. -/
theorem paths_increasing (node : Node) : node.paths.Pairwise (· < ·) := by
  induction node using inductionOnChildren with
  | step node ih =>
      rw [paths_eq, List.pairwise_cons]
      refine ⟨?_, pathsFrom_increasing ih 0⟩
      intro path hMem
      obtain ⟨index, _, inner, -, -, rfl⟩ := mem_pathsFrom.1 hMem
      exact List.nil_lt_cons ..

mutual

/-- A tree has as many places as nodes. -/
theorem length_paths : ∀ node : Node, node.paths.length = node.count
  | ⟨_, _, _, _, children, _⟩ => by
    rw [paths, count, List.length_cons, length_pathsFrom, Nat.add_comm]

theorem length_pathsFrom : ∀ (first : Nat) (nodes : List Node),
    (pathsFrom first nodes).length = countAll nodes
  | _, [] => rfl
  | first, node :: rest => by
    rw [pathsFrom, countAll, List.length_append, List.length_map, length_paths, length_pathsFrom]

end

end Node

/-- A call of a visitor that succeeds: what it is shown, and what it decides. -/
structure Visit where
  position : Position
  node : Node
  action : Action

namespace Visit

def left (visit : Visit) : Node := visit.action.apply visit.node

/-- What a visit tells about the node that ends up at a place, in a pass that starts with `node` at
`position`, makes these visits and ends with `made`. -/
structure Fits (visit : Visit) (position : Position) (node : Node)
    (visits : List (List Nat × Visit)) (made : Node) (path : List Nat) : Prop where
  /-- At the root the pass starts. -/
  root : path = [] → visit.position = position ∧ visit.node = node
  /-- Elsewhere a child of what the visit of the parent left is visited, and the parent is shown as
  it ends up, except that this child and the later ones are still as the parent's visit left them. -/
  child : ∀ above index, path = above ++ [index] → ∃ parent final, (above, parent) ∈ visits ∧
    made.at? above = some final ∧
    visit.position = ⟨position.depth + path.length, some (index,
      { final with children := final.children.take index ++ parent.left.children.drop index })⟩ ∧
    parent.left.children[index]? = some visit.node
  /-- The node ends up as the visit left it, except for what becomes of the children in turn. -/
  final : ∃ final, made.at? path = some final ∧
    final = { visit.left with children := final.children } ∧
    final.children.length = visit.left.children.length

end Visit

namespace Visitor

variable {σ ε : Type}

/-- The visitor with a log of its successful calls, the last one at the end. -/
def logged (visitor : Visitor σ ε) : Visitor (σ × List Visit) ε :=
  fun position node (state, log) =>
    match visitor position node state with
    | (.error error, next) => (.error error, next, log)
    | (.ok action, next) => (.ok action, next, log ++ [⟨position, node, action⟩])

/-- The visits are calls of the visitor one after the other, which take it from a state to another. -/
def Answers (visitor : Visitor σ ε) : σ → List Visit → σ → Prop
  | state, [], final => state = final
  | state, visit :: rest, final =>
    ∃ next, visitor visit.position visit.node state = (.ok visit.action, next) ∧
      visitor.Answers next rest final

variable {visitor : Visitor σ ε}

theorem Answers.append {state middle final : σ} {a b : List Visit} (hA : visitor.Answers state a middle)
    (hB : visitor.Answers middle b final) : visitor.Answers state (a ++ b) final := by
  induction a generalizing state with
  | nil =>
      cases hA
      exact hB
  | cons visit rest ih =>
      obtain ⟨next, hAnswer, hRest⟩ := hA
      exact ⟨next, hAnswer, ih hRest⟩

theorem logged_of_ok {position : Position} {node : Node} {state next : σ} {action : Action}
    (h : visitor position node state = (.ok action, next)) (log : List Visit) :
    visitor.logged position node (state, log) =
      (.ok action, next, log ++ [⟨position, node, action⟩]) := by
  simp only [logged, h]

/-- The visits of a part of a pass that succeeds within a bound, each with the place where its node
ends up. -/
structure Visits (visitor : Visitor σ ε) (bound : Nat) (position : Position) (node : Node)
    (state : σ) (visits : List (List Nat × Visit)) (made : Node) (final : σ) : Prop where
  paths : visits.map Prod.fst = made.paths
  answers : visitor.Answers state (visits.map Prod.snd) final
  fits : ∀ path visit, (path, visit) ∈ visits → visit.Fits position node visits made path
  logged : ∀ log, visitor.logged.below bound position node (state, log) =
    some ⟨made, (final, log ++ visits.map Prod.snd), none⟩

end Visitor

/-- A visit below a child is a visit below the parent, at a place that starts with the index of the
child. -/
theorem Visit.Fits.inside {visit root : Visit} {position : Position} {node child madeChild : Node}
    {visits all : List (List Nat × Visit)} {index : Nat} {path : List Nat} {children : List Node}
    (h : visit.Fits
      ⟨position.depth + 1, some (index,
        { root.left with children := children.take index ++ root.left.children.drop index })⟩
      child visits madeChild path)
    (hRoot : ([], root) ∈ all) (hVisits : ∀ path visit, (path, visit) ∈ visits →
      (index :: path, visit) ∈ all)
    (hChild : root.left.children[index]? = some child) (hMade : children[index]? = some madeChild) :
    visit.Fits position node all { root.left with children } (index :: path) where
  root hNil := by cases hNil
  child := by
    intro above last hPath
    rcases List.eq_nil_or_concat' path with rfl | ⟨inner, index', rfl⟩
    · obtain ⟨rfl, rfl⟩ : above = [] ∧ last = index := by
        cases above <;> simp_all
      obtain ⟨hPosition, hNode⟩ := h.root rfl
      exact ⟨root, _, hRoot, rfl, hPosition, by rw [hChild, hNode]⟩
    · obtain ⟨rfl, rfl⟩ : above = index :: inner ∧ last = index' := by
        cases above <;> simp_all
      obtain ⟨parent, final, hParent, hFinal, hPosition, hNode⟩ := h.child inner last rfl
      refine ⟨parent, final, hVisits _ _ hParent, ?_, ?_, hNode⟩
      · simpa [Node.at?, hMade] using hFinal
      · rw [hPosition]
        simp [Nat.add_assoc, Nat.add_comm]
  final := by
    obtain ⟨final, hFinal, hLeft⟩ := h.final
    refine ⟨final, ?_, hLeft⟩
    simpa [Node.at?, hMade] using hFinal

namespace Visitor

variable {σ ε : Type} {visitor : Visitor σ ε}

/-- The same for children of the node that the visit `root` left: `done` are finished, and `nodes` come
out as `made`. Their visits fit into those of any pass that has them below this visit. -/
structure ChildVisits (visitor : Visitor σ ε) (bound : Nat) (position : Position) (root : Visit)
    (done nodes : List Node) (state : σ) (visits : List (List Nat × Visit)) (made : List Node)
    (final : σ) : Prop where
  length : made.length = nodes.length
  paths : visits.map Prod.fst = Node.pathsFrom done.length made
  answers : visitor.Answers state (visits.map Prod.snd) final
  fits : ∀ node all, ([], root) ∈ all → (∀ entry ∈ visits, entry ∈ all) →
    ∀ path visit, (path, visit) ∈ visits →
      visit.Fits position node all { root.left with children := done ++ made } path
  logged : ∀ log, children? (visitor.logged.below bound) (position.depth + 1) root.left done nodes
    (state, log) = some ⟨done ++ made, (final, log ++ visits.map Prod.snd), none⟩

variable {bound : Nat} {position : Position} {state next final : σ}

theorem ChildVisits.nil {root : Visit} {done : List Node} :
    visitor.ChildVisits bound position root done [] state [] [] state where
  length := rfl
  paths := rfl
  answers := rfl
  fits _ _ _ _ _ _ hMem := by cases hMem
  logged log := by simp [children?]

/-- The visits below the first child come before those below the other ones. -/
theorem ChildVisits.cons {root : Visit} {done rest made : List Node} {child madeChild : Node}
    {childVisits visits : List (List Nat × Visit)}
    (hNodes : root.left.children.drop done.length = child :: rest)
    (hChild : visitor.Visits bound ⟨position.depth + 1,
        some (done.length, { root.left with children := done ++ child :: rest })⟩
      child state childVisits madeChild next)
    (hRest : visitor.ChildVisits bound position root (done ++ [madeChild]) rest next visits made
      final) :
    visitor.ChildVisits bound position root done (child :: rest) state
      (childVisits.map (fun entry => (done.length :: entry.1, entry.2)) ++ visits)
      (madeChild :: made) final where
  length := by simp [hRest.length]
  paths := by
    rw [List.map_append, hRest.paths, Node.pathsFrom, ← hChild.paths]
    simp
  answers := by
    rw [List.map_append, List.map_map]
    exact hChild.answers.append hRest.answers
  fits := by
    intro node all hRoot hAll path visit hMem
    rw [List.append_cons]
    rcases List.mem_append.1 hMem with hMem | hMem
    · obtain ⟨⟨inner, visit⟩, hInner, hEntry⟩ := List.mem_map.1 hMem
      cases hEntry
      have hShown : done ++ child :: rest =
          (done ++ [madeChild] ++ made).take done.length ++
            root.left.children.drop done.length := by
        rw [hNodes]
        simp
      have hFirst : root.left.children[done.length]? = some child := by
        rw [← List.head?_drop, hNodes, List.head?_cons]
      have hFits := hChild.fits inner visit hInner
      rw [hShown] at hFits
      refine hFits.inside hRoot ?_ hFirst (by simp)
      intro path visit hMem
      exact hAll _ (List.mem_append_left _
        (List.mem_map_of_mem (f := fun entry => (done.length :: entry.1, entry.2)) hMem))
    · exact hRest.fits node all hRoot (fun entry hMem => hAll _ (List.mem_append_right _ hMem))
        path visit hMem
  logged := by
    intro log
    rw [children?_cons, hChild.logged]
    simp [hRest.logged]

/-- Children that all succeed are visited one after the other, each with what is below it. -/
theorem exists_childVisits
    (hBelow : ∀ position node state made final,
      visitor.below bound position node state = some ⟨made, final, none⟩ →
        ∃ visits, visitor.Visits bound position node state visits made final)
    {root : Visit} {done nodes children : List Node}
    (hNodes : root.left.children.drop done.length = nodes)
    (h : children? (visitor.below bound) (position.depth + 1) root.left done nodes state =
      some ⟨children, final, none⟩) :
    ∃ visits made, children = done ++ made ∧
      visitor.ChildVisits bound position root done nodes state visits made final := by
  induction nodes generalizing done state with
  | nil =>
      cases h
      exact ⟨[], [], (List.append_nil _).symm, .nil⟩
  | cons child rest ih =>
      rw [children?_cons] at h
      split at h
      · cases h
      · cases h
      · next madeChild next hChild =>
          have hLater : root.left.children.drop (done ++ [madeChild]).length = rest := by
            rw [List.length_append, List.length_singleton, ← List.drop_drop, hNodes,
              List.drop_one, List.tail_cons]
          obtain ⟨childVisits, hVisits⟩ := hBelow _ _ _ _ _ hChild
          obtain ⟨visits, made, hMade, hRest⟩ := ih hLater h
          exact ⟨_, madeChild :: made, hMade.trans (List.append_cons ..).symm,
            .cons hNodes hVisits hRest⟩

/-- The first visit is that of the node, and the visits of the children follow it. -/
theorem ChildVisits.toVisits {node : Node} {action : Action} {made : List Node}
    {visits : List (List Nat × Visit)} (hAnswer : visitor position node state = (.ok action, next))
    (h : visitor.ChildVisits bound position ⟨position, node, action⟩ []
      (action.apply node).children next visits made final) :
    visitor.Visits (bound + 1) position node state (([], ⟨position, node, action⟩) :: visits)
      { action.apply node with children := made } final where
  paths := by
    rw [List.map_cons, h.paths, Node.paths_eq]
    rfl
  answers := ⟨next, hAnswer, h.answers⟩
  fits := by
    intro path visit hMem
    rcases List.mem_cons.1 hMem with hRoot | hMem
    · cases hRoot
      refine ⟨fun _ => ⟨rfl, rfl⟩, fun above index hPath => ?_, _, rfl, rfl, h.length⟩
      simp at hPath
    · exact h.fits node _ (List.mem_cons_self ..) (fun _ => List.mem_cons_of_mem _) path visit hMem
  logged := by
    intro log
    have hChildren : children? (visitor.logged.below bound) (position.depth + 1) (action.apply node)
        [] (action.apply node).children (next, log ++ [⟨position, node, action⟩]) =
        some ⟨made, (final, log ++ [⟨position, node, action⟩] ++ visits.map Prod.snd), none⟩ :=
      h.logged _
    refine (walk?_of_ok (logged_of_ok hAnswer log) bound).trans ?_
    rw [hChildren, List.append_assoc]
    rfl

/-- If the visits below a node can be told, so can those of the node. -/
theorem visits_of_walk?
    (hBelow : ∀ position node state made final,
      visitor.below bound position node state = some ⟨made, final, none⟩ →
        ∃ visits, visitor.Visits bound position node state visits made final)
    {node made : Node} (h : visitor.walk? bound position node state = some ⟨made, final, none⟩) :
    ∃ visits, visitor.Visits (bound + 1) position node state visits made final := by
  rcases hAnswer : visitor position node state with ⟨error | action, next⟩
  · rw [walk?_of_error hAnswer] at h
    cases h
  · rw [walk?_of_ok hAnswer] at h
    obtain ⟨⟨children, final', error⟩, hChildren, hMade⟩ := Option.map_eq_some_iff.1 h
    cases hMade
    have hNodes : (Visit.mk position node action).left.children.drop ([] : List Node).length =
      (action.apply node).children := rfl
    obtain ⟨visits, made, rfl, hVisits⟩ := exists_childVisits hBelow hNodes hChildren
    exact ⟨_, hVisits.toVisits hAnswer⟩

/-- A pass that succeeds makes visits, one at each place of the result. -/
theorem exists_visits {node made : Node}
    (h : visitor.walk? bound position node state = some ⟨made, final, none⟩) :
    ∃ visits, visitor.Visits (bound + 1) position node state visits made final := by
  induction bound generalizing position node made state final with
  | zero => exact visits_of_walk? (fun _ _ _ _ _ hBelow => by cases hBelow) h
  | succ bound ih => exact visits_of_walk? (fun _ _ _ _ _ hBelow => ih hBelow) h

/-- A pass that succeeds visits the places of the resulting tree, each once and in pre-order. At each
of them the visitor is shown the node as the visit of its parent left it, and the parent as it ends
up but for this and the later children. All that becomes of a node is what its visit makes of it and
what becomes of the children it then has. -/
theorem traverse?_visits {bound : Nat} {tree made : Node} {state final : σ}
    (h : visitor.traverse? bound tree state = some ⟨made, final, none⟩) :
    ∃ visits : List (List Nat × Visit),
      visitor.logged.traverse? bound tree (state, []) =
        some ⟨made, (final, visits.map Prod.snd), none⟩ ∧
      visitor.Answers state (visits.map Prod.snd) final ∧
      (visits.map Prod.fst).Pairwise (· < ·) ∧
      (∀ path, path ∈ visits.map Prod.fst ↔ (made.at? path).isSome = true) ∧
      visits.length = made.count ∧
      ∀ path visit, (path, visit) ∈ visits → visit.Fits .root tree visits made path := by
  obtain ⟨visits, hVisits⟩ := exists_visits h
  have hLength : visits.length = made.count := by
    rw [← Node.length_paths, ← hVisits.paths, List.length_map]
  refine ⟨visits, hVisits.logged [], hVisits.answers, ?_, ?_, hLength, hVisits.fits⟩
  · rw [hVisits.paths]
    exact made.paths_increasing
  · rw [hVisits.paths]
    exact made.mem_paths_iff

/-- The visitor that counts its calls and at the second one wraps the node into a paragraph. -/
def wrapSecond : Visitor Nat Empty := fun _ node calls =>
  (.ok (if calls = 1 then .replace { kind := .paragraph, children := [node] } else .keep), calls + 1)

/-- The wrapped text is visited again, inside the paragraph, and the text after it last. -/
theorem traverse?_visits_wrapSecond :
    wrapSecond.traverse? 2 { kind := .root, children := [.ofText ['a'], .ofText ['b']] } 0 =
      some ⟨{ kind := .root
              children := [{ kind := .paragraph, children := [.ofText ['a']] }, .ofText ['b']] },
        4, none⟩ ∧
    ∃ visits : List (List Nat × Visit), visits.length = 4 ∧
      (visits.map Prod.fst).Pairwise (· < ·) ∧ [0, 0] ∈ visits.map Prod.fst ∧
      ∀ path visit, (path, visit) ∈ visits →
        visit.Fits .root { kind := .root, children := [.ofText ['a'], .ofText ['b']] } visits
          { kind := .root
            children := [{ kind := .paragraph, children := [.ofText ['a']] }, .ofText ['b']] }
          path := by
  have hPass : wrapSecond.traverse? 2
      { kind := .root, children := [.ofText ['a'], .ofText ['b']] } 0 =
      some ⟨{ kind := .root
              children := [{ kind := .paragraph, children := [.ofText ['a']] }, .ofText ['b']] },
        4, none⟩ := rfl
  obtain ⟨visits, -, -, hOrder, hPlaces, hLength, hFits⟩ := traverse?_visits hPass
  exact ⟨hPass, visits, hLength, hOrder, (hPlaces [0, 0]).2 rfl, hFits⟩

end Visitor

end DirectiveMarkdown
