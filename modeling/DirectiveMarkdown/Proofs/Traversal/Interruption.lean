import DirectiveMarkdown.Pipeline
import DirectiveMarkdown.Proofs.Traversal.Visits
import Mathlib.Data.List.Nodup

/-! Passes that end with an error. What such a pass leaves is what a pass to the end leaves with a
visitor that gives the same answers up to the error and keeps every node afterwards. The nodes at and
after the error are thus left as they are. -/
namespace DirectiveMarkdown

namespace Visitor

variable {σ ε : Type}

/-- The visitor with a count of its calls, the failed one included. -/
def counted (visitor : Visitor σ ε) : Visitor (σ × Nat) ε :=
  fun position node (state, calls) =>
    ((visitor position node state).1, (visitor position node state).2, calls + 1)

/-- The visitor for as many calls as the number in the state says. After these it keeps every node. -/
def limited (visitor : Visitor σ ε) : Visitor (σ × Nat) ε :=
  fun position node (state, calls) =>
    match calls with
    | 0 => (.ok .keep, state, 0)
    | calls + 1 => ((visitor position node state).1, (visitor position node state).2, calls)

/-- The visitor that keeps a node in place of its first error, remembers the error, and keeps every
node afterwards. -/
def forgiving (visitor : Visitor σ ε) : Visitor (σ × Option ε) ε :=
  fun position node (state, failure) =>
    match failure with
    | some error => (.ok .keep, state, some error)
    | none =>
      match visitor position node state with
      | (.error error, next) => (.ok .keep, next, some error)
      | (.ok action, next) => (.ok action, next, none)

/-- In this state the visitor keeps whatever it is shown, and stays in the state. -/
def Rests (visitor : Visitor σ ε) (state : σ) : Prop :=
  ∀ position node, visitor position node state = (.ok .keep, state)

theorem limited_rests (visitor : Visitor σ ε) (state : σ) : visitor.limited.Rests (state, 0) :=
  fun _ _ => rfl

/-- After its first error the forgiving visitor keeps whatever it is shown. -/
theorem forgiving_rests (visitor : Visitor σ ε) (state : σ) (error : ε) :
    visitor.forgiving.Rests (state, some error) :=
  fun _ _ => rfl

theorem forgiving_of_ok {visitor : Visitor σ ε} {position : Position} {node : Node}
    {state next : σ} {action : Action} (h : visitor position node state = (.ok action, next)) :
    visitor.forgiving position node (state, none) = (.ok action, next, none) := by
  simp only [forgiving, h]

theorem forgiving_of_error {visitor : Visitor σ ε} {position : Position} {node : Node}
    {state next : σ} {error : ε} (h : visitor position node state = (.error error, next)) :
    visitor.forgiving position node (state, none) = (.ok .keep, next, some error) := by
  simp only [forgiving, h]

variable {visitor : Visitor σ ε} {bound : Nat} {state middle final : σ}

/-! ### The pass of a visitor that keeps every node -/

/-- Children that stay as they are leave their parent as it is. -/
theorem children?_of_unchanged {walk : Position → Node → σ → Option (Pass Node σ ε)} {depth : Nat}
    {parent : Node} {done nodes : List Node}
    (h : ∀ node ∈ nodes, ∀ position, walk position node state = some ⟨node, state, none⟩) :
    children? walk depth parent done nodes state = some ⟨done ++ nodes, state, none⟩ := by
  induction nodes generalizing done with
  | nil => simp [children?]
  | cons child rest ih =>
      rw [children?_cons, h child (List.mem_cons_self ..)]
      refine (ih fun node hMem => h node (List.mem_cons_of_mem _ hMem)).trans ?_
      rw [← List.append_cons]

theorem walk?_of_keep {position : Position} {node : Node} {next : σ}
    (hAnswer : visitor position node state = (.ok .keep, next))
    (hChildren : ∀ child ∈ node.children, ∀ position,
      visitor.below bound position child next = some ⟨child, next, none⟩) :
    visitor.walk? bound position node state = some ⟨node, next, none⟩ := by
  have hKept : children? (visitor.below bound) (position.depth + 1) node [] node.children next =
      some ⟨node.children, next, none⟩ := children?_of_unchanged hChildren
  rw [walk?_of_ok hAnswer, Action.apply, hKept, Option.map_some, Node.with_children_eq rfl]

/-- A visitor at rest changes no tree, given as many levels as the tree has. -/
theorem Rests.below (hRests : visitor.Rests state) {node : Node} (hBound : node.depth < bound)
    (position : Position) :
    visitor.below bound position node state = some ⟨node, state, none⟩ := by
  induction bound generalizing node position with
  | zero => omega
  | succ bound ih =>
      refine walk?_of_keep (hRests position node) fun child hMem position => ?_
      have hDepth : child.depth < node.depth := Node.depth_lt_of_mem hMem
      exact ih (by omega) position

theorem Rests.answers (hRests : visitor.Rests state) {visits : List Visit}
    (hKeep : ∀ visit ∈ visits, visit.action = .keep) : visitor.Answers state visits state := by
  induction visits with
  | nil => rfl
  | cons visit rest ih =>
      refine ⟨state, ?_, ih fun other hMem => hKeep other (List.mem_cons_of_mem _ hMem)⟩
      rw [hRests, hKeep visit (List.mem_cons_self ..)]

/-! ### A pass that fails, taken to its end -/

/-- Within some bound the forgiving visitor makes the same pass, and takes it to its end. -/
def EndsForgiven (visitor : Visitor σ ε) (position : Position) (node : Node) (state : σ)
    (pass : Pass Node σ ε) : Prop :=
  ∃ enough, visitor.forgiving.below enough position node (state, none) =
    some ⟨pass.result, (pass.state, pass.error), none⟩

/-- The children after the failed one are only kept, which takes as many levels as they have. -/
theorem children?_forgiving
    (hBelow : ∀ position node state pass, visitor.below bound position node state = some pass →
      visitor.EndsForgiven position node state pass)
    {depth : Nat} {parent : Node} {done nodes : List Node} {pass : Pass (List Node) σ ε}
    (h : children? (visitor.below bound) depth parent done nodes state = some pass) :
    ∃ enough, children? (visitor.forgiving.below enough) depth parent done nodes (state, none) =
      some ⟨pass.result, (pass.state, pass.error), none⟩ := by
  induction nodes generalizing done state with
  | nil =>
      cases h
      exact ⟨0, rfl⟩
  | cons child rest ih =>
      rw [children?_cons] at h
      split at h
      · cases h
      · next made next error hMade =>
          cases h
          obtain ⟨enough, hEnough⟩ := hBelow _ _ _ _ hMade
          let later : Node := { parent with children := rest }
          have hKept : ∀ node ∈ rest, ∀ position,
              visitor.forgiving.below (max enough later.depth) position node (next, some error) =
                some ⟨node, (next, some error), none⟩ := by
            intro node hMem position
            have hDepth : node.depth < later.depth := Node.depth_lt_of_mem hMem
            exact (visitor.forgiving_rests next error).below (by omega) position
          refine ⟨max enough later.depth, ?_⟩
          rw [children?_cons, below_mono (Nat.le_max_left ..) hEnough]
          refine (children?_of_unchanged hKept).trans ?_
          rw [← List.append_cons]
      · next made next hMade =>
          obtain ⟨enough, hEnough⟩ := hBelow _ _ _ _ hMade
          obtain ⟨more, hMore⟩ := ih h
          refine ⟨max enough more, ?_⟩
          rw [children?_cons, below_mono (Nat.le_max_left ..) hEnough]
          exact children?_mono (fun _ _ _ _ hChild => below_mono (Nat.le_max_right ..) hChild) hMore

/-- Every pass is one that the forgiving visitor makes and takes to its end. -/
theorem endsForgiven {position : Position} {node : Node} {pass : Pass Node σ ε}
    (h : visitor.below bound position node state = some pass) :
    visitor.EndsForgiven position node state pass := by
  induction bound generalizing position node state pass with
  | zero => cases h
  | succ bound ih =>
      have hWalk : visitor.walk? bound position node state = some pass := h
      rcases hAnswer : visitor position node state with ⟨error | action, next⟩
      · rw [walk?_of_error hAnswer] at hWalk
        cases hWalk
        refine ⟨node.depth + 1, walk?_of_keep (forgiving_of_error hAnswer) ?_⟩
        intro child hMem position
        exact (visitor.forgiving_rests next error).below (Node.depth_lt_of_mem hMem) position
      · rw [walk?_of_ok hAnswer] at hWalk
        obtain ⟨children, hChildren, rfl⟩ := Option.map_eq_some_iff.1 hWalk
        obtain ⟨enough, hEnough⟩ := children?_forgiving (fun _ _ _ _ hChild => ih hChild) hChildren
        refine ⟨enough + 1, (walk?_of_ok (forgiving_of_ok hAnswer) _).trans ?_⟩
        rw [hEnough]
        rfl

/-! ### The number of calls -/

def uncounted {α : Type} (pass : Pass α (σ × Nat) ε) : Pass α σ ε :=
  ⟨pass.result, pass.state.1, pass.error⟩

/-- Counting the calls does not change what becomes of the children. -/
theorem children?_uncounted {walk : Position → Node → σ × Nat → Option (Pass Node (σ × Nat) ε)}
    {walk' : Position → Node → σ → Option (Pass Node σ ε)}
    (hWalk : ∀ position node state calls,
      (walk position node (state, calls)).map uncounted = walk' position node state)
    (depth : Nat) (parent : Node) (done nodes : List Node) (state : σ) (calls : Nat) :
    (children? walk depth parent done nodes (state, calls)).map uncounted =
      children? walk' depth parent done nodes state := by
  induction nodes generalizing done state calls with
  | nil => rfl
  | cons child rest ih =>
      rw [children?_cons, children?_cons, ← hWalk]
      rcases walk _ child (state, calls) with _ | ⟨made, ⟨next, calls⟩, _ | error⟩
      · rfl
      · exact ih _ _ _
      · rfl

/-- The count has no influence on a pass. -/
theorem below_counted (position : Position) (node : Node) (state : σ) (calls : Nat) :
    (visitor.counted.below bound position node (state, calls)).map uncounted =
      visitor.below bound position node state := by
  induction bound generalizing position node state calls with
  | zero => rfl
  | succ bound ih =>
      change (visitor.counted.walk? bound position node (state, calls)).map uncounted =
        visitor.walk? bound position node state
      rcases hAnswer : visitor position node state with ⟨error | action, next⟩
      · have hCounted : visitor.counted position node (state, calls) =
            (.error error, next, calls + 1) := by
          simp only [counted, hAnswer]
        rw [walk?_of_error hAnswer, walk?_of_error hCounted]
        rfl
      · have hCounted : visitor.counted position node (state, calls) =
            (.ok action, next, calls + 1) := by
          simp only [counted, hAnswer]
        rw [walk?_of_ok hAnswer, walk?_of_ok hCounted,
          ← children?_uncounted ih _ _ _ _ next (calls + 1), Option.map_map, Option.map_map]
        rfl

/-! ### The answers of a pass -/

/-- Between two parts of the visits the visitor is in some state. -/
theorem Answers.split {a b : List Visit} (h : visitor.Answers state (a ++ b) final) :
    ∃ middle, visitor.Answers state a middle ∧ visitor.Answers middle b final := by
  induction a generalizing state with
  | nil => exact ⟨state, rfl, h⟩
  | cons visit rest ih =>
      obtain ⟨next, hAnswer, hRest⟩ := h
      obtain ⟨middle, hA, hB⟩ := ih hRest
      exact ⟨middle, ⟨next, hAnswer, hA⟩, hB⟩

theorem Answers.logged {visits : List Visit} (h : visitor.Answers state visits final)
    (log : List Visit) : visitor.logged.Answers (state, log) visits (final, log ++ visits) := by
  induction visits generalizing state log with
  | nil =>
      cases h
      exact congrArg _ (List.append_nil log).symm
  | cons visit rest ih =>
      obtain ⟨next, hAnswer, hRest⟩ := h
      refine ⟨_, logged_of_ok hAnswer log, ?_⟩
      rw [List.append_cons log visit rest]
      exact ih hRest _

theorem Answers.log_eq {start stop : σ × List Visit} {visits : List Visit}
    (h : visitor.logged.Answers start visits stop) : stop.2 = start.2 ++ visits := by
  induction visits generalizing start with
  | nil =>
      cases h
      exact (List.append_nil _).symm
  | cons visit rest ih =>
      obtain ⟨next, hAnswer, hRest⟩ := h
      rw [ih hRest, List.append_cons]
      rcases hPlain : visitor visit.position visit.node start.1 with ⟨error | action, after⟩
      · simp [Visitor.logged, hPlain] at hAnswer
      · rw [logged_of_ok hPlain] at hAnswer
        cases hAnswer
        rfl

/-- The counter goes up by one at every visit. -/
theorem Answers.counted {start stop : σ × Nat} {visits : List Visit}
    (h : visitor.counted.Answers start visits stop) :
    visitor.Answers start.1 visits stop.1 ∧ stop.2 = start.2 + visits.length := by
  induction visits generalizing start with
  | nil =>
      cases h
      exact ⟨rfl, rfl⟩
  | cons visit rest ih =>
      obtain ⟨next, hAnswer, hRest⟩ := h
      obtain ⟨hAnswers, hCalls⟩ := ih hRest
      obtain ⟨hOk, rfl⟩ := Prod.mk.inj hAnswer
      refine ⟨⟨_, Prod.ext hOk rfl, hAnswers⟩, ?_⟩
      rw [hCalls, List.length_cons, Nat.add_assoc, Nat.add_comm 1]

/-- A visitor that is limited to as many calls answers them all, and no more. -/
theorem Answers.limited {visits : List Visit} (h : visitor.Answers state visits final) :
    visitor.limited.Answers (state, visits.length) visits (final, 0) := by
  induction visits generalizing state with
  | nil =>
      cases h
      rfl
  | cons visit rest ih =>
      obtain ⟨next, hAnswer, hRest⟩ := h
      refine ⟨(next, rest.length), ?_, ih hRest⟩
      rw [List.length_cons, Visitor.limited, hAnswer]

/-- The visits of a forgiven pass that met an error: those before the error, the one that met it, and
those after it. -/
theorem Answers.forgiven {visits : List Visit} {error : ε}
    (h : visitor.forgiving.Answers (state, none) visits (final, some error)) :
    ∃ before failing after middle, visits = before ++ failing :: after ∧
      visitor.Answers state before middle ∧
      visitor failing.position failing.node middle = (.error error, final) ∧
      ∀ visit ∈ failing :: after, visit.action = .keep := by
  have hAfter : ∀ {next : σ} {met : ε} {rest : List Visit},
      visitor.forgiving.Answers (next, some met) rest (final, some error) →
        (next = final ∧ met = error) ∧ ∀ visit ∈ rest, visit.action = .keep := by
    intro next met rest hRest
    induction rest with
    | nil =>
        cases hRest
        exact ⟨⟨rfl, rfl⟩, fun _ hMem => by cases hMem⟩
    | cons visit rest ih =>
        obtain ⟨_, hAnswer, hRest⟩ := hRest
        rw [forgiving_rests] at hAnswer
        obtain ⟨hKeep, rfl⟩ := Prod.mk.inj hAnswer
        obtain ⟨hSame, hKept⟩ := ih hRest
        exact ⟨hSame, List.forall_mem_cons.2 ⟨(Except.ok.inj hKeep).symm, hKept⟩⟩
  induction visits generalizing state with
  | nil => cases h
  | cons visit rest ih =>
      obtain ⟨_, hAnswer, hRest⟩ := h
      rcases hPlain : visitor visit.position visit.node state with ⟨met | action, next⟩
      · rw [forgiving_of_error hPlain] at hAnswer
        obtain ⟨hKeep, rfl⟩ := Prod.mk.inj hAnswer
        obtain ⟨⟨rfl, rfl⟩, hKept⟩ := hAfter hRest
        exact ⟨[], visit, rest, state, rfl, rfl, hPlain,
          List.forall_mem_cons.2 ⟨(Except.ok.inj hKeep).symm, hKept⟩⟩
      · rw [forgiving_of_ok hPlain] at hAnswer
        obtain ⟨hAction, rfl⟩ := Prod.mk.inj hAnswer
        rw [Except.ok.inj hAction] at hPlain
        obtain ⟨before, failing, after, middle, rfl, hBefore, hFails, hKept⟩ := ih hRest
        exact ⟨visit :: before, failing, after, middle, rfl, ⟨next, hPlain, hBefore⟩, hFails, hKept⟩

/-! ### The answers decide a pass -/

/-- Whoever gives these answers, one after the other, makes `made` of the node. -/
def Decides (visits : List Visit) (bound : Nat) (position : Position) (node made : Node) : Prop :=
  ∀ {σ ε : Type} {visitor : Visitor σ ε} {state final : σ}, visitor.Answers state visits final →
    visitor.below bound position node state = some ⟨made, final, none⟩

def DecidesChildren (visits : List Visit) (bound depth : Nat) (parent : Node)
    (done nodes made : List Node) : Prop :=
  ∀ {σ ε : Type} {visitor : Visitor σ ε} {state final : σ}, visitor.Answers state visits final →
    children? (visitor.below bound) depth parent done nodes state = some ⟨made, final, none⟩

theorem exists_decidesChildren
    (hBelow : ∀ position node state made final,
      visitor.below bound position node state = some ⟨made, final, none⟩ →
        ∃ visits, visitor.Answers state visits final ∧ Decides visits bound position node made)
    {depth : Nat} {parent : Node} {done nodes made : List Node}
    (h : children? (visitor.below bound) depth parent done nodes state =
      some ⟨made, final, none⟩) :
    ∃ visits, visitor.Answers state visits final ∧
      DecidesChildren visits bound depth parent done nodes made := by
  induction nodes generalizing done state with
  | nil =>
      cases h
      refine ⟨[], rfl, fun hNone => ?_⟩
      cases hNone
      rfl
  | cons child rest ih =>
      rw [children?_cons] at h
      split at h
      · cases h
      · cases h
      · next madeChild next hChild =>
          obtain ⟨first, hFirst, hDecides⟩ := hBelow _ _ _ _ _ hChild
          obtain ⟨later, hLater, hDecidesLater⟩ := ih h
          refine ⟨first ++ later, hFirst.append hLater, fun hAnswers => ?_⟩
          obtain ⟨_, hA, hB⟩ := hAnswers.split
          rw [children?_cons, hDecides hA]
          exact hDecidesLater hB

/-- A pass that succeeds is decided by the answers that it gets. -/
theorem exists_decides {position : Position} {node made : Node}
    (h : visitor.below bound position node state = some ⟨made, final, none⟩) :
    ∃ visits, visitor.Answers state visits final ∧ Decides visits bound position node made := by
  induction bound generalizing position node made state final with
  | zero => cases h
  | succ bound ih =>
      have hWalk : visitor.walk? bound position node state = some ⟨made, final, none⟩ := h
      rcases hAnswer : visitor position node state with ⟨error | action, next⟩
      · rw [walk?_of_error hAnswer] at hWalk
        cases hWalk
      · rw [walk?_of_ok hAnswer] at hWalk
        obtain ⟨⟨children, _, _⟩, hChildren, hMade⟩ := Option.map_eq_some_iff.1 hWalk
        cases hMade
        obtain ⟨visits, hVisits, hDecides⟩ :=
          exists_decidesChildren (fun _ _ _ _ _ hChild => ih hChild) hChildren
        refine ⟨⟨position, node, action⟩ :: visits, ⟨next, hAnswer, hVisits⟩, ?_⟩
        rintro σ ε visitor state final ⟨_, hOther, hRest⟩
        refine (walk?_of_ok hOther bound).trans ?_
        rw [hDecides hRest]
        rfl

/-- The visits of a pass are answers that decide it, since any others would be another log. -/
theorem Visits.decides {position : Position} {node made : Node} {visits : List (List Nat × Visit)}
    (h : visitor.Visits bound position node state visits made final) :
    Decides (visits.map Prod.snd) bound position node made := by
  obtain ⟨others, hOthers, hDecides⟩ := exists_decides (h.logged [])
  have hSame : visits.map Prod.snd = others := hOthers.log_eq
  rwa [hSame]

/-! ### The nodes that are kept -/

end Visitor

theorem Node.at?_append (node : Node) (above below : List Nat) :
    node.at? (above ++ below) = (node.at? above).bind fun inner => inner.at? below := by
  induction above generalizing node with
  | nil => rfl
  | cons index above ih =>
      rw [List.cons_append, at?, at?, Option.bind_assoc]
      exact congrArg _ (funext ih)

/-- A place stands before those below it. -/
theorem Node.lt_place (path : List Nat) (index : Nat) : path < path ++ [index] := by
  have hLt : path ++ [] < path ++ [index] := List.append_left_lt (List.nil_lt_cons ..)
  rwa [List.append_nil] at hLt

namespace Visitor

variable {σ ε : Type} {visitor : Visitor σ ε} {bound : Nat} {state final : σ}

/-- If the visitor keeps all nodes from some visit on, these nodes end up as they are shown. For what
becomes of their children is decided by visits that come later still. -/
theorem Visits.at?_of_kept {position : Position} {node made : Node}
    {before later : List (List Nat × Visit)}
    (h : visitor.Visits bound position node state (before ++ later) made final)
    (hKeep : ∀ entry ∈ later, entry.2.action = .keep) {path : List Nat} {visit : Visit}
    (hMem : (path, visit) ∈ later) : made.at? path = some visit.node := by
  have hIncreasing : ((before ++ later).map Prod.fst).Pairwise (· < ·) := by
    rw [h.paths]
    exact made.paths_increasing
  obtain ⟨last, hLast, -⟩ := (h.fits path visit (List.mem_append_right _ hMem)).final
  rw [hLast]
  induction last using Node.inductionOnChildren generalizing path visit with
  | step last ih =>
      obtain ⟨left, hLeft, hEq, hLength⟩ := (h.fits path visit (List.mem_append_right _ hMem)).final
      obtain rfl : left = last := Option.some.inj (hLeft.symm.trans hLast)
      have hKept : visit.left = visit.node := by
        rw [Visit.left, hKeep _ hMem]
        rfl
      rw [hKept] at hEq hLength
      suffices hChildren : left.children = visit.node.children by
        rw [hEq, Node.with_children_eq hChildren.symm]
      refine List.ext_getElem? fun index => ?_
      cases hChild : left.children[index]? with
      | none =>
          rw [List.getElem?_eq_none_iff] at hChild
          exact (List.getElem?_eq_none (by omega)).symm
      | some child =>
          have hPlace : made.at? (path ++ [index]) = some child := by
            simp [Node.at?_append, hLast, Node.at?, hChild]
          have hPath : path ++ [index] ∈ (before ++ later).map Prod.fst := by
            rw [h.paths, Node.mem_paths_iff, hPlace]
            rfl
          obtain ⟨⟨inner, childVisit⟩, hChildMem, rfl⟩ := List.mem_map.1 hPath
          have hChildLater : (path ++ [index], childVisit) ∈ later := by
            rcases List.mem_append.1 hChildMem with hBefore | hLater
            · rw [List.map_append, List.pairwise_append] at hIncreasing
              have hAbove : path ++ [index] < path :=
                hIncreasing.2.2 _ (List.mem_map_of_mem hBefore) _ (List.mem_map_of_mem hMem)
              exact absurd hAbove (List.lt_asymm (Node.lt_place path index))
            · exact hLater
          have hChildNode : child = childVisit.node :=
            Option.some.inj (ih child (List.mem_of_getElem? hChild) hChildLater hPlace)
          obtain ⟨parent, _, hParent, -, -, hNode⟩ := (h.fits _ _ hChildMem).child path index rfl
          have hSame : (path, parent) = (path, visit) :=
            List.inj_on_of_nodup_map hIncreasing.nodup hParent (List.mem_append_right _ hMem) rfl
          obtain rfl : parent = visit := congrArg Prod.snd hSame
          rw [hChildNode, ← hNode, hKept]

/-! ### Interruption -/

/-- How a pass over `tree` ends with an error. It makes the visits `before`, which succeed, and meets
the error in the next call, where the visit `failing` would be. It leaves what the visitor makes of
the tree if it is limited to the calls `before`. This takes it through `failing` and the visits
`after`, and the nodes that are shown there end up as they are. -/
structure Interrupted (visitor : Visitor σ ε) (tree : Node) (state : σ) (error : ε) (made : Node)
    (final : σ) (before : List (List Nat × Visit)) (failing : List Nat × Visit)
    (after : List (List Nat × Visit)) (middle : σ) : Prop where
  answers : visitor.Answers state (before.map Prod.snd) middle
  fails : visitor failing.2.position failing.2.node middle = (.error error, final)
  calls : ∃ bound, visitor.counted.traverse? bound tree (state, 0) =
    some ⟨made, (final, before.length + 1), some error⟩
  limited : ∃ bound, visitor.limited.logged.traverse? bound tree ((state, before.length), []) =
    some ⟨made, ((middle, 0), (before ++ failing :: after).map Prod.snd), none⟩
  paths : (before ++ failing :: after).map Prod.fst = made.paths
  fits : ∀ path visit, (path, visit) ∈ before ++ failing :: after →
    visit.Fits .root tree (before ++ failing :: after) made path
  kept : ∀ path visit, (path, visit) ∈ failing :: after → made.at? path = some visit.node

/-- The visits of an interrupted pass are those of the forgiving visitor, which go on to the end. -/
theorem exists_interrupted {tree made : Node} {error : ε}
    (h : visitor.traverse? bound tree state = some ⟨made, final, some error⟩) :
    ∃ before failing after middle,
      visitor.Interrupted tree state error made final before failing after middle := by
  have hBelow : visitor.below (bound + 1) .root tree state = some ⟨made, final, some error⟩ := h
  obtain ⟨⟨_, ⟨_, calls⟩, _⟩, hCounted, hPass⟩ :=
    Option.map_eq_some_iff.1 ((below_counted .root tree state 0).trans hBelow)
  cases hPass
  obtain ⟨_ | enough, hForgiven⟩ := endsForgiven hCounted
  · cases hForgiven
  obtain ⟨visits, hVisits⟩ := exists_visits hForgiven
  obtain ⟨_, _, _, ⟨middle, count⟩, hSplit, hBefore, hFails, hKeep⟩ := hVisits.answers.forgiven
  obtain ⟨before, later, rfl, rfl, hLater⟩ := List.map_eq_append_iff.1 hSplit
  obtain ⟨failing, after, rfl, rfl, rfl⟩ := List.map_eq_cons_iff.1 hLater
  obtain ⟨hAnswers, hCount⟩ := hBefore.counted
  obtain ⟨hError, hFinal⟩ := Prod.mk.inj hFails
  obtain ⟨rfl, rfl⟩ := Prod.mk.inj hFinal
  have hLimited : visitor.limited.Answers (state, before.length)
      ((before ++ failing :: after).map Prod.snd) (middle, 0) := by
    have hFirst := hAnswers.limited
    rw [List.length_map] at hFirst
    rw [List.map_append]
    exact hFirst.append ((visitor.limited_rests middle).answers hKeep)
  refine ⟨before, failing, after, middle, hAnswers, Prod.ext hError rfl, ⟨bound, ?_⟩,
    ⟨enough, hVisits.decides (hLimited.logged [])⟩, hVisits.paths, hVisits.fits, ?_⟩
  · rw [List.length_map, Nat.zero_add] at hCount
    rw [← hCount]
    exact hCounted
  · intro path visit hMem
    refine hVisits.at?_of_kept (fun entry hEntry => ?_) hMem
    exact hKeep _ (List.mem_map_of_mem hEntry)

end Visitor

namespace Pipeline

/-- The passes of several rules that end with an error: those of the rules before the one that fails
are made to the end, and its own pass is the last one. -/
theorem applyRules_eq_error {allowance : Nat} {rules : List Rule} {tree made : Node}
    {error : RenderError} (h : applyRules allowance rules tree = ⟨made, some error⟩) :
    ∃ earlier rule later input, rules = earlier ++ rule :: later ∧
      applyRules allowance earlier tree = ⟨input, none⟩ ∧
      applyRule allowance rule input = ⟨made, some error⟩ := by
  induction rules generalizing tree with
  | nil => cases h
  | cons first rest ih =>
      rw [applyRules] at h
      split at h
      · next next hFirst =>
          obtain ⟨earlier, rule, later, input, rfl, hEarlier, hRule⟩ := ih h
          refine ⟨first :: earlier, rule, later, input, rfl, ?_, hRule⟩
          rw [applyRules, hFirst]
          exact hEarlier
      · exact ⟨[], first, rest, tree, rfl, rfl, h⟩

/-- A rule that fails is the one that its error names, and its pass is interrupted by this error. -/
theorem applyRule_eq_rewrite {allowance : Nat} {rule : Rule} {tree made : Node} {name : Text}
    {error : RewriteError}
    (h : applyRule allowance rule tree = ⟨made, some (.rewrite name error)⟩) :
    rule.name = name ∧ rule.visitor.traverse? (tree.depth + allowance) tree () =
      some ⟨made, (), some error⟩ := by
  rw [applyRule] at h
  split at h
  · cases h
  · next pass hPass =>
      obtain ⟨result, state, failure⟩ := pass
      obtain ⟨rfl, hError⟩ := Rewriting.mk.inj h
      obtain ⟨met, rfl, hName⟩ := Option.map_eq_some_iff.1 hError
      cases hName
      exact ⟨rfl, hPass⟩

/-- A pass that ends with an error has made one call more than there are visits before it, and leaves
what the visitor makes of the tree if it is limited to these. If a rule fails, those before it have
rewritten the tree to the end, the rule has done so in this sense, and those after it not at all. -/
theorem rewrite_interrupted :
    (∀ {σ ε : Type} (visitor : Visitor σ ε) (bound : Nat) (tree made : Node) (state final : σ)
        (error : ε), visitor.traverse? bound tree state = some ⟨made, final, some error⟩ →
      ∃ before failing after middle,
        visitor.Interrupted tree state error made final before failing after middle) ∧
    ∀ (pipeline : Pipeline) (tree made : Node) (name : Text) (error : RewriteError),
      pipeline.rewrite tree = ⟨made, some (.rewrite name error)⟩ →
      ∃ earlier rule later input, pipeline.rules = earlier ++ rule :: later ∧ rule.name = name ∧
        { pipeline with rules := earlier }.rewrite tree = ⟨input, none⟩ ∧
        ∃ before failing after,
          rule.visitor.Interrupted input () error made () before failing after () := by
  refine ⟨fun _ _ _ _ _ _ _ h => Visitor.exists_interrupted h, ?_⟩
  intro pipeline tree made name error h
  obtain ⟨earlier, rule, later, input, hRules, hEarlier, hRule⟩ := applyRules_eq_error h
  obtain ⟨hName, hPass⟩ := applyRule_eq_rewrite hRule
  obtain ⟨before, failing, after, _, hInterrupted⟩ := Visitor.exists_interrupted hPass
  exact ⟨earlier, rule, later, input, hRules, hName, hEarlier, before, failing, after, hInterrupted⟩

/-- The visitor that counts its calls, wraps the node of the second one into a paragraph, and fails at
the third. -/
def wrapThenFail : Visitor Nat Text := fun _ node calls =>
  (match calls with
    | 1 => .ok (.replace { kind := .paragraph, children := [node] })
    | 2 => .error ['!']
    | _ => .ok .keep, calls + 1)

/-- The rule that puts empty markup in the place of every node of a kind. -/
def blankRule (kind : NodeKind) : Rule :=
  { name := text "blank"
    selection := [⟨kind, none⟩]
    rewrite := fun _ _ => .ok (.replace (.ofHtml [])) }

/-- The visitor fails inside its own paragraph, and the text after it is left. The second of three
rules fails at a video without a type: the text has been blanked, and the root has not. -/
theorem rewrite_interrupted_wrap_video :
    (∃ before failing after,
      wrapThenFail.Interrupted { kind := .root, children := [.ofText ['a'], .ofText ['b']] } 0 ['!']
        { kind := .root
          children := [{ kind := .paragraph, children := [.ofText ['a']] }, .ofText ['b']] }
        3 before failing after 2) ∧
    ∃ earlier rule later input,
      [blankRule .text, Video.rule .strict, blankRule .root] = earlier ++ rule :: later ∧
      rule.name = text "video" ∧
      Pipeline.rewrite { rules := earlier }
        { kind := .root
          children := [.ofText ['a'], { kind := .leafDirective, name := text "video" }] } =
          ⟨input, none⟩ ∧
      ∃ before failing after, rule.visitor.Interrupted input () .missingVideoType
        { kind := .root
          children := [.ofHtml [], { kind := .leafDirective, name := text "video" }] }
        () before failing after () := by
  have hPass : wrapThenFail.traverse? 2
      { kind := .root, children := [.ofText ['a'], .ofText ['b']] } 0 =
      some ⟨{ kind := .root
              children := [{ kind := .paragraph, children := [.ofText ['a']] }, .ofText ['b']] },
        3, some ['!']⟩ := rfl
  have hRewrite : Pipeline.rewrite
      { rules := [blankRule .text, Video.rule .strict, blankRule .root] }
      { kind := .root
        children := [.ofText ['a'], { kind := .leafDirective, name := text "video" }] } =
      ⟨{ kind := .root
         children := [.ofHtml [], { kind := .leafDirective, name := text "video" }] },
        some (.rewrite (text "video") .missingVideoType)⟩ := by
    rfl
  obtain ⟨before, failing, after, middle, hInterrupted⟩ := rewrite_interrupted.1 _ _ _ _ _ _ _ hPass
  obtain rfl : middle = 2 := by
    have hState : middle + 1 = 3 := congrArg Prod.snd hInterrupted.fails
    omega
  exact ⟨⟨before, failing, after, hInterrupted⟩, rewrite_interrupted.2 _ _ _ _ _ hRewrite⟩

end Pipeline

end DirectiveMarkdown
