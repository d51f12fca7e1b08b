import DirectiveMarkdown.Proofs.NodeRecursion
import DirectiveMarkdown.Traversal
import Mathlib.Order.WellFounded

/-! When a pass over a tree ends. A replacement is not offered again, but its children are, so a
pass may go down forever into what the visitor itself puts below the nodes. In no other way does a
pass fail to end, since what is visited has finitely many children at every moment. -/
namespace DirectiveMarkdown

/-- What a visitor is called with. -/
structure Call (σ : Type) where
  position : Position
  node : Node
  state : σ

namespace Visitor

variable {σ ε : Type} {visitor : Visitor σ ε}

/-- How the children of a node are walked if the pass may go so many levels below the node. -/
def below (visitor : Visitor σ ε) : Nat → Position → Node → σ → Option (Pass Node σ ε)
  | 0 => fun _ _ _ => none
  | bound + 1 => visitor.walk? bound

/-- A visitor that fails leaves its node as it is and ends the pass. -/
theorem walk?_of_error {position : Position} {node : Node} {state next : σ} {error : ε}
    (h : visitor position node state = (.error error, next)) (bound : Nat) :
    visitor.walk? bound position node state = some ⟨node, next, some error⟩ := by
  unfold walk?
  rw [h]

/-- The children are those of the node as the visitor leaves it, and they are visited one level
further down. Without a level to go there must be none. -/
theorem walk?_of_ok {position : Position} {node : Node} {state next : σ} {action : Action}
    (h : visitor position node state = (.ok action, next)) (bound : Nat) :
    visitor.walk? bound position node state =
      (children? (visitor.below bound) (position.depth + 1) (action.apply node) []
        (action.apply node).children next).map fun pass =>
          ⟨{ action.apply node with children := pass.result }, pass.state, pass.error⟩ := by
  unfold walk?
  rw [h]
  cases bound with
  | succ bound => rfl
  | zero =>
      dsimp only
      generalize action.apply node = left
      obtain ⟨kind, name, attributes, metadata, _ | ⟨child, rest⟩, value⟩ := left <;> rfl

theorem children?_cons {walk : Position → Node → σ → Option (Pass Node σ ε)} {depth : Nat}
    {parent : Node} {done : List Node} {child : Node} {rest : List Node} {state : σ} :
    children? walk depth parent done (child :: rest) state =
      match walk ⟨depth, some (done.length, { parent with children := done ++ child :: rest })⟩
        child state with
      | none => none
      | some ⟨child, state, some error⟩ => some ⟨done ++ child :: rest, state, some error⟩
      | some ⟨child, state, none⟩ => children? walk depth parent (done ++ [child]) rest state := rfl

/-- Children come out the same from a walk that answers at more nodes. -/
theorem children?_mono {walk walk' : Position → Node → σ → Option (Pass Node σ ε)}
    (hWalk : ∀ position node state pass,
      walk position node state = some pass → walk' position node state = some pass)
    {depth : Nat} {parent : Node} {done nodes : List Node} {state : σ} {pass : Pass (List Node) σ ε}
    (h : children? walk depth parent done nodes state = some pass) :
    children? walk' depth parent done nodes state = some pass := by
  induction nodes generalizing done state with
  | nil => exact h
  | cons child rest ih =>
      rw [children?_cons] at h ⊢
      split at h
      · cases h
      · next made next error hMade =>
          rw [hWalk _ _ _ _ hMade]
          exact h
      · next made next hMade =>
          rw [hWalk _ _ _ _ hMade]
          exact ih h

theorem walk?_mono_of_below {bound more : Nat}
    (hBelow : ∀ position node state pass, visitor.below bound position node state = some pass →
      visitor.below more position node state = some pass)
    {position : Position} {node : Node} {state : σ} {pass : Pass Node σ ε}
    (h : visitor.walk? bound position node state = some pass) :
    visitor.walk? more position node state = some pass := by
  rcases hAnswer : visitor position node state with ⟨error | action, next⟩
  · rwa [walk?_of_error hAnswer] at h ⊢
  · rw [walk?_of_ok hAnswer] at h ⊢
    obtain ⟨made, hMade, rfl⟩ := Option.map_eq_some_iff.1 h
    rw [children?_mono hBelow hMade]
    rfl

/-- A pass that ends is the same with a greater bound. -/
theorem walk?_mono {bound more : Nat} (hBound : bound ≤ more) {position : Position} {node : Node}
    {state : σ} {pass : Pass Node σ ε} (h : visitor.walk? bound position node state = some pass) :
    visitor.walk? more position node state = some pass := by
  induction bound generalizing more position node state pass with
  | zero => exact walk?_mono_of_below (fun _ _ _ _ hChild => by cases hChild) h
  | succ bound ih =>
      obtain ⟨more, rfl⟩ : ∃ fewer, more = fewer + 1 := ⟨more - 1, by omega⟩
      refine walk?_mono_of_below ?_ h
      intro position node state pass hChild
      exact ih (Nat.le_of_succ_le_succ hBound) hChild

/-- What ends within a bound ends alike within a greater one. -/
theorem below_mono {bound more : Nat} (hBound : bound ≤ more) {position : Position} {node : Node}
    {state : σ} {pass : Pass Node σ ε} (h : visitor.below bound position node state = some pass) :
    visitor.below more position node state = some pass := by
  cases bound with
  | zero => cases h
  | succ bound =>
      obtain ⟨more, rfl⟩ : ∃ fewer, more = fewer + 1 := ⟨more - 1, by omega⟩
      exact walk?_mono (Nat.le_of_succ_le_succ hBound) h

/-- Going on with the children `nodes` of a parent, after the finished ones, the pass comes to a
call: for the first of them, or for a later one if those before it end without an error. -/
inductive ComesTo (visitor : Visitor σ ε) (depth : Nat) (parent : Node) :
    List Node → List Node → σ → Call σ → Prop
  | here {done rest : List Node} {child : Node} {state : σ} :
    ComesTo visitor depth parent done (child :: rest) state
      ⟨⟨depth, some (done.length, { parent with children := done ++ child :: rest })⟩, child, state⟩
  | later {done rest : List Node} {child made : Node} {state next : σ} {call : Call σ} {bound : Nat} :
    visitor.walk? bound
      ⟨depth, some (done.length, { parent with children := done ++ child :: rest })⟩ child state =
        some ⟨made, next, none⟩ →
    ComesTo visitor depth parent (done ++ [made]) rest next call →
    ComesTo visitor depth parent done (child :: rest) state call

/-- A call that the pass makes directly below another: for a child of what the visitor makes of the
node there. -/
def Descends (visitor : Visitor σ ε) (below above : Call σ) : Prop :=
  ∃ action next, visitor above.position above.node above.state = (.ok action, next) ∧
    visitor.ComesTo (above.position.depth + 1) (action.apply above.node) []
      (action.apply above.node).children next below

/-- The pass from a call on ends, given a bound that is large enough. -/
def Ends (visitor : Visitor σ ε) (call : Call σ) : Prop :=
  ∃ bound pass, visitor.walk? bound call.position call.node call.state = some pass

/-- Within the bound in which the children end, so does every call for one of them. -/
theorem ComesTo.exists_walk? {depth : Nat} {parent : Node} {done nodes : List Node} {state : σ}
    {call : Call σ} (h : visitor.ComesTo depth parent done nodes state call) {bound : Nat}
    {pass : Pass (List Node) σ ε}
    (hPass : children? (visitor.below bound) depth parent done nodes state = some pass) :
    ∃ pass, visitor.below bound call.position call.node call.state = some pass := by
  induction h with
  | here =>
      rw [children?_cons] at hPass
      split at hPass
      · cases hPass
      · next made next error hMade => exact ⟨_, hMade⟩
      · next made next hMade => exact ⟨_, hMade⟩
  | @later done rest child made state next call enough hWalk _ ih =>
      rw [children?_cons] at hPass
      have hSame : ∀ other, visitor.below bound
          ⟨depth, some (done.length, { parent with children := done ++ child :: rest })⟩ child state =
            some other → other = ⟨made, next, none⟩ := by
        intro other hOther
        have hAtMost := below_mono (show bound ≤ max bound (enough + 1) by omega) hOther
        have hEnough : visitor.below (max bound (enough + 1))
            ⟨depth, some (done.length, { parent with children := done ++ child :: rest })⟩ child
              state = some ⟨made, next, none⟩ :=
          below_mono (show enough + 1 ≤ max bound (enough + 1) by omega) hWalk
        rw [hEnough] at hAtMost
        exact (Option.some.inj hAtMost).symm
      split at hPass
      · cases hPass
      · next other otherNext error hOther => cases hSame _ hOther
      · next other otherNext hOther =>
          cases hSame _ hOther
          exact ih hPass

/-- Children end if every call for one of them does. -/
theorem exists_children? {depth : Nat} {parent : Node} {done nodes : List Node} {state : σ}
    (h : ∀ call, visitor.ComesTo depth parent done nodes state call → visitor.Ends call) :
    ∃ bound pass, children? (visitor.below bound) depth parent done nodes state = some pass := by
  induction nodes generalizing done state with
  | nil => exact ⟨0, _, rfl⟩
  | cons child rest ih =>
      obtain ⟨bound, ⟨made, next, _ | error⟩, hMade⟩ := h _ .here
      · obtain ⟨more, pass, hPass⟩ := ih fun call hCall => h call (.later hMade hCall)
        refine ⟨max (bound + 1) more, pass, ?_⟩
        have hChild : visitor.below (max (bound + 1) more)
            ⟨depth, some (done.length, { parent with children := done ++ child :: rest })⟩ child
              state = some ⟨made, next, none⟩ :=
          below_mono (Nat.le_max_left ..) hMade
        rw [children?_cons, hChild]
        exact children?_mono (fun _ _ _ _ hBelow => below_mono (Nat.le_max_right ..) hBelow) hPass
      · refine ⟨bound + 1, ⟨done ++ made :: rest, next, some error⟩, ?_⟩
        have hChild : visitor.below (bound + 1)
            ⟨depth, some (done.length, { parent with children := done ++ child :: rest })⟩ child
              state = some ⟨made, next, some error⟩ := hMade
        rw [children?_cons, hChild]

/-- Within the bound in which a call ends, so do the calls directly below it, one level down. -/
theorem Descends.exists_below {above call : Call σ} (h : visitor.Descends call above) {bound : Nat}
    {pass : Pass Node σ ε}
    (hPass : visitor.walk? bound above.position above.node above.state = some pass) :
    ∃ pass, visitor.below bound call.position call.node call.state = some pass := by
  obtain ⟨action, next, hAnswer, hComes⟩ := h
  rw [walk?_of_ok hAnswer] at hPass
  obtain ⟨made, hMade, -⟩ := Option.map_eq_some_iff.1 hPass
  exact hComes.exists_walk? hMade

/-- A pass ends from a call on exactly if it does not go down from it forever. -/
theorem ends_iff_acc {call : Call σ} : visitor.Ends call ↔ Acc visitor.Descends call := by
  constructor
  · rintro ⟨bound, pass, hPass⟩
    induction bound generalizing call pass with
    | zero =>
        refine .intro call fun child hChild => ?_
        obtain ⟨_, hNone⟩ := hChild.exists_below hPass
        cases hNone
    | succ bound ih =>
        refine .intro call fun child hChild => ?_
        obtain ⟨childPass, hChildPass⟩ := hChild.exists_below hPass
        exact ih childPass hChildPass
  · intro hAcc
    induction hAcc with
    | intro call _ ih =>
        rcases hAnswer : visitor call.position call.node call.state with ⟨error | action, next⟩
        · exact ⟨0, _, walk?_of_error hAnswer 0⟩
        · obtain ⟨bound, pass, hPass⟩ :=
            exists_children? fun child hComes => ih child ⟨action, next, hAnswer, hComes⟩
          refine ⟨bound, ⟨{ action.apply call.node with children := pass.result }, pass.state,
            pass.error⟩, ?_⟩
          rw [walk?_of_ok hAnswer, hPass]
          rfl

/-- Children end if each of them does, wherever it is visited. -/
theorem exists_children?_of_forall {walk : Position → Node → σ → Option (Pass Node σ ε)}
    {nodes : List Node}
    (h : ∀ node ∈ nodes, ∀ position state, ∃ pass, walk position node state = some pass)
    (depth : Nat) (parent : Node) (done : List Node) (state : σ) :
    ∃ pass, children? walk depth parent done nodes state = some pass := by
  induction nodes generalizing done state with
  | nil => exact ⟨_, rfl⟩
  | cons child rest ih =>
      obtain ⟨⟨made, next, _ | error⟩, hMade⟩ := h child (List.mem_cons_self ..)
        ⟨depth, some (done.length, { parent with children := done ++ child :: rest })⟩ state
      · rw [children?_cons, hMade]
        exact ih (fun node hMem => h node (List.mem_cons_of_mem _ hMem)) _ _
      · rw [children?_cons, hMade]
        exact ⟨_, rfl⟩

/-- A pass over a node ends if it ends at each child of what the visitor makes of the node. -/
theorem exists_walk?_of_children {bound : Nat} {position : Position} {node : Node} {state : σ}
    (h : ∀ action next, visitor position node state = (.ok action, next) →
      ∀ child ∈ (action.apply node).children, ∀ position state, ∃ pass,
        visitor.below bound position child state = some pass) :
    ∃ pass, visitor.walk? bound position node state = some pass := by
  rcases hAnswer : visitor position node state with ⟨error | action, next⟩
  · exact ⟨_, walk?_of_error hAnswer bound⟩
  · obtain ⟨pass, hPass⟩ := exists_children?_of_forall (h action next hAnswer)
      (position.depth + 1) (action.apply node) [] next
    rw [walk?_of_ok hAnswer, hPass]
    exact ⟨_, rfl⟩

/-- A visitor that makes no node deeper than it was goes no further down than the node reaches. -/
theorem exists_walk?_of_depth_le
    (h : ∀ position node state action, (visitor position node state).1 = .ok action →
      (action.apply node).depth ≤ node.depth)
    {bound : Nat} {node : Node} (hNode : node.depth ≤ bound) (position : Position) (state : σ) :
    ∃ pass, visitor.walk? bound position node state = some pass := by
  have hChild : ∀ {position node state action next},
      visitor position node state = (.ok action, next) →
        ∀ child ∈ (action.apply node).children, child.depth < node.depth := by
    intro position node state action next hAnswer child hMem
    have hLeft := h position node state action (congrArg Prod.fst hAnswer)
    have hDepth := Node.depth_lt_of_mem hMem
    omega
  induction bound generalizing node position state with
  | zero =>
      refine exists_walk?_of_children fun action next hAnswer child hMem => ?_
      have hDepth := hChild hAnswer child hMem
      omega
  | succ bound ih =>
      refine exists_walk?_of_children fun action next hAnswer child hMem => ?_
      have hDepth := hChild hAnswer child hMem
      exact ih (by omega)

/-- A pass over a tree ends exactly if it does not go down forever, from a node to a child of what
the visitor has made of it. In particular it ends, within the levels of the tree, if the visitor
makes no node deeper than it was. -/
theorem traverse?_ends_iff (visitor : Visitor σ ε) (tree : Node) (state : σ) :
    ((∃ bound pass, visitor.traverse? bound tree state = some pass) ↔
      ¬ ∃ calls : Nat → Call σ, calls 0 = ⟨.root, tree, state⟩ ∧
        ∀ n, visitor.Descends (calls (n + 1)) (calls n)) ∧
    ((∀ position node state action, (visitor position node state).1 = .ok action →
        (action.apply node).depth ≤ node.depth) →
      ∃ pass, visitor.traverse? tree.depth tree state = some pass) := by
  constructor
  · rw [← not_acc_iff_exists_descending_chain, not_not, ← ends_iff_acc]
    rfl
  · intro hDepth
    exact exists_walk?_of_depth_le hDepth (Nat.le_refl _) .root state

/-- The visitor that puts a paragraph with a new leaf in the place of every leaf directive. -/
def nestLeaf : Visitor Unit Empty := fun _ node _ =>
  (.ok (if node.kind = .leafDirective then
    .replace { kind := .paragraph, children := [{ kind := .leafDirective, name := some ['a'] }] }
  else .keep), ())

/-- Not every pass ends: the leaf below a new paragraph becomes a paragraph with a leaf again. -/
theorem traverse?_endless_nestLeaf :
    ¬ ∀ (visitor : Visitor Unit Empty) (tree : Node),
      ∃ bound pass, visitor.traverse? bound tree () = some pass := by
  have hEndless : ∀ bound position,
      nestLeaf.walk? bound position { kind := .leafDirective, name := some ['a'] } () = none := by
    intro bound
    induction bound with
    | zero => exact fun position => rfl
    | succ bound ih =>
        intro position
        have hAnswer : nestLeaf position { kind := .leafDirective, name := some ['a'] } () =
            (.ok (.replace { kind := .paragraph
                             children := [{ kind := .leafDirective, name := some ['a'] }] }), ()) :=
          rfl
        have hBelow : ∀ position, nestLeaf.below (bound + 1) position
            { kind := .leafDirective, name := some ['a'] } () = none := ih
        rw [walk?_of_ok hAnswer]
        simp only [Action.apply, children?_cons, hBelow]
        rfl
  intro h
  obtain ⟨bound, pass, hPass⟩ := h nestLeaf { kind := .leafDirective, name := some ['a'] }
  rw [traverse?, hEndless] at hPass
  cases hPass

end Visitor

end DirectiveMarkdown
