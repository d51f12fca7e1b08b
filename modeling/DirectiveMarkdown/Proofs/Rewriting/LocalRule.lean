import DirectiveMarkdown.Pipeline
import DirectiveMarkdown.Proofs.NodeRecursion

/-! Rules that look at nothing but the node itself. The pass of such a rule over a tree is a
recursion on the tree, bounded only because a replacement may hold further nodes for the rule.
Positions and the order of visits play no part in what such a pass makes. -/
namespace DirectiveMarkdown

namespace SelectionSet

/-- Selection looks at the kind and the name alone. -/
theorem selects_congr (set : SelectionSet) {a b : Node} (hKind : a.kind = b.kind)
    (hName : a.name = b.name) : set.selects a = set.selects b := by
  simp only [selects, Selector.selects, hKind, hName]

end SelectionSet

/-- What a pass made of its subject, or the error that ended it. -/
def Pass.outcome {α σ ε : Type} (pass : Pass α σ ε) : Except ε α :=
  match pass.error with
  | some error => .error error
  | none => .ok pass.result

/-- The rewritten tree, or the error that ended the rules. -/
def Rewriting.outcome (rewriting : Rewriting) : Except RenderError Node :=
  match rewriting.error with
  | some error => .error error
  | none => .ok rewriting.tree

/-- A rewriting ends in a tree exactly if no error ended it. -/
theorem Rewriting.outcome_eq_ok_iff (rewriting : Rewriting) (tree : Node) :
    rewriting.outcome = .ok tree ↔ rewriting = ⟨tree, none⟩ := by
  obtain ⟨made, error⟩ := rewriting
  cases error <;> simp [outcome]

/-- The rest of the rules run on what the first one made, unless it failed. -/
theorem Pipeline.applyRules_cons_outcome (allowance : Nat) (rule : Rule) (rest : List Rule)
    (tree : Node) :
    (applyRules allowance (rule :: rest) tree).outcome =
      (applyRule allowance rule tree).outcome.bind fun tree =>
        (applyRules allowance rest tree).outcome := by
  rw [applyRules]
  rcases applyRule allowance rule tree with ⟨made, _ | error⟩ <;> rfl

namespace Rule

/-- The answer to a node depends neither on where it stands nor on what is below it. -/
def IsLocal (rule : Rule) : Prop :=
  ∀ (position position' : Position) (node : Node) (children : List Node),
    rule.rewrite position node = rule.rewrite position' { node with children }

/-- The answer of a local rule to any node: those that it does not select are kept. -/
def answer (rule : Rule) (node : Node) : Except RewriteError Action :=
  if rule.selection.selects node then rule.rewrite .root node else .ok .keep

theorem answer_of_not_selects {rule : Rule} {node : Node}
    (h : rule.selection.selects node = false) : rule.answer node = .ok .keep := by
  simp [answer, h]

theorem answer_of_selects {rule : Rule} {node : Node}
    (h : rule.selection.selects node = true) : rule.answer node = rule.rewrite .root node := by
  simp [answer, h]

/-- A local rule answers a node alike at every place. -/
theorem IsLocal.visitor_eq {rule : Rule} (hLocal : rule.IsLocal) (position : Position)
    (node : Node) : rule.visitor position node () = (rule.answer node, ()) := by
  have hRoot : rule.rewrite position node = rule.rewrite .root node := by
    cases node
    exact hLocal position .root _ _
  unfold visitor answer
  split
  · rw [hRoot]
  · rfl

theorem IsLocal.answer_children {rule : Rule} (hLocal : rule.IsLocal) (node : Node)
    (children : List Node) : rule.answer { node with children } = rule.answer node := by
  have hSelects : rule.selection.selects { node with children } = rule.selection.selects node :=
    rule.selection.selects_congr rfl rfl
  simp only [answer, hSelects, ← hLocal .root .root node children]

/-- What becomes of several nodes in order, up to the first that fails or does not end. -/
def turnAll? (turn? : Node → Option (Except RewriteError Node)) :
    List Node → Option (Except RewriteError (List Node))
  | [] => some (.ok [])
  | child :: rest =>
    match turn? child with
    | none => none
    | some (.error error) => some (.error error)
    | some (.ok child) => (turnAll? turn? rest).map fun rest => rest.map (child :: ·)

/-- What a local rule makes of a node and what is below it, if that takes no more than so many
levels, the node's own included. -/
def turn? (rule : Rule) : Nat → Node → Option (Except RewriteError Node)
  | 0, _ => none
  | levels + 1, node =>
    match rule.answer node with
    | .error error => some (.error error)
    | .ok action =>
      (turnAll? (turn? rule levels) (action.apply node).children).map fun made =>
        made.map fun children => { action.apply node with children }

theorem turn?_of_error {rule : Rule} {node : Node} {error : RewriteError}
    (h : rule.answer node = .error error) (levels : Nat) :
    rule.turn? (levels + 1) node = some (.error error) := by
  rw [turn?, h]

/-- The rule goes on with the children of what it makes of a node. -/
theorem turn?_of_ok {rule : Rule} {node : Node} {action : Action}
    (h : rule.answer node = .ok action) (levels : Nat) :
    rule.turn? (levels + 1) node =
      (turnAll? (rule.turn? levels) (action.apply node).children).map fun made =>
        made.map fun children => { action.apply node with children } := by
  rw [turn?, h]

/-- Visiting children in order is the list recursion, whatever parent they are shown. -/
theorem children?_outcome
    {walk : Position → Node → Unit → Option (Pass Node Unit RewriteError)}
    {turn? : Node → Option (Except RewriteError Node)}
    (hWalk : ∀ position node, (walk position node ()).map Pass.outcome = turn? node)
    (depth : Nat) (parent : Node) (done nodes : List Node) :
    (Visitor.children? walk depth parent done nodes ()).map Pass.outcome =
      (turnAll? turn? nodes).map fun made => made.map (done ++ ·) := by
  induction nodes generalizing done with
  | nil => simp [Visitor.children?, turnAll?, Pass.outcome, Except.map]
  | cons child rest ih =>
      have hChild := hWalk
        ⟨depth, some (done.length, { parent with children := done ++ child :: rest })⟩ child
      unfold Visitor.children? turnAll?
      rw [← hChild]
      dsimp only
      split
      · next hNone => rw [hNone]; rfl
      · next made state error hError => rw [hError]; rfl
      · next made state hMade =>
          rw [hMade, ih]
          cases turnAll? turn? rest with
          | none => rfl
          | some made =>
              cases made with
              | error error => rfl
              | ok made => simp [Pass.outcome, Except.map]

/-- A pass of a local rule is the recursion on the tree, wherever it starts. -/
theorem IsLocal.walk?_outcome {rule : Rule} (hLocal : rule.IsLocal) (bound : Nat)
    (position : Position) (node : Node) :
    (rule.visitor.walk? bound position node ()).map Pass.outcome =
      rule.turn? (bound + 1) node := by
  induction bound generalizing position node with
  | zero =>
      unfold Visitor.walk?
      rw [hLocal.visitor_eq]
      cases hAnswer : rule.answer node with
      | error error => exact (turn?_of_error hAnswer 0).symm
      | ok action =>
          rw [turn?_of_ok hAnswer]
          dsimp only
          cases hChildren : (action.apply node).children with
          | nil =>
              have hSame := Node.with_children_eq hChildren
              simp [turnAll?, Pass.outcome, Except.map, hSame]
          | cons child rest => rfl
  | succ bound ih =>
      unfold Visitor.walk?
      rw [hLocal.visitor_eq]
      cases hAnswer : rule.answer node with
      | error error => exact (turn?_of_error hAnswer _).symm
      | ok action =>
          have hChildren := children?_outcome ih (position.depth + 1) (action.apply node) []
            (action.apply node).children
          have hNode : ∀ pass : Pass (List Node) Unit RewriteError,
              Pass.outcome
                  ⟨{ action.apply node with children := pass.result }, pass.state, pass.error⟩ =
                pass.outcome.map fun children => { action.apply node with children } := by
            rintro ⟨made, state, _ | error⟩ <;> rfl
          rw [turn?_of_ok hAnswer]
          simp only [Option.map_map, Function.comp_def, hNode]
          rw [← Function.comp_def, ← Option.map_map, hChildren]
          rcases turnAll? (rule.turn? (bound + 1)) (action.apply node).children with _ | _ | _ <;>
            rfl

/-- The pass that a pipeline makes with a local rule. -/
theorem IsLocal.applyRule_outcome {rule : Rule} (hLocal : rule.IsLocal) (allowance : Nat)
    (tree : Node) :
    (Pipeline.applyRule allowance rule tree).outcome =
      match rule.turn? (tree.depth + allowance + 1) tree with
      | none => .error (.endless rule.name)
      | some (.error error) => .error (.rewrite rule.name error)
      | some (.ok made) => .ok made := by
  unfold Pipeline.applyRule Visitor.traverse?
  rw [← hLocal.walk?_outcome (tree.depth + allowance) .root tree]
  cases rule.visitor.walk? (tree.depth + allowance) .root tree () with
  | none => rfl
  | some pass => obtain ⟨made, state, _ | error⟩ := pass <;> rfl

/-- What several nodes become stays the same if single nodes are given more levels. -/
theorem turnAll?_mono {turn? turn?' : Node → Option (Except RewriteError Node)}
    (hMono : ∀ node outcome, turn? node = some outcome → turn?' node = some outcome)
    {nodes : List Node} {outcome : Except RewriteError (List Node)}
    (h : turnAll? turn? nodes = some outcome) : turnAll? turn?' nodes = some outcome := by
  induction nodes generalizing outcome with
  | nil => exact h
  | cons child rest ih =>
      unfold turnAll? at h ⊢
      split at h
      · cases h
      · next error hError => rwa [hMono child _ hError]
      · next made hMade =>
          obtain ⟨madeRest, hRest, rfl⟩ := Option.map_eq_some_iff.1 h
          rw [hMono child _ hMade]
          dsimp only
          rw [ih hRest]
          rfl

/-- More levels leave every answer as it is. -/
theorem turn?_mono {rule : Rule} {levels more : Nat} (hLevels : levels ≤ more) {node : Node}
    {outcome : Except RewriteError Node} (h : rule.turn? levels node = some outcome) :
    rule.turn? more node = some outcome := by
  induction levels generalizing more node outcome with
  | zero => cases h
  | succ levels ih =>
      obtain ⟨more, rfl⟩ : ∃ fewer, more = fewer + 1 := ⟨more - 1, by omega⟩
      cases hAnswer : rule.answer node with
      | error error =>
          rw [turn?_of_error hAnswer] at h ⊢
          exact h
      | ok action =>
          rw [turn?_of_ok hAnswer] at h ⊢
          obtain ⟨made, hMade, rfl⟩ := Option.map_eq_some_iff.1 h
          rw [turnAll?_mono (fun child outcome hChild => ih (by omega) hChild) hMade]
          rfl

end Rule

end DirectiveMarkdown
