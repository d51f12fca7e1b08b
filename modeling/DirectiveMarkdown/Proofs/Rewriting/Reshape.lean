import DirectiveMarkdown.Proofs.NodeRecursion
import DirectiveMarkdown.Proofs.Rewriting.LocalRule

/-! Rules that refuse a node, replace it by a childless one, or change its metadata. The pass of such
a rule is one recursion over the tree, which fails at the first node that is refused. -/
namespace DirectiveMarkdown

namespace Node

mutual

/-- One recursion over a tree: a node that has a replacement becomes it, and any other node keeps
its kind, name, attributes and value, takes the given metadata, and has its children reshaped. -/
def reshape (replacement? : Node → Option Node) (metadata? : Node → Option Metadata) : Node → Node
  | node@⟨kind, name, attributes, _, children, value⟩ =>
    match replacement? node with
    | some replacement => replacement
    | none =>
      ⟨kind, name, attributes, metadata? node, reshapeAll replacement? metadata? children, value⟩

def reshapeAll (replacement? : Node → Option Node) (metadata? : Node → Option Metadata) :
    List Node → List Node
  | [] => []
  | node :: rest =>
    node.reshape replacement? metadata? :: reshapeAll replacement? metadata? rest

end

/-- A node without a replacement is reshaped in its metadata and its children. -/
theorem reshape_eq (replacement? : Node → Option Node) (metadata? : Node → Option Metadata)
    (node : Node) :
    node.reshape replacement? metadata? =
      (replacement? node).getD
        { node with metadata := metadata? node
                    children := node.children.map (reshape replacement? metadata?) } := by
  have hAll : ∀ nodes : List Node, reshapeAll replacement? metadata? nodes =
      nodes.map (reshape replacement? metadata?) := by
    intro nodes
    induction nodes with
    | nil => rfl
    | cons node rest ih => simp [reshapeAll, ih]
  cases node with
  | mk kind name attributes metadata children value =>
      rw [reshape]
      split
      · next h => rw [h]; rfl
      · next h => rw [h, hAll]; rfl

/-- The error of the first node in pre-order that is refused, of those that are not below a node
that `stops` the descent. -/
def firstRefusal? (stops : Node → Bool) (refusal? : Node → Option RewriteError)
    (above : List Node) (tree : Node) : Option RewriteError :=
  (tree.preorder above).findSome? fun (above, node) =>
    if above.any stops then none else refusal? node

/-- The first refusal in pre-order is that of the root, or else the first one in a child. -/
theorem firstRefusal?_eq (stops : Node → Bool) (refusal? : Node → Option RewriteError)
    (above : List Node) (node : Node) :
    node.firstRefusal? stops refusal? above =
      (if above.any stops then none else refusal? node).or
        (node.children.findSome? (firstRefusal? stops refusal? (node :: above))) := by
  have hAll : ∀ (above nodes : List Node),
      (nodes.flatMap (preorder above)).findSome?
          (fun (above, node) => if above.any stops then none else refusal? node) =
        nodes.findSome? (firstRefusal? stops refusal? above) := by
    intro above nodes
    induction nodes with
    | nil => rfl
    | cons first rest ih =>
        rw [List.flatMap_cons, List.findSome?_append, ih, List.findSome?_cons, ← firstRefusal?]
        cases first.firstRefusal? stops refusal? above <;> rfl
  rw [firstRefusal?, preorder_eq, List.findSome?_cons, hAll]
  dsimp only
  split
  · next error h => rw [h]; rfl
  · next h => rw [h]; rfl

/-- Below a node that stops the descent nothing is refused. -/
theorem firstRefusal?_of_stopped {stops : Node → Bool} {refusal? : Node → Option RewriteError}
    {above : List Node} (hAbove : above.any stops = true) (node : Node) :
    node.firstRefusal? stops refusal? above = none := by
  induction node using inductionOnChildren generalizing above with
  | step node ih =>
      rw [firstRefusal?_eq, if_pos hAbove, Option.none_or, List.findSome?_eq_none_iff]
      intro child hChild
      exact ih child hChild (by simp [hAbove])

theorem firstRefusal?_none (stops : Node → Bool) (above : List Node) (tree : Node) :
    tree.firstRefusal? stops (fun _ => none) above = none := by
  rw [firstRefusal?, List.findSome?_eq_none_iff]
  intro place _
  exact ite_self none

end Node

namespace Rule

/-- The recursion over a list, where each node is either refused or made into another. -/
theorem turnAll?_eq {turn? : Node → Option (Except RewriteError Node)}
    {refusal? : Node → Option RewriteError} {made : Node → Node} {nodes : List Node}
    (h : ∀ node ∈ nodes, turn? node = some ((refusal? node).elim (.ok (made node)) .error)) :
    turnAll? turn? nodes =
      some ((nodes.findSome? refusal?).elim (.ok (nodes.map made)) .error) := by
  induction nodes with
  | nil => rfl
  | cons node rest ih =>
      have hNode := h node (List.mem_cons_self ..)
      have hRest := ih fun other hOther => h other (List.mem_cons_of_mem _ hOther)
      rw [turnAll?, hNode]
      cases hRefusal : refusal? node with
      | some error => simp [hRefusal]
      | none =>
          simp only [Option.elim_none, hRest, List.findSome?_cons, hRefusal]
          cases rest.findSome? refusal? <;> rfl

/-- A rule whose answers are given by three functions of the node: the error with which it refuses
the node, a childless replacement, and otherwise new metadata. -/
structure Reshapes (rule : Rule) (refusal? : Node → Option RewriteError)
    (replacement? : Node → Option Node) (metadata? : Node → Option Metadata) : Prop where
  refuse : ∀ node error, refusal? node = some error → rule.answer node = .error error
  replace : ∀ node replacement, refusal? node = none → replacement? node = some replacement →
    rule.answer node = .ok (.replace replacement)
  keep : ∀ node, refusal? node = none → replacement? node = none →
    ∃ action, rule.answer node = .ok action ∧
      action.apply node = { node with metadata := metadata? node }
  childless : ∀ node replacement, replacement? node = some replacement → replacement.children = []

variable {rule : Rule} {refusal? : Node → Option RewriteError}
  {replacement? : Node → Option Node} {metadata? : Node → Option Metadata}

/-- Such a rule ends within the levels of the tree. It fails at the first node that it refuses and
that is not below a replaced one, and else reshapes the tree. -/
theorem Reshapes.turn?_eq (hRule : rule.Reshapes refusal? replacement? metadata?) {levels : Nat}
    {above : List Node} {node : Node} (hLevels : node.depth < levels)
    (hAbove : above.any (fun node => (replacement? node).isSome) = false) :
    rule.turn? levels node =
      some ((node.firstRefusal? (fun node => (replacement? node).isSome) refusal? above).elim
        (.ok (node.reshape replacement? metadata?)) .error) := by
  induction levels generalizing above node with
  | zero => omega
  | succ levels ih =>
      rw [Node.firstRefusal?_eq, Node.reshape_eq, hAbove]
      cases hRefusal : refusal? node with
      | some error =>
          rw [turn?_of_error (hRule.refuse node error hRefusal)]
          rfl
      | none =>
          cases hReplacement : replacement? node with
          | some replacement =>
              have hStopped : node.children.findSome? (Node.firstRefusal?
                  (fun node => (replacement? node).isSome) refusal? (node :: above)) = none := by
                rw [List.findSome?_eq_none_iff]
                intro child hChild
                exact Node.firstRefusal?_of_stopped (by simp [hReplacement]) child
              have hLeaf := hRule.childless node replacement hReplacement
              have hSame := Node.with_children_eq hLeaf
              rw [turn?_of_ok (hRule.replace node replacement hRefusal hReplacement), hStopped]
              simp [Action.apply, hLeaf, turnAll?, Except.map, hSame]
          | none =>
              obtain ⟨action, hAnswer, hApply⟩ := hRule.keep node hRefusal hReplacement
              have hChildren : ∀ child ∈ node.children, rule.turn? levels child =
                  some ((child.firstRefusal? (fun node => (replacement? node).isSome) refusal?
                    (node :: above)).elim (.ok (child.reshape replacement? metadata?)) .error) := by
                intro child hChild
                have hDepth := Node.depth_lt_of_mem hChild
                exact ih (by omega) (by simp [hReplacement, hAbove])
              rw [turn?_of_ok hAnswer]
              simp only [hApply, turnAll?_eq hChildren]
              cases node.children.findSome? (Node.firstRefusal?
                (fun node => (replacement? node).isSome) refusal? (node :: above)) <;> rfl

/-- A local rule of this kind never exceeds the bound that a pipeline gives it. -/
theorem Reshapes.applyRule_outcome (hRule : rule.Reshapes refusal? replacement? metadata?)
    (hLocal : rule.IsLocal) (allowance : Nat) (tree : Node) :
    (Pipeline.applyRule allowance rule tree).outcome =
      (tree.firstRefusal? (fun node => (replacement? node).isSome) refusal? []).elim
        (.ok (tree.reshape replacement? metadata?)) (.error ∘ .rewrite rule.name) := by
  have hLevels : tree.depth < tree.depth + allowance + 1 := by omega
  have hRoot : ([] : List Node).any (fun node => (replacement? node).isSome) = false := rfl
  rw [hLocal.applyRule_outcome, hRule.turn?_eq hLevels hRoot]
  cases tree.firstRefusal? (fun node => (replacement? node).isSome) refusal? [] <;> rfl

end Rule

end DirectiveMarkdown
