import DirectiveMarkdown.Node

/-! Recursion over the syntax tree: the nodes in pre-order, and induction from the children of a node
to the node. -/
namespace DirectiveMarkdown

namespace Node

mutual

/-- The nodes of a tree, parents before children, each with the nodes above it, innermost first.
`above` are the nodes above the tree. -/
def preorder (above : List Node) : Node → List (List Node × Node)
  | node@⟨_, _, _, _, children, _⟩ => (above, node) :: preorderAll (node :: above) children

/-- The nodes of several trees below the same nodes. -/
def preorderAll (above : List Node) : List Node → List (List Node × Node)
  | [] => []
  | node :: rest => node.preorder above ++ preorderAll above rest

end

theorem preorder_eq (above : List Node) (node : Node) :
    node.preorder above =
      (above, node) :: node.children.flatMap (preorder (node :: above)) := by
  have hAll : ∀ (above nodes : List Node), preorderAll above nodes =
      nodes.flatMap (preorder above) := by
    intro above nodes
    induction nodes with
    | nil => rfl
    | cons node rest ih => simp [preorderAll, ih]
  cases node with
  | mk kind name attributes metadata children value => rw [preorder, hAll]

theorem with_children_eq {node : Node} {children : List Node} (h : node.children = children) :
    { node with children } = node := by
  cases node
  cases h
  rfl

/-- A child has fewer levels below it than its parent. -/
theorem depth_lt_of_mem {node child : Node} (h : child ∈ node.children) :
    child.depth < node.depth := by
  have hAll : ∀ nodes : List Node, child ∈ nodes → child.depth < depthAll nodes := by
    intro nodes hMem
    induction nodes with
    | nil => cases hMem
    | cons first rest ih =>
        rw [depthAll]
        rcases List.mem_cons.1 hMem with rfl | hRest
        · omega
        · have := ih hRest
          omega
  cases node with
  | mk kind name attributes metadata children value =>
      rw [depth]
      exact hAll children h

/-- What holds of a node as soon as it holds of its children holds of every node. -/
@[elab_as_elim]
theorem inductionOnChildren {motive : Node → Prop}
    (step : ∀ node, (∀ child ∈ node.children, motive child) → motive node) (node : Node) :
    motive node :=
  step node fun child _ => inductionOnChildren step child
termination_by node.depth
decreasing_by exact depth_lt_of_mem (by assumption)

end Node

end DirectiveMarkdown
