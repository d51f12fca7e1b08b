import DirectiveMarkdown.Node

/-! Which nodes a rule is offered. -/
namespace DirectiveMarkdown

/-- Nodes of one kind, of any name or of one. -/
structure Selector where
  kind : NodeKind
  name : Option Text := none
deriving DecidableEq

namespace Selector

def selects (selector : Selector) (node : Node) : Bool :=
  node.kind == selector.kind && (selector.name.isNone || node.name == selector.name)

/-- Some node is selected by both. -/
def overlaps (a b : Selector) : Bool :=
  a.kind == b.kind && (a.name.isNone || b.name.isNone || a.name == b.name)

def describe (selector : Selector) : Text :=
  let kind := match selector.kind.label.toList with
    | [] => []
    | c :: rest => c.toUpper :: rest
  match selector.name with
  | some name => kind ++ text " '" ++ name ++ ['\'']
  | none => text "any " ++ kind

/-- Two selectors overlap exactly when there is a node that both select. -/
theorem overlaps_iff (a b : Selector) :
    a.overlaps b = true ↔ ∃ node : Node, a.selects node = true ∧ b.selects node = true := by
  obtain ⟨kindA, nameA⟩ := a
  obtain ⟨kindB, nameB⟩ := b
  constructor
  · intro h
    refine ⟨{ kind := kindA, name := nameA.or nameB }, ?_⟩
    cases nameA <;> cases nameB <;> simp_all [overlaps, selects]
  · rintro ⟨node, hA, hB⟩
    cases nameA <;> cases nameB <;> simp_all [overlaps, selects]

end Selector

/-- The nodes that a rule is offered: those of any of the selectors. -/
abbrev SelectionSet := List Selector

namespace SelectionSet

def selects (set : SelectionSet) (node : Node) : Bool := set.any fun s => s.selects node

/-- The first selector of the set that overlaps one of the other set, with the first that it
overlaps. -/
def overlap? (set other : SelectionSet) : Option (Selector × Selector) :=
  set.findSome? fun a => (other.find? fun b => a.overlaps b).map fun b => (a, b)

end SelectionSet

end DirectiveMarkdown
