import DirectiveMarkdown.Node

/-! One pass over a tree, parents before children. The visitor is offered each node once, keeps a
state of its own, may change the node and may end the pass. A replacement is not offered again, but
its children are, so a visitor that always puts a child below the node that it is offered never
ends. A pass is therefore run with a bound on the depth that it may reach. -/
namespace DirectiveMarkdown

/-- Where a visited node stands: its depth and, below the root, its index and its parent. The parent
is shown as it is at that moment: its children before the visited one are finished, the visited one
and those after it are as they were after the parent's own visit. -/
structure Position where
  depth : Nat
  place : Option (Nat × Node)

namespace Position

def root : Position := ⟨0, none⟩

def isRoot (position : Position) : Bool := position.place.isNone

def index? (position : Position) : Option Nat := position.place.map Prod.fst

def parent? (position : Position) : Option Node := position.place.map Prod.snd

end Position

/-- What becomes of a visited node. -/
inductive Action where
  | keep
  | annotate (metadata : Metadata)
  | replace (replacement : Node)

def Action.apply (action : Action) (node : Node) : Node :=
  match action with
  | .keep => node
  | .annotate metadata => { node with metadata := some metadata }
  | .replace replacement => replacement

/-- A visitor with state `σ` and errors `ε`. -/
abbrev Visitor (σ ε : Type) := Position → Node → σ → Except ε Action × σ

/-- The end of a pass: what it made of its subject, the state of the visitor, and the visitor's
error if it failed. After an error the rest of the tree is as it was. -/
structure Pass (α σ ε : Type) where
  result : α
  state : σ
  error : Option ε

namespace Visitor

/-- Visits the children of a node in order, with `walk` for each of them and what is below it.
`done` are the finished ones. -/
def children? {σ ε : Type} (walk : Position → Node → σ → Option (Pass Node σ ε)) (depth : Nat)
    (parent : Node) (done : List Node) : List Node → σ → Option (Pass (List Node) σ ε)
  | [], state => some ⟨done, state, none⟩
  | child :: rest, state =>
    let position := ⟨depth, some (done.length, { parent with children := done ++ child :: rest })⟩
    match walk position child state with
    | none => none
    | some ⟨child, state, some error⟩ => some ⟨done ++ child :: rest, state, some error⟩
    | some ⟨child, state, none⟩ => children? walk depth parent (done ++ [child]) rest state

/-- Visits a node and what is below it. There is no answer if the pass goes more than `bound` levels
below the node. -/
def walk? {σ ε : Type} (visitor : Visitor σ ε) :
    Nat → Position → Node → σ → Option (Pass Node σ ε)
  | bound, position, node, state =>
    match visitor position node state with
    | (.error error, state) => some ⟨node, state, some error⟩
    | (.ok action, state) =>
      let node := action.apply node
      match bound with
      | 0 => if node.children.isEmpty then some ⟨node, state, none⟩ else none
      | bound + 1 =>
        (children? (walk? visitor bound) (position.depth + 1) node [] node.children state).map
          fun pass => ⟨{ node with children := pass.result }, pass.state, pass.error⟩

def traverse? {σ ε : Type} (visitor : Visitor σ ε) (bound : Nat) (tree : Node) (state : σ) :
    Option (Pass Node σ ε) :=
  walk? visitor bound .root tree state

end Visitor

end DirectiveMarkdown
