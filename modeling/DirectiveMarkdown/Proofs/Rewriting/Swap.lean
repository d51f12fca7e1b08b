import DirectiveMarkdown.Proofs.Rewriting.LocalRule

/-! Two local rules one after the other. What one rule puts in place of a node may be a node for the
other, and what it drops may be a node at which the other fails. Rules that do neither to each other
swap: where both orders end, they make the same of a tree if the first of them succeeds. -/
namespace DirectiveMarkdown

/-- The pass of a rule over a tree ends in this way, given a bound that is large enough. -/
def Rule.Yields (rule : Rule) (tree : Node) (outcome : Except RewriteError Node) : Prop :=
  ∃ allowance, (Pipeline.applyRule allowance rule tree).outcome =
    outcome.mapError (.rewrite rule.name)

/-- The rule leaves the other rule alone: where it replaces a node, the other has nothing to do with
what comes of it, and the other can fail at none of the nodes that may be dropped with it. -/
def Rule.Spares (rule other : Rule) : Prop :=
  ∀ node replacement made outcome,
    rule.selection.selects node = true → rule.rewrite .root node = .ok (.replace replacement) →
    rule.Yields node (.ok made) → other.Yields made outcome →
      outcome = .ok made ∧
        ∀ dropped, other.selection.selects dropped = true →
          ∃ action, other.rewrite .root dropped = .ok action

namespace Action

variable {action : Action} (hKeep : ∀ replacement, action ≠ .replace replacement)

include hKeep in
theorem children_apply (node : Node) : (action.apply node).children = node.children := by
  cases action with
  | keep => rfl
  | annotate metadata => rfl
  | replace replacement => exact absurd rfl (hKeep replacement)

include hKeep in
/-- What an action does to a node does not depend on the children. -/
theorem apply_with_children (node : Node) (children : List Node) :
    action.apply { node with children } = { action.apply node with children } := by
  cases action with
  | keep => rfl
  | annotate metadata => rfl
  | replace replacement => exact absurd rfl (hKeep replacement)

end Action

namespace Rule

/-- Where `second` after `first` succeeds, so does `first` after `second`, with the same result, if
both of its parts end. -/
def SwapsAt {α : Type} (first second : α → Option (Except RewriteError α)) (a : α) : Prop :=
  ∀ made result, first a = some (.ok made) → second made = some (.ok result) → second a ≠ none →
    ∃ other, second a = some (.ok other) ∧
      (first other ≠ none → first other = some (.ok result))

theorem turnAll?_cons_eq_ok_iff {turn? : Node → Option (Except RewriteError Node)} {node : Node}
    {rest made : List Node} :
    turnAll? turn? (node :: rest) = some (.ok made) ↔
      ∃ first others, turn? node = some (.ok first) ∧ turnAll? turn? rest = some (.ok others) ∧
        made = first :: others := by
  rw [turnAll?]
  rcases turn? node with _ | _ | first
  · simp
  · simp
  · rcases turnAll? turn? rest with _ | _ | others <;> simp [Except.map, eq_comm]

/-- Passes over a list swap if they swap at each of its nodes. -/
theorem swapsAt_turnAll? {first second : Node → Option (Except RewriteError Node)}
    {nodes : List Node} (hNodes : ∀ node ∈ nodes, SwapsAt first second node) :
    SwapsAt (turnAll? first) (turnAll? second) nodes := by
  intro made result hMade hResult hEnds
  induction nodes generalizing made result with
  | nil =>
      cases hMade
      cases hResult
      exact ⟨[], rfl, fun _ => rfl⟩
  | cons node rest ih =>
      obtain ⟨madeNode, madeRest, hFirstNode, hFirstRest, rfl⟩ := turnAll?_cons_eq_ok_iff.1 hMade
      obtain ⟨resultNode, resultRest, hSecondNode, hSecondRest, rfl⟩ :=
        turnAll?_cons_eq_ok_iff.1 hResult
      have hEndsNode : second node ≠ none := by
        intro hNone
        rw [turnAll?, hNone] at hEnds
        exact hEnds rfl
      obtain ⟨otherNode, hOtherNode, hBackNode⟩ :=
        hNodes node (List.mem_cons_self ..) _ _ hFirstNode hSecondNode hEndsNode
      have hEndsRest : turnAll? second rest ≠ none := by
        intro hNone
        rw [turnAll?, hOtherNode, hNone] at hEnds
        exact hEnds rfl
      obtain ⟨otherRest, hOtherRest, hBackRest⟩ :=
        ih (fun other hMem => hNodes other (List.mem_cons_of_mem _ hMem)) _ _ hFirstRest
          hSecondRest hEndsRest
      refine ⟨otherNode :: otherRest,
        turnAll?_cons_eq_ok_iff.2 ⟨_, _, hOtherNode, hOtherRest, rfl⟩, ?_⟩
      intro hBack
      have hNode : first otherNode = some (.ok resultNode) := by
        refine hBackNode fun hNone => hBack ?_
        rw [turnAll?, hNone]
      have hRest : turnAll? first otherRest = some (.ok resultRest) := by
        refine hBackRest fun hNone => hBack ?_
        rw [turnAll?, hNode, hNone]
        rfl
      exact turnAll?_cons_eq_ok_iff.2 ⟨_, _, hNode, hRest, rfl⟩

theorem selects_of_replace {rule : Rule} {node replacement : Node}
    (h : rule.answer node = .ok (.replace replacement)) :
    rule.selection.selects node = true ∧ rule.rewrite .root node = .ok (.replace replacement) := by
  cases hSelects : rule.selection.selects node with
  | false =>
      rw [answer_of_not_selects hSelects] at h
      cases h
  | true => exact ⟨rfl, (answer_of_selects hSelects).symm.trans h⟩

/-- What becomes of a replaced node does not depend on what it was. -/
theorem turn?_congr_replace {rule : Rule} {a b replacement : Node}
    (hA : rule.answer a = .ok (.replace replacement))
    (hB : rule.answer b = .ok (.replace replacement)) (levels : Nat) :
    rule.turn? levels a = rule.turn? levels b := by
  cases levels with
  | zero => rfl
  | succ levels =>
      rw [turn?_of_ok hA, turn?_of_ok hB]
      rfl

/-- Of a node that is kept only the children change. -/
theorem exists_children_of_keep {rule : Rule} {node made : Node} {levels : Nat}
    (hKeep : rule.answer node = .ok .keep) (hMade : rule.turn? levels node = some (.ok made)) :
    ∃ children, made = { node with children } := by
  cases levels with
  | zero => cases hMade
  | succ levels =>
      rw [turn?_of_ok hKeep] at hMade
      obtain ⟨children, -, hChildren⟩ := Option.map_eq_some_iff.1 hMade
      cases children with
      | error error => cases hChildren
      | ok children => exact ⟨children, (Except.ok.inj hChildren).symm⟩

theorem turnAll?_ne_error {turn? : Node → Option (Except RewriteError Node)}
    (hNode : ∀ node error, turn? node ≠ some (.error error)) (nodes : List Node)
    (error : RewriteError) : turnAll? turn? nodes ≠ some (.error error) := by
  induction nodes generalizing error with
  | nil => intro h; cases h
  | cons node rest ih =>
      rw [turnAll?]
      rcases hTurn : turn? node with _ | other | made
      · simp
      · exact absurd hTurn (hNode node other)
      · rcases hRest : turnAll? turn? rest with _ | other | others
        · simp
        · exact absurd hRest (ih other)
        · simp [Except.map]

/-- A rule that fails at no node fails at no tree. -/
theorem turn?_ne_error {rule : Rule}
    (hNever : ∀ node, rule.selection.selects node = true →
      ∃ action, rule.rewrite .root node = .ok action)
    (levels : Nat) (node : Node) (error : RewriteError) :
    rule.turn? levels node ≠ some (.error error) := by
  induction levels generalizing node error with
  | zero => intro h; cases h
  | succ levels ih =>
      obtain ⟨action, hAnswer⟩ : ∃ action, rule.answer node = .ok action := by
        cases hSelects : rule.selection.selects node with
        | false => exact ⟨.keep, answer_of_not_selects hSelects⟩
        | true =>
            obtain ⟨action, hAction⟩ := hNever node hSelects
            exact ⟨action, (answer_of_selects hSelects).trans hAction⟩
      rw [turn?_of_ok hAnswer]
      rcases hMade : turnAll? (rule.turn? levels) (action.apply node).children with _ | other | made
      · simp
      · exact absurd hMade (turnAll?_ne_error ih _ other)
      · simp [Except.map]

/-- A pass of a local rule gives what the recursion gives, if it is allowed as many levels. -/
theorem IsLocal.applyRule_of_turn? {rule : Rule} (hLocal : rule.IsLocal) {levels allowance : Nat}
    (hLevels : levels ≤ allowance) {tree : Node} {outcome : Except RewriteError Node}
    (h : rule.turn? levels tree = some outcome) :
    (Pipeline.applyRule allowance rule tree).outcome =
      outcome.mapError (.rewrite rule.name) := by
  rw [hLocal.applyRule_outcome, turn?_mono (by omega) h]
  cases outcome <;> rfl

theorem IsLocal.yields_of_turn? {rule : Rule} (hLocal : rule.IsLocal) {levels : Nat} {tree : Node}
    {outcome : Except RewriteError Node} (h : rule.turn? levels tree = some outcome) :
    rule.Yields tree outcome :=
  ⟨levels, hLocal.applyRule_of_turn? (Nat.le_refl _) h⟩

/-- How a pass ends is found by the recursion with enough levels. -/
theorem IsLocal.turn?_of_yields {rule : Rule} (hLocal : rule.IsLocal) {tree : Node}
    {outcome : Except RewriteError Node} (h : rule.Yields tree outcome) :
    ∃ levels, rule.turn? levels tree = some outcome := by
  obtain ⟨allowance, hOutcome⟩ := h
  refine ⟨tree.depth + allowance + 1, ?_⟩
  rw [hLocal.applyRule_outcome] at hOutcome
  rcases hTurn : rule.turn? (tree.depth + allowance + 1) tree with _ | error | made <;>
    rw [hTurn] at hOutcome <;> cases outcome <;> cases hOutcome <;> rfl

/-- Where an action leaves no children there is nothing more to do. -/
theorem IsLocal.eq_of_yields_childless {rule : Rule} (hLocal : rule.IsLocal) {node : Node}
    {action : Action} {outcome : Except RewriteError Node} (hAnswer : rule.answer node = .ok action)
    (hChildless : (action.apply node).children = []) (h : rule.Yields node outcome) :
    outcome = .ok (action.apply node) := by
  obtain ⟨levels, hTurn⟩ := hLocal.turn?_of_yields h
  cases levels with
  | zero => cases hTurn
  | succ levels =>
      rw [turn?_of_ok hAnswer, hChildless] at hTurn
      have hOutcome : Except.ok { action.apply node with children := [] } = outcome :=
        Option.some.inj hTurn
      rw [← hOutcome, Node.with_children_eq hChildless]

section

variable {first second : Rule} (hFirst : first.IsLocal) (hSecond : second.IsLocal)
  (hDisjoint : ∀ node, first.selection.selects node = true → second.selection.selects node = false)

include hDisjoint in
theorem disjoint_symm (node : Node) (hSelects : second.selection.selects node = true) :
    first.selection.selects node = false := by
  cases h : first.selection.selects node with
  | false => rfl
  | true =>
      rw [hDisjoint node h] at hSelects
      cases hSelects

include hDisjoint in
/-- An action that keeps the node is nothing to a rule that selects other nodes. -/
theorem answer_apply {node : Node} {action : Action} (hAction : first.answer node = .ok action)
    (hKeep : ∀ replacement, action ≠ .replace replacement) :
    second.answer (action.apply node) = second.answer node := by
  cases hSelects : first.selection.selects node with
  | false =>
      rw [answer_of_not_selects hSelects] at hAction
      cases hAction
      rfl
  | true =>
      have hNode := hDisjoint node hSelects
      have hApplied : second.selection.selects (action.apply node) = false := by
        rw [← hNode]
        cases action with
        | keep => rfl
        | annotate metadata => exact second.selection.selects_congr rfl rfl
        | replace replacement => exact absurd rfl (hKeep replacement)
      rw [answer_of_not_selects hNode, answer_of_not_selects hApplied]

include hFirst hSecond hDisjoint in
/-- Where the first rule replaces the node, the second works on what is dropped, to no effect. -/
theorem swapsAt_of_replace_first (hSpares : first.Spares second) {node replacement : Node}
    (hReplace : first.answer node = .ok (.replace replacement)) (levels : Nat) :
    SwapsAt (first.turn? levels) (second.turn? levels) node := by
  intro made result hMade hResult hEnds
  obtain ⟨hSelects, hRewrite⟩ := selects_of_replace hReplace
  obtain ⟨hSame, hNever⟩ := hSpares node replacement made (.ok result) hSelects hRewrite
    (hFirst.yields_of_turn? hMade) (hSecond.yields_of_turn? hResult)
  obtain ⟨outcome, hOutcome⟩ := Option.ne_none_iff_exists'.1 hEnds
  cases outcome with
  | error error => exact absurd hOutcome (turn?_ne_error hNever _ _ _)
  | ok other =>
      obtain ⟨children, rfl⟩ :=
        exists_children_of_keep (answer_of_not_selects (hDisjoint node hSelects)) hOutcome
      have hOther : first.answer { node with children } = .ok (.replace replacement) :=
        (hFirst.answer_children node children).trans hReplace
      refine ⟨_, hOutcome, fun _ => ?_⟩
      rw [hSame, ← hMade]
      exact turn?_congr_replace hOther hReplace _

include hFirst hSecond hDisjoint in
/-- Where the second rule replaces the node, the first has nothing to do with what comes of it. -/
theorem swapsAt_of_replace_second (hSpares : second.Spares first) {node replacement : Node}
    (hReplace : second.answer node = .ok (.replace replacement)) (levels : Nat) :
    SwapsAt (first.turn? levels) (second.turn? levels) node := by
  intro made result hMade hResult _
  obtain ⟨hSelects, hRewrite⟩ := selects_of_replace hReplace
  have hNot := answer_of_not_selects (disjoint_symm hDisjoint node hSelects)
  obtain ⟨children, rfl⟩ := exists_children_of_keep hNot hMade
  have hAgain : second.answer { node with children } = .ok (.replace replacement) :=
    (hSecond.answer_children node children).trans hReplace
  have hResult' : second.turn? levels node = some (.ok result) :=
    (turn?_congr_replace hReplace hAgain levels).trans hResult
  refine ⟨result, hResult', fun hEnds => ?_⟩
  obtain ⟨outcome, hOutcome⟩ := Option.ne_none_iff_exists'.1 hEnds
  obtain ⟨rfl, -⟩ := hSpares node replacement result outcome hSelects hRewrite
    (hSecond.yields_of_turn? hResult') (hFirst.yields_of_turn? hOutcome)
  exact hOutcome

include hDisjoint in
/-- Of two rules that select different nodes at most one changes the metadata of a node. -/
theorem apply_apply {node : Node} {action other : Action} (hAction : first.answer node = .ok action)
    (hOther : second.answer node = .ok other) :
    other.apply (action.apply node) = action.apply (other.apply node) := by
  cases hSelects : first.selection.selects node with
  | false =>
      rw [answer_of_not_selects hSelects] at hAction
      cases hAction
      rfl
  | true =>
      rw [answer_of_not_selects (hDisjoint node hSelects)] at hOther
      cases hOther
      rfl

include hSecond hDisjoint in
/-- Where the second rule fails at the node, it fails also after the first. -/
theorem swapsAt_of_error_second {node : Node} {error : RewriteError}
    (hError : second.answer node = .error error) (levels : Nat) :
    SwapsAt (first.turn? levels) (second.turn? levels) node := by
  intro made result hMade hResult _
  have hSelects : second.selection.selects node = true := by
    cases h : second.selection.selects node with
    | false =>
        rw [answer_of_not_selects h] at hError
        cases hError
    | true => rfl
  have hNot := answer_of_not_selects (disjoint_symm hDisjoint node hSelects)
  obtain ⟨children, rfl⟩ := exists_children_of_keep hNot hMade
  have hAgain : second.answer { node with children } = .error error :=
    (hSecond.answer_children node children).trans hError
  cases levels with
  | zero => cases hResult
  | succ levels =>
      rw [turn?_of_error hAgain] at hResult
      cases hResult

include hFirst hSecond hDisjoint in
/-- Where both rules keep the node, they swap if they swap at its children. -/
theorem swapsAt_of_keep {node : Node} {action other : Action}
    (hAction : first.answer node = .ok action) (hOther : second.answer node = .ok other)
    (hKeep : ∀ replacement, action ≠ .replace replacement)
    (hKeepOther : ∀ replacement, other ≠ .replace replacement) {levels : Nat}
    (hChildren : ∀ child ∈ node.children,
      SwapsAt (first.turn? levels) (second.turn? levels) child) :
    SwapsAt (first.turn? (levels + 1)) (second.turn? (levels + 1)) node := by
  have hDisjoint' := disjoint_symm hDisjoint
  intro made result hMade hResult hEnds
  rw [turn?_of_ok hAction, Action.children_apply hKeep] at hMade
  obtain ⟨madeAll, hMadeAll, hMadeEq⟩ := Option.map_eq_some_iff.1 hMade
  cases madeAll with
  | error error => cases hMadeEq
  | ok madeAll =>
      have hMadeEq : { action.apply node with children := madeAll } = made := Except.ok.inj hMadeEq
      have hSecondMade : second.answer made = .ok other := by
        rw [← hMadeEq, hSecond.answer_children, answer_apply hDisjoint hAction hKeep, hOther]
      rw [turn?_of_ok hSecondMade, Action.children_apply hKeepOther, ← hMadeEq,
        Action.apply_with_children hKeepOther] at hResult
      obtain ⟨resultAll, hResultAll, hResultEq⟩ := Option.map_eq_some_iff.1 hResult
      rw [turn?_of_ok hOther, Action.children_apply hKeepOther] at hEnds ⊢
      have hEndsAll : turnAll? (second.turn? levels) node.children ≠ none := by
        intro hNone
        rw [hNone] at hEnds
        exact hEnds rfl
      cases resultAll with
      | error error => cases hResultEq
      | ok resultAll =>
          obtain ⟨otherAll, hOtherAll, hBack⟩ :=
            swapsAt_turnAll? hChildren madeAll resultAll hMadeAll hResultAll hEndsAll
          refine ⟨{ other.apply node with children := otherAll }, by rw [hOtherAll]; rfl, ?_⟩
          have hFirstOther : first.answer { other.apply node with children := otherAll } =
              .ok action := by
            rw [hFirst.answer_children, answer_apply hDisjoint' hOther hKeepOther, hAction]
          rw [turn?_of_ok hFirstOther, Action.children_apply hKeep,
            Action.apply_with_children hKeep, ← apply_apply hDisjoint hAction hOther]
          intro hBackEnds
          have hBackAll := hBack fun hNone => hBackEnds (by rw [hNone]; rfl)
          rw [hBackAll]
          exact congrArg some hResultEq

include hFirst hSecond hDisjoint in
/-- Rules that spare each other swap at every tree. -/
theorem swapsAt_turn? (hSpares : first.Spares second) (hSpares' : second.Spares first)
    (levels : Nat) (node : Node) : SwapsAt (first.turn? levels) (second.turn? levels) node := by
  induction levels generalizing node with
  | zero => intro made result hMade; cases hMade
  | succ levels ih =>
      cases hAction : first.answer node with
      | error error =>
          intro made result hMade
          rw [turn?_of_error hAction] at hMade
          cases hMade
      | ok action =>
          cases hOther : second.answer node with
          | error error =>
              exact swapsAt_of_error_second hSecond hDisjoint hOther _
          | ok other =>
              by_cases hReplace : ∃ replacement, action = .replace replacement
              · obtain ⟨replacement, rfl⟩ := hReplace
                exact swapsAt_of_replace_first hFirst hSecond hDisjoint hSpares hAction _
              · by_cases hReplaceOther : ∃ replacement, other = .replace replacement
                · obtain ⟨replacement, rfl⟩ := hReplaceOther
                  exact swapsAt_of_replace_second hFirst hSecond hDisjoint hSpares' hOther _
                · exact swapsAt_of_keep hFirst hSecond hDisjoint hAction hOther
                    (fun replacement h => hReplace ⟨replacement, h⟩)
                    (fun replacement h => hReplaceOther ⟨replacement, h⟩) fun child _ => ih child

end

end Rule

end DirectiveMarkdown
