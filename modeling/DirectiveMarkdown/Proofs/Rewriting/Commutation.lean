import DirectiveMarkdown.Proofs.Rewriting.Registration
import DirectiveMarkdown.Proofs.Rewriting.Standard
import DirectiveMarkdown.Proofs.Rewriting.Swap

/-! Pipelines of two rules in both orders. That no node is selected by both rules does not suffice
for the order to be irrelevant. For local rules it is irrelevant exactly if they spare each other. -/
namespace DirectiveMarkdown

namespace Rule

/-- The rule that puts an empty leaf of another name in place of a leaf. -/
def leafRename (source target : Text) : Rule where
  name := source
  selection := [⟨.leafDirective, some source⟩]
  rewrite _ _ := .ok (.replace { kind := .leafDirective, name := some target })

/-- The rule that marks the nodes of a kind for which a condition holds. -/
def mark (kind : NodeKind) (condition : Node → Bool) : Rule where
  name := kind.label.toList
  selection := [⟨kind, none⟩]
  rewrite _ node :=
    .ok (if condition node then .annotate { targetElement := [], targetProperties := ∅ } else .keep)

/-- A rule that only marks nodes replaces none, so it spares every rule. -/
theorem mark_spares (kind : NodeKind) (condition : Node → Bool) (other : Rule) :
    (mark kind condition).Spares other := by
  intro node replacement made outcome hSelects hRewrite
  have hReplace := Except.ok.inj hRewrite
  split at hReplace <;> cases hReplace

end Rule

namespace Video

/-- No node is both a video and a callout. -/
theorem not_selects_of_callout (policy : VideoPolicy) (callout : CalloutRule) (node : Node)
    (h : (rule policy).selection.selects node = true) :
    callout.toRule.selection.selects node = false := by
  rw [rule_selects, isVideo, Node.isDirective] at h
  rw [CalloutRule.toRule_selection, CalloutRule.selection, SelectionSet.selects, List.any_eq_false]
  intro selector hMem hSelects
  obtain ⟨category, -, rfl⟩ := List.mem_map.1 hMem
  simp_all [Selector.selects]

/-- A video becomes HTML, which is not a callout, and callouts never fail. -/
theorem rule_spares_callout (policy : VideoPolicy) (callout : CalloutRule) :
    (rule policy).Spares callout.toRule := by
  intro node replacement made outcome hSelects hRewrite hMade hOutcome
  have hVideo : isVideo node = true := (rule_selects policy node).symm.trans hSelects
  obtain ⟨html, rfl⟩ : ∃ html, replacement = .ofHtml html := by
    have hAnswer := (Rule.answer_of_selects hSelects).trans hRewrite
    rw [answer_of_isVideo policy hVideo] at hAnswer
    cases hRefusal : refusal? policy node with
    | some error => rw [hRefusal] at hAnswer; cases hAnswer
    | none =>
        rw [hRefusal] at hAnswer
        cases hAnswer
        exact ⟨_, rfl⟩
  obtain rfl : made = .ofHtml html := Except.ok.inj <|
    (rule_isLocal policy).eq_of_yields_childless
      ((Rule.answer_of_selects hSelects).trans hRewrite) rfl hMade
  constructor
  · exact callout.toRule_isLocal.eq_of_yields_childless (callout.answer_toRule _) rfl hOutcome
  · intro dropped _
    exact ⟨_, rfl⟩

end Video

namespace CalloutRule

/-- Callouts stay in their places. -/
theorem toRule_spares (callout : CalloutRule) (other : Rule) : callout.toRule.Spares other := by
  intro node replacement made outcome hSelects hRewrite
  have hReplace : callout.rewrite node = .replace replacement := Except.ok.inj hRewrite
  unfold rewrite at hReplace
  repeat' split at hReplace
  all_goals cases hReplace

end CalloutRule

namespace Pipeline

/-- The run of a pipeline over a tree ends in this way, given a bound that is large enough. -/
def Yields (pipeline : Pipeline) (tree : Node) (outcome : Except RenderError Node) : Prop :=
  (∃ allowance, (({ pipeline with allowance }).rewrite tree).outcome = outcome) ∧
    ∀ rule, outcome ≠ .error (.endless rule)

/-- Two rules that are not ordered build a pipeline exactly when no node is selected by both. -/
theorem build_pair_eq_ok_iff {first second : Rule} {gfm rawHtml : Bool} {pipeline : Pipeline} :
    build [{ rule := first }, { rule := second }] gfm rawHtml = .ok pipeline ↔
      (∀ node, first.selection.selects node = true → second.selection.selects node = false) ∧
        pipeline = { rules := [first, second], gfm, rawHtml } := by
  rw [← SelectionSet.overlap?_eq_none_iff]
  cases h : SelectionSet.overlap? first.selection second.selection with
  | none => simp [build, overlap?, overlapWith?, h, eq_comm]
  | some pair => simp [build, overlap?, overlapWith?, h]

variable {first second : Rule}

/-- The run of two local rules is the run of the first and, if this succeeds, that of the second. -/
theorem yields_pair_iff (hFirst : first.IsLocal) (hSecond : second.IsLocal) {gfm rawHtml : Bool}
    {tree : Node} {outcome : Except RenderError Node} :
    Yields { rules := [first, second], gfm, rawHtml } tree outcome ↔
      (∃ error, first.Yields tree (.error error) ∧ outcome = .error (.rewrite first.name error)) ∨
        ∃ made result, first.Yields tree (.ok made) ∧ second.Yields made result ∧
          outcome = result.mapError (.rewrite second.name) := by
  constructor
  · rintro ⟨⟨allowance, hRun⟩, hEnds⟩
    rw [rewrite, applyRules_cons_outcome, hFirst.applyRule_outcome] at hRun
    rcases hMade : first.turn? (tree.depth + allowance + 1) tree with _ | error | made
    · rw [hMade] at hRun
      exact absurd hRun.symm (hEnds _)
    · rw [hMade] at hRun
      exact .inl ⟨error, hFirst.yields_of_turn? hMade, hRun.symm⟩
    · rw [hMade, Except.bind, applyRules_cons_outcome, hSecond.applyRule_outcome] at hRun
      rcases hResult : second.turn? (made.depth + allowance + 1) made with _ | error | result
      · rw [hResult] at hRun
        exact absurd hRun.symm (hEnds _)
      · rw [hResult] at hRun
        exact .inr ⟨made, .error error, hFirst.yields_of_turn? hMade,
          hSecond.yields_of_turn? hResult, hRun.symm⟩
      · rw [hResult] at hRun
        exact .inr ⟨made, .ok result, hFirst.yields_of_turn? hMade,
          hSecond.yields_of_turn? hResult, hRun.symm⟩
  · rintro (⟨error, hMade, rfl⟩ | ⟨made, result, hMade, hResult, rfl⟩)
    · obtain ⟨levels, hTurn⟩ := hFirst.turn?_of_yields hMade
      refine ⟨⟨levels, ?_⟩, fun rule h => by cases h⟩
      rw [rewrite, applyRules_cons_outcome, hFirst.applyRule_of_turn? (Nat.le_refl _) hTurn]
      rfl
    · obtain ⟨levels, hTurn⟩ := hFirst.turn?_of_yields hMade
      obtain ⟨levels', hTurn'⟩ := hSecond.turn?_of_yields hResult
      have hOk : (Except.ok made).mapError (RenderError.rewrite first.name) = .ok made := rfl
      refine ⟨⟨max levels levels', ?_⟩, ?_⟩
      · rw [rewrite, applyRules_cons_outcome,
          hFirst.applyRule_of_turn? (Nat.le_max_left ..) hTurn, hOk, Except.bind,
          applyRules_cons_outcome, hSecond.applyRule_of_turn? (Nat.le_max_right ..) hTurn']
        cases result <;> rfl
      · intro rule h
        cases result <;> cases h

/-- If the one order succeeds and the other ends, both make the same tree, provided that the rules
spare each other. -/
theorem eq_ok_of_spares (hFirst : first.IsLocal) (hSecond : second.IsLocal)
    (hDisjoint : ∀ node, first.selection.selects node = true →
      second.selection.selects node = false)
    (hSpares : first.Spares second) (hSpares' : second.Spares first) {gfm rawHtml : Bool}
    {tree result : Node} {outcome : Except RenderError Node}
    (hResult : Yields { rules := [first, second], gfm, rawHtml } tree (.ok result))
    (hOutcome : Yields { rules := [second, first], gfm, rawHtml } tree outcome) :
    outcome = .ok result := by
  obtain ⟨error, -, hError⟩ | ⟨made, made', hMade, hMade', hOk⟩ :=
    (yields_pair_iff hFirst hSecond).1 hResult
  · cases hError
  cases made' with
  | error error => cases hOk
  | ok made' =>
      cases hOk
      obtain ⟨a, hTurnMade⟩ := hFirst.turn?_of_yields hMade
      obtain ⟨b, hTurnResult⟩ := hSecond.turn?_of_yields hMade'
      obtain ⟨error, hOther, rfl⟩ | ⟨other, back, hOther, hBack, rfl⟩ :=
        (yields_pair_iff hSecond hFirst).1 hOutcome
      · obtain ⟨c, hTurnOther⟩ := hSecond.turn?_of_yields hOther
        have hAtOther := Rule.turn?_mono (show c ≤ a + b + c by omega) hTurnOther
        obtain ⟨other, hNotError, -⟩ :=
          Rule.swapsAt_turn? hFirst hSecond hDisjoint hSpares hSpares' (a + b + c) tree _ _
            (Rule.turn?_mono (by omega) hTurnMade) (Rule.turn?_mono (by omega) hTurnResult)
            (by rw [hAtOther]; exact Option.some_ne_none _)
        rw [hAtOther] at hNotError
        cases hNotError
      · obtain ⟨c, hTurnOther⟩ := hSecond.turn?_of_yields hOther
        obtain ⟨d, hTurnBack⟩ := hFirst.turn?_of_yields hBack
        have hAtOther := Rule.turn?_mono (show c ≤ a + b + c + d by omega) hTurnOther
        have hAtBack := Rule.turn?_mono (show d ≤ a + b + c + d by omega) hTurnBack
        obtain ⟨same, hSame, hEqual⟩ :=
          Rule.swapsAt_turn? hFirst hSecond hDisjoint hSpares hSpares' (a + b + c + d) tree _ _
            (Rule.turn?_mono (by omega) hTurnMade) (Rule.turn?_mono (by omega) hTurnResult)
            (by rw [hAtOther]; exact Option.some_ne_none _)
        rw [hAtOther] at hSame
        cases hSame
        rw [hAtBack] at hEqual
        cases hEqual (Option.some_ne_none _)
        rfl

/-- If no tree shows the order of two rules, the first spares the second. Two trees suffice to see
this: a replaced node alone, and one above a node that it drops. -/
theorem spares_of_toOption_eq (hFirst : first.IsLocal) (hSecond : second.IsLocal)
    (hDisjoint : ∀ node, first.selection.selects node = true →
      second.selection.selects node = false) {gfm rawHtml : Bool}
    (hSame : ∀ tree a b, Yields { rules := [first, second], gfm, rawHtml } tree a →
      Yields { rules := [second, first], gfm, rawHtml } tree b → a.toOption = b.toOption) :
    first.Spares second := by
  intro node replacement made outcome hSelects hRewrite hMade hOutcome
  have hAnswer (children : List Node) :
      first.answer { node with children } = .ok (.replace replacement) := by
    rw [hFirst.answer_children, Rule.answer_of_selects hSelects, hRewrite]
  have hKeep (children : List Node) : second.answer { node with children } = .ok .keep := by
    rw [hSecond.answer_children, Rule.answer_of_not_selects (hDisjoint node hSelects)]
  have hMadeOf (children : List Node) : first.Yields { node with children } (.ok made) := by
    obtain ⟨levels, hTurn⟩ := hFirst.turn?_of_yields hMade
    have hSelf := (Rule.answer_of_selects hSelects).trans hRewrite
    exact hFirst.yields_of_turn?
      ((Rule.turn?_congr_replace (hAnswer children) hSelf levels).trans hTurn)
  have hOneOrder (children : List Node) :
      Yields { rules := [first, second], gfm, rawHtml } { node with children }
        (outcome.mapError (.rewrite second.name)) :=
    (yields_pair_iff hFirst hSecond).2 (.inr ⟨made, outcome, hMadeOf children, hOutcome, rfl⟩)
  have hAlone : second.Yields { node with children := [] } (.ok { node with children := [] }) := by
    exact hSecond.yields_of_turn? (Rule.turn?_of_ok (hKeep []) 0)
  have hEqual := hSame _ _ _ (hOneOrder [])
    ((yields_pair_iff hSecond hFirst).2 (.inr ⟨_, .ok made, hAlone, hMadeOf [], rfl⟩))
  obtain rfl : outcome = .ok made := by
    cases outcome with
    | error error => cases hEqual
    | ok other => exact congrArg Except.ok (Option.some.inj hEqual)
  refine ⟨rfl, ?_⟩
  intro dropped hDropped
  cases hFails : second.rewrite .root dropped with
  | ok action => exact ⟨action, rfl⟩
  | error error =>
      have hTurn : second.turn? 2 { node with children := [dropped] } = some (.error error) := by
        rw [Rule.turn?_of_ok (hKeep [dropped])]
        show Option.map _ (Rule.turnAll? (second.turn? 1) [dropped]) = _
        rw [Rule.turnAll?, Rule.turn?_of_error ((Rule.answer_of_selects hDropped).trans hFails)]
        rfl
      have hDiffer := hSame _ _ _ (hOneOrder [dropped])
        ((yields_pair_iff hSecond hFirst).2
          (.inl ⟨error, hSecond.yields_of_turn? hTurn, rfl⟩))
      cases hDiffer

/-- Two local rules that may be registered in either order make the same of every tree, or fail
both, exactly if they spare each other. Runs that do not end are left out of account. -/
theorem order_irrelevant_iff (hFirst : first.IsLocal) (hSecond : second.IsLocal)
    {gfm rawHtml : Bool} {pipeline reversed : Pipeline}
    (hPipeline : build [{ rule := first }, { rule := second }] gfm rawHtml = .ok pipeline)
    (hReversed : build [{ rule := second }, { rule := first }] gfm rawHtml = .ok reversed) :
    (∀ tree a b, pipeline.Yields tree a → reversed.Yields tree b → a.toOption = b.toOption) ↔
      first.Spares second ∧ second.Spares first := by
  obtain ⟨hDisjoint, rfl⟩ := build_pair_eq_ok_iff.1 hPipeline
  obtain ⟨hDisjoint', rfl⟩ := build_pair_eq_ok_iff.1 hReversed
  constructor
  · intro hSame
    exact ⟨spares_of_toOption_eq hFirst hSecond hDisjoint hSame,
      spares_of_toOption_eq hSecond hFirst hDisjoint' fun tree a b hA hB =>
        (hSame tree b a hB hA).symm⟩
  · rintro ⟨hSpares, hSpares'⟩ tree a b hA hB
    cases a with
    | ok result =>
        rw [eq_ok_of_spares hFirst hSecond hDisjoint hSpares hSpares' hA hB]
    | error error =>
        cases b with
        | error other => rfl
        | ok result =>
            cases eq_ok_of_spares hSecond hFirst hDisjoint' hSpares' hSpares hB hA

/-- The standard rules may stand in either order: a video becomes HTML, which is not a callout, and
a callout stays in its place. -/
theorem order_irrelevant_standard :
    ∃ callout pipeline reversed, CalloutRule.ofConfig .standard = .ok callout ∧
      (Video.rule .strict).IsLocal ∧ callout.toRule.IsLocal ∧
      build [{ rule := Video.rule .strict }, { rule := callout.toRule }] true true = .ok pipeline ∧
      build [{ rule := callout.toRule }, { rule := Video.rule .strict }] true true = .ok reversed ∧
      ∀ tree a b, pipeline.Yields tree a → reversed.Yields tree b → a.toOption = b.toOption := by
  have hCallout : ∃ callout, CalloutRule.ofConfig .standard = .ok callout := ⟨_, rfl⟩
  obtain ⟨callout, hOk⟩ := hCallout
  have hVideo := Video.rule_isLocal .strict
  have hLocal := callout.toRule_isLocal
  have hDisjoint := Video.not_selects_of_callout .strict callout
  have hPipeline : build [{ rule := Video.rule .strict }, { rule := callout.toRule }] true true =
      .ok _ := build_pair_eq_ok_iff.2 ⟨hDisjoint, rfl⟩
  have hReversed : build [{ rule := callout.toRule }, { rule := Video.rule .strict }] true true =
      .ok _ := build_pair_eq_ok_iff.2 ⟨Rule.disjoint_symm hDisjoint, rfl⟩
  exact ⟨callout, _, _, hOk, hVideo, hLocal, hPipeline, hReversed,
    (order_irrelevant_iff hVideo hLocal hPipeline hReversed).2
      ⟨Video.rule_spares_callout .strict callout, callout.toRule_spares _⟩⟩

/-- Disjoint selections alone do not make the order irrelevant. Of a rule that turns `a` into `b` and
one that turns `b` into `c` the order shows at `a`. -/
theorem order_relevant_leafRename :
    ¬ ∀ first second gfm rawHtml pipeline reversed tree,
      build [{ rule := first }, { rule := second }] gfm rawHtml = .ok pipeline →
      build [{ rule := second }, { rule := first }] gfm rawHtml = .ok reversed →
      (pipeline.rewrite tree).outcome.toOption = (reversed.rewrite tree).outcome.toOption := by
  intro h
  have hNames := congrArg (Option.map Node.name)
    (h (.leafRename ['a'] ['b']) (.leafRename ['b'] ['c']) true true _ _
      { kind := .leafDirective, name := some ['a'] } rfl rfl)
  cases hNames

/-- Rules that are not local may show their order though they spare each other: one that marks the
containers of marked nodes has to come after the one that marks these. -/
theorem order_relevant_mark :
    ∃ first second pipeline reversed tree,
      build [{ rule := first }, { rule := second }] true true = .ok pipeline ∧
      build [{ rule := second }, { rule := first }] true true = .ok reversed ∧
      first.Spares second ∧ second.Spares first ∧
      (pipeline.rewrite tree).outcome.toOption ≠ (reversed.rewrite tree).outcome.toOption := by
  refine ⟨.mark .containerDirective fun node => node.children.any fun child => child.metadata.isSome,
    .mark .leafDirective fun _ => true, _, _,
    { kind := .containerDirective, children := [{ kind := .leafDirective }] }, rfl, rfl,
    Rule.mark_spares _ _ _, Rule.mark_spares _ _ _, ?_⟩
  intro h
  have hMarks := congrArg (Option.map fun node => node.metadata.isSome) h
  cases hMarks

end Pipeline

end DirectiveMarkdown
