import DirectiveMarkdown.Pipeline

/-! Which rules can be registered one after the other. The comparison of selectors, a pair at a time,
decides the question that is meant: whether there is a node that two rules would both be offered. -/
namespace DirectiveMarkdown

/-- Some node is selected by the selector and by one of the set. -/
def Selector.Meets (selector : Selector) (set : SelectionSet) : Prop :=
  ∃ other ∈ set, ∃ node : Node, selector.selects node = true ∧ other.selects node = true

def SelectionSet.Meets (set other : SelectionSet) : Prop :=
  ∃ node : Node, set.selects node = true ∧ other.selects node = true

namespace SelectionSet

/-- What a selector is found to overlap is there exactly if a node is selected by both. -/
theorem find?_overlaps_eq_none_iff (selector : Selector) (set : SelectionSet) :
    set.find? (fun other => selector.overlaps other) = none ↔ ¬selector.Meets set := by
  rw [List.find?_eq_none]
  constructor
  · rintro h ⟨other, hMem, node, hNode⟩
    exact h other hMem ((selector.overlaps_iff other).2 ⟨node, hNode⟩)
  · intro h other hMem hOverlaps
    exact h ⟨other, hMem, (selector.overlaps_iff other).1 hOverlaps⟩

/-- Two sets meet where one of the selectors meets the other set. -/
theorem meets_iff {set other : SelectionSet} :
    set.Meets other ↔ ∃ selector ∈ set, selector.Meets other := by
  constructor
  · rintro ⟨node, hSet, hOther⟩
    obtain ⟨a, hA, hSelects⟩ := List.any_eq_true.1 hSet
    obtain ⟨b, hB, hSelects'⟩ := List.any_eq_true.1 hOther
    exact ⟨a, hA, b, hB, node, hSelects, hSelects'⟩
  · rintro ⟨a, hA, b, hB, node, hSelects, hSelects'⟩
    exact ⟨node, List.any_eq_true.2 ⟨a, hA, hSelects⟩, List.any_eq_true.2 ⟨b, hB, hSelects'⟩⟩

/-- Sets have no overlap exactly when no node is selected by both. -/
theorem overlap?_eq_none_iff_not_meets {set other : SelectionSet} :
    set.overlap? other = none ↔ ¬set.Meets other := by
  rw [overlap?, List.findSome?_eq_none_iff, meets_iff]
  constructor
  · rintro h ⟨selector, hMem, hMeets⟩
    exact (find?_overlaps_eq_none_iff selector other).1 (Option.map_eq_none_iff.1 (h selector hMem))
      hMeets
  · intro h selector hMem
    exact Option.map_eq_none_iff.2
      ((find?_overlaps_eq_none_iff selector other).2 fun hMeets => h ⟨selector, hMem, hMeets⟩)

/-- Sets without overlap select no node together, whatever node there is. -/
theorem overlap?_eq_none_iff (set other : SelectionSet) :
    set.overlap? other = none ↔
      ∀ node : Node, set.selects node = true → other.selects node = false := by
  rw [overlap?_eq_none_iff_not_meets, Meets]
  simp

/-- The overlap of two sets starts with the first selector that shares a node with the other set. -/
theorem exists_overlap?_iff {set other : SelectionSet} {selector : Selector} :
    (∃ partner, set.overlap? other = some (selector, partner)) ↔
      ∃ before after, set = before ++ selector :: after ∧ selector.Meets other ∧
        ∀ earlier ∈ before, ¬earlier.Meets other := by
  have hNone (a : Selector) : (other.find? fun b => a.overlaps b).map (fun b => (a, b)) = none ↔
      ¬a.Meets other := by
    rw [Option.map_eq_none_iff, find?_overlaps_eq_none_iff]
  constructor
  · rintro ⟨partner, hOverlap⟩
    obtain ⟨before, a, after, rfl, hFound, hBefore⟩ := List.findSome?_eq_some_iff.1 hOverlap
    obtain ⟨b, hFind, hPair⟩ := Option.map_eq_some_iff.1 hFound
    cases hPair
    refine ⟨before, after, rfl, ?_, fun earlier hMem => (hNone earlier).1 (hBefore earlier hMem)⟩
    refine Classical.not_not.1 fun hMeets => ?_
    rw [(hNone selector).2 hMeets] at hFound
    cases hFound
  · rintro ⟨before, after, rfl, hMeets, hBefore⟩
    cases hFind : other.find? fun b => selector.overlaps b with
    | none => exact absurd hMeets ((find?_overlaps_eq_none_iff selector other).1 hFind)
    | some partner =>
        refine ⟨partner, List.findSome?_eq_some_iff.2 ⟨before, selector, after, rfl, ?_, ?_⟩⟩
        · rw [hFind]
          rfl
        · exact fun earlier hMem => (hNone earlier).2 (hBefore earlier hMem)

end SelectionSet

namespace Pipeline

/-- Two registered rules that may not stand one after the other: some node would be offered to both,
and the second is not meant to see what earlier rules made. -/
def Clash (rules : List RegisteredRule) (first second : Nat) : Prop :=
  first < second ∧ ∃ earlier later, rules[first]? = some earlier ∧ rules[second]? = some later ∧
    later.ordered = false ∧ earlier.rule.selection.Meets later.rule.selection

/-- The error names two of the rules, and the first selector of the one that shares a node with the
other. -/
def Reports (rules : List RegisteredRule) (first second : Nat) (error : PipelineError) : Prop :=
  ∃ earlier later selector before after, rules[first]? = some earlier ∧
    rules[second]? = some later ∧ earlier.rule.selection = before ++ selector :: after ∧
    selector.Meets later.rule.selection ∧
    (∀ other ∈ before, ¬Selector.Meets other later.rule.selection) ∧
    error = .overlappingRules earlier.rule.name later.rule.name selector

theorem overlapWith?_eq_findSome? (later : Rule) (rules : List Rule) :
    overlapWith? later rules = rules.findSome? fun earlier =>
      (SelectionSet.overlap? earlier.selection later.selection).map fun pair =>
        .overlappingRules earlier.name later.name pair.1 := by
  induction rules with
  | nil => rfl
  | cons earlier rest ih =>
      rw [overlapWith?, List.findSome?_cons, ih]
      cases SelectionSet.overlap? earlier.selection later.selection <;> rfl

/-- The error for a rule that comes after others. -/
def refusal? (earlier : List Rule) (later : RegisteredRule) : Option PipelineError :=
  if later.ordered then none else overlapWith? later.rule earlier

variable {earlier : List Rule} {later : RegisteredRule} {rules : List RegisteredRule}
  {error : PipelineError}

/-- A rule may be registered if it is ordered or meets none of the earlier rules. -/
theorem refusal?_eq_none_iff : refusal? earlier later = none ↔
    (later.ordered = false → ∀ rule ∈ earlier, ¬rule.selection.Meets later.rule.selection) := by
  rw [refusal?, overlapWith?_eq_findSome?]
  cases later.ordered with
  | true => exact iff_of_true rfl nofun
  | false => simp [SelectionSet.overlap?_eq_none_iff_not_meets]

/-- The error for a rule is about the first of those before with which it shares a node. -/
theorem refusal?_eq_some_iff : refusal? earlier later = some error ↔
    later.ordered = false ∧ ∃ before rule after selector partner,
      earlier = before ++ rule :: after ∧
      SelectionSet.overlap? rule.selection later.rule.selection = some (selector, partner) ∧
      (∀ other ∈ before, ¬other.selection.Meets later.rule.selection) ∧
      error = .overlappingRules rule.name later.rule.name selector := by
  rw [refusal?, overlapWith?_eq_findSome?]
  cases later.ordered with
  | true => simp
  | false => simp [List.findSome?_eq_some_iff, SelectionSet.overlap?_eq_none_iff_not_meets]; grind

/-- The rules are looked at in their order, each against all before it. -/
theorem overlap?_cons (earlier : List Rule) (rule : RegisteredRule) (rest : List RegisteredRule) :
    overlap? earlier (rule :: rest) =
      (refusal? earlier rule).or (overlap? (earlier ++ [rule.rule]) rest) := by
  rw [overlap?, refusal?]
  cases (if rule.ordered then none else overlapWith? rule.rule earlier) <;> rfl

/-- The error for several rules is that for the first of them for which there is one. -/
theorem overlap?_eq_some_iff : overlap? earlier rules = some error ↔
    ∃ before later after, rules = before ++ later :: after ∧ overlap? earlier before = none ∧
      refusal? (earlier ++ before.map RegisteredRule.rule) later = some error := by
  induction rules generalizing earlier with
  | nil => simp [overlap?]
  | cons rule rest ih =>
      rw [overlap?_cons, Option.or_eq_some_iff, ih]
      constructor
      · rintro (hRefusal | ⟨hNone, before, later, after, rfl, hBefore, hFound⟩)
        · exact ⟨[], rule, rest, rfl, rfl, by simpa using hRefusal⟩
        · refine ⟨rule :: before, later, after, rfl, ?_, by simpa using hFound⟩
          rw [overlap?_cons, hNone, hBefore]
          rfl
      · rintro ⟨_ | ⟨other, before⟩, later, after, hRules, hBefore, hFound⟩
        · cases hRules
          exact .inl (by simpa using hFound)
        · cases hRules
          rw [overlap?_cons, Option.or_eq_none_iff] at hBefore
          exact .inr ⟨hBefore.1, before, later, after, rfl, hBefore.2, by simpa using hFound⟩

/-- None is refused exactly if none is refused behind those before it. -/
theorem overlap?_eq_none_iff : overlap? earlier rules = none ↔
    ∀ before later after, rules = before ++ later :: after →
      refusal? (earlier ++ before.map RegisteredRule.rule) later = none := by
  constructor
  · rintro hNone before later after rfl
    cases hRefusal : refusal? (earlier ++ before.map RegisteredRule.rule) later with
    | none => rfl
    | some error =>
        cases hBefore : overlap? earlier before with
        | none =>
            rw [overlap?_eq_some_iff.2 ⟨before, later, after, rfl, hBefore, hRefusal⟩] at hNone
            cases hNone
        | some first =>
            obtain ⟨inner, other, rest, rfl, hInner, hOther⟩ := overlap?_eq_some_iff.1 hBefore
            rw [List.append_assoc, List.cons_append,
              overlap?_eq_some_iff.2 ⟨inner, other, _, rfl, hInner, hOther⟩] at hNone
            cases hNone
  · intro h
    cases hError : overlap? earlier rules with
    | none => rfl
    | some error =>
        obtain ⟨before, later, after, hRules, -, hRefusal⟩ := overlap?_eq_some_iff.1 hError
        rw [h before later after hRules] at hRefusal
        cases hRefusal

section Clash

variable {before after : List RegisteredRule}

/-- A rule clashes with one before it exactly if it is refused after the rules before it. -/
theorem refusal?_eq_none_iff_clash :
    refusal? (before.map RegisteredRule.rule) later = none ↔
      ∀ first, ¬Clash (before ++ later :: after) first before.length := by
  rw [refusal?_eq_none_iff]
  constructor
  · rintro h first ⟨hFirst, earlier, other, hEarlier, hOther, hOrdered, hMeets⟩
    rw [List.getElem?_append_left hFirst] at hEarlier
    obtain rfl : later = other := by simpa using hOther
    exact h hOrdered _ (List.mem_map_of_mem (List.mem_of_getElem? hEarlier)) hMeets
  · intro h hOrdered rule hMem hMeets
    obtain ⟨earlier, hEarlier, rfl⟩ := List.mem_map.1 hMem
    obtain ⟨first, hFirst, hAt⟩ := List.mem_iff_getElem.1 hEarlier
    refine h first ⟨hFirst, earlier, later, ?_, by simp, hOrdered, hMeets⟩
    rw [List.getElem?_append_left hFirst, List.getElem?_eq_getElem hFirst, hAt]

/-- No rules clash exactly if none is refused. -/
theorem overlap?_eq_none_iff_clash : overlap? [] rules = none ↔ ∀ first second,
    ¬Clash rules first second := by
  rw [overlap?_eq_none_iff]
  constructor
  · rintro h first second ⟨hLt, earlier, later, hEarlier, hLater, hClash⟩
    obtain ⟨hSecond, rfl⟩ := List.getElem?_eq_some_iff.1 hLater
    have hRules : rules = rules.take second ++ rules[second] :: rules.drop (second + 1) := by simp
    have hLength : (rules.take second).length = second := by simp; omega
    have hRefusal := h _ _ _ hRules
    rw [List.nil_append, refusal?_eq_none_iff_clash, hLength, ← hRules] at hRefusal
    exact hRefusal first ⟨hLt, earlier, _, hEarlier, hLater, hClash⟩
  · rintro h before later after rfl
    exact refusal?_eq_none_iff_clash.2 fun first => h first before.length

/-- Rules that follow make no difference to a clash. -/
theorem clash_append_iff {first second : Nat} (h : second < before.length) :
    Clash (before ++ after) first second ↔ Clash before first second := by
  refine and_congr_right fun hFirst => ?_
  rw [List.getElem?_append_left h, List.getElem?_append_left (Nat.lt_trans hFirst h)]

/-- There is at most one error about two rules. -/
theorem Reports.unique {first second : Nat} {error other : PipelineError}
    (h : Reports rules first second error) (hOther : Reports rules first second other) :
    error = other := by
  obtain ⟨earlier, later, selector, before, after, hEarlier, hLater, hFirst⟩ := h
  obtain ⟨earlier', later', selector', before', after', hEarlier', hLater', hFirst'⟩ := hOther
  obtain rfl := Option.some.inj (hEarlier.symm.trans hEarlier')
  obtain rfl := Option.some.inj (hLater.symm.trans hLater')
  obtain ⟨hSelection, hMeets, hBefore, rfl⟩ := hFirst
  obtain ⟨hSelection', hMeets', hBefore', rfl⟩ := hFirst'
  obtain ⟨_, hOverlap⟩ :=
    SelectionSet.exists_overlap?_iff.2 ⟨before, after, hSelection, hMeets, hBefore⟩
  obtain ⟨_, hOverlap'⟩ :=
    SelectionSet.exists_overlap?_iff.2 ⟨before', after', hSelection', hMeets', hBefore'⟩
  rw [hOverlap] at hOverlap'
  cases hOverlap'
  rfl

/-- The error of a list of rules is about the first rule that clashes with one before it, and about
the first rule with which it clashes. -/
theorem reports_of_overlap? (h : overlap? [] rules = some error) :
    ∃ first second, Clash rules first second ∧
      (∀ first' second', Clash rules first' second' → second ≤ second') ∧
      (∀ first', Clash rules first' second → first ≤ first') ∧
      Reports rules first second error := by
  obtain ⟨before, later, after, rfl, hBefore, hRefusal⟩ := overlap?_eq_some_iff.1 h
  obtain ⟨hOrdered, inner, rule, rest, selector, partner, hSplit, hOverlap, hInner, rfl⟩ :=
    refusal?_eq_some_iff.1 hRefusal
  obtain ⟨others, others', rfl, rfl, hOthers⟩ := List.map_eq_append_iff.1 hSplit
  obtain ⟨earlier, more, rfl, rfl, rfl⟩ := List.map_eq_cons_iff.1 hOthers
  obtain ⟨selectors, selectors', hSelection, hMeets, hSelectors⟩ :=
    SelectionSet.exists_overlap?_iff.1 ⟨partner, hOverlap⟩
  have hShared : earlier.rule.selection.Meets later.rule.selection := by
    refine SelectionSet.meets_iff.2 ⟨selector, ?_, hMeets⟩
    rw [hSelection]
    exact List.mem_append_right _ (List.mem_cons_self ..)
  have hEarlier : (others ++ earlier :: more ++ later :: after)[others.length]? = some earlier := by
    simp
  have hLater : (others ++ earlier :: more ++ later :: after)[
      (others ++ earlier :: more).length]? = some later := by
    simp
  have hLt : others.length < (others ++ earlier :: more).length := by simp
  refine ⟨others.length, (others ++ earlier :: more).length,
    ⟨hLt, earlier, later, hEarlier, hLater, hOrdered, hShared⟩, ?_, ?_,
    earlier, later, selector, selectors, selectors', hEarlier, hLater, hSelection, hMeets,
    hSelectors, rfl⟩
  · intro first' second' hClash
    refine Nat.le_of_not_lt fun hLess => ?_
    exact overlap?_eq_none_iff_clash.1 hBefore first' second' ((clash_append_iff hLess).1 hClash)
  · rintro first' ⟨_, other, later', hOther, hLater', -, hMeets'⟩
    refine Nat.le_of_not_lt fun hLess => ?_
    rw [List.append_assoc, List.getElem?_append_left hLess] at hOther
    obtain rfl := Option.some.inj (hLater.symm.trans hLater')
    exact hInner _ (List.mem_map_of_mem (List.mem_of_getElem? hOther)) hMeets'

end Clash

/-- Rules build a pipeline exactly if no rule that is not ordered shares a node with one before it.
Otherwise the error is about the first rule that does, the first rule with which it shares a node,
and the first selector of that rule that selects such a node. -/
theorem build_eq_iff_clash (rules : List RegisteredRule) (gfm rawHtml : Bool) :
    (∀ pipeline, build rules gfm rawHtml = .ok pipeline ↔
      (∀ first second, ¬Clash rules first second) ∧
        pipeline = { rules := rules.map RegisteredRule.rule, gfm, rawHtml }) ∧
    ∀ error, build rules gfm rawHtml = .error error ↔
      ∃ first second, Clash rules first second ∧
        (∀ first' second', Clash rules first' second' → second ≤ second') ∧
        (∀ first', Clash rules first' second → first ≤ first') ∧
        Reports rules first second error := by
  rw [← overlap?_eq_none_iff_clash]
  cases hOverlap : overlap? [] rules with
  | none =>
      have hClash := overlap?_eq_none_iff_clash.1 hOverlap
      have hBuild : build rules gfm rawHtml =
          .ok { rules := rules.map RegisteredRule.rule, gfm, rawHtml } := by
        rw [build, hOverlap]
      rw [hBuild]
      constructor
      · intro pipeline
        simp [eq_comm]
      · intro error
        refine iff_of_false nofun ?_
        rintro ⟨first, second, hFound, -⟩
        exact hClash first second hFound
  | some found =>
      have hBuild : build rules gfm rawHtml = .error found := by rw [build, hOverlap]
      obtain ⟨first, second, hClash, hSecond, hFirst, hFound⟩ := reports_of_overlap? hOverlap
      rw [hBuild]
      constructor
      · intro pipeline
        exact iff_of_false nofun fun h => nomatch h.1
      · intro error
        constructor
        · intro h
          cases h
          exact ⟨first, second, hClash, hSecond, hFirst, hFound⟩
        · rintro ⟨first', second', hClash', hSecond', hFirst', hError⟩
          obtain rfl := Nat.le_antisymm (hSecond _ _ hClash') (hSecond' _ _ hClash)
          obtain rfl := Nat.le_antisymm (hFirst _ hClash') (hFirst' _ hClash)
          rw [hFound.unique hError]

end Pipeline

end DirectiveMarkdown
