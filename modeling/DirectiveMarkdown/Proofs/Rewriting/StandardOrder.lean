import DirectiveMarkdown.Proofs.Rewriting.Commutation

/-! The standard rules in either order. The rule for videos drops whole subtrees, callouts in them
included, and the rule for callouts changes nodes around and inside videos. But it changes nothing
that makes a node a video, or by which a video is refused, and what it does inside a video is
dropped with it. So both orders come to the one recursion over the tree. -/
namespace DirectiveMarkdown

namespace Node

/-- New metadata alone change nothing about where a tree is first refused. -/
theorem firstRefusal?_annotate {stops : Node → Bool} {refusal? : Node → Option RewriteError}
    {metadata? : Node → Option Metadata}
    (hStops : ∀ (node : Node) metadata children, stops { node with metadata, children } = stops node)
    (hRefusal : ∀ (node : Node) metadata children,
      refusal? { node with metadata, children } = refusal? node)
    {above annotatedAbove : List Node} (hAbove : annotatedAbove.any stops = above.any stops)
    (node : Node) :
    (node.reshape (fun _ => none) metadata?).firstRefusal? stops refusal? annotatedAbove =
      node.firstRefusal? stops refusal? above := by
  induction node using inductionOnChildren generalizing above annotatedAbove with
  | step node ih =>
      have hAnnotated : node.reshape (fun _ => none) metadata? =
          { node with metadata := metadata? node
                      children := node.children.map (reshape (fun _ => none) metadata?) } :=
        reshape_eq _ _ node
      have hInside : ((node.reshape (fun _ => none) metadata?) :: annotatedAbove).any stops =
          (node :: above).any stops := by
        rw [List.any_cons, List.any_cons, hAbove, hAnnotated, hStops]
      have hEach : node.children.map (fun child => (child.reshape (fun _ => none) metadata?).firstRefusal?
          stops refusal? (node.reshape (fun _ => none) metadata? :: annotatedAbove)) =
          node.children.map (firstRefusal? stops refusal? (node :: above)) :=
        List.map_congr_left fun child hChild => ih child hChild hInside
      have hChildren : (node.children.map (reshape (fun _ => none) metadata?)).findSome?
          (firstRefusal? stops refusal? (node.reshape (fun _ => none) metadata? :: annotatedAbove)) =
          node.children.findSome? (firstRefusal? stops refusal? (node :: above)) := by
        simpa only [List.findSome?_map, Function.comp_def, id_eq] using
          congrArg (List.findSome? id) hEach
      rw [firstRefusal?_eq, firstRefusal?_eq _ _ above, ← hChildren, hAbove, hAnnotated, hRefusal]

/-- Annotating the callouts and then embedding the videos of the result is the one recursion. -/
theorem embed_annotate (config : CalloutConfig) (node : Node) :
    (node.reshape (fun _ => none) config.metadataAfter?).reshape Video.embedding? metadata =
      node.standardForm config := by
  induction node using inductionOnChildren with
  | step node ih =>
      have hAnnotated : node.reshape (fun _ => none) config.metadataAfter? =
          { node with metadata := config.metadataAfter? node
                      children := node.children.map
                        (reshape (fun _ => none) config.metadataAfter?) } :=
        reshape_eq _ _ node
      cases hVideo : Video.isVideo node with
      | true =>
          have hStill : Video.isVideo (node.reshape (fun _ => none) config.metadataAfter?) = true := by
            rw [hAnnotated]
            exact hVideo
          rw [standardForm_of_isVideo config hVideo, reshape_eq, Video.embedding?, if_pos hStill,
            hAnnotated]
          rfl
      | false =>
          have hStill : Video.isVideo
              (node.reshape (fun _ => none) config.metadataAfter?) = false := by
            rw [hAnnotated]
            exact hVideo
          have hChildren : (node.children.map (reshape (fun _ => none) config.metadataAfter?)).map
              (reshape Video.embedding? metadata) = node.children.map (standardForm config) := by
            rw [List.map_map]
            exact List.map_congr_left ih
          rw [standardForm_of_not_isVideo config hVideo, reshape_eq, Video.embedding?, hStill,
            hAnnotated, ← hChildren]
          rfl

end Node

namespace Pipeline

variable {callouts : CalloutConfig} {callout : CalloutRule}

/-- The callouts first: the rule for videos then refuses and embeds the same videos as without. -/
theorem rewrite_outcome_callouts_first (hCallout : CalloutRule.ofConfig callouts = .ok callout)
    (policy : VideoPolicy) (gfm rawHtml : Bool) (tree : Node) :
    (rewrite { rules := [callout.toRule, Video.rule policy], gfm, rawHtml } tree).outcome =
      (tree.firstRefusal? Video.isVideo (Video.refusal? policy) []).elim
        (.ok (tree.standardForm callouts)) (.error ∘ .rewrite (text "video")) := by
  have hStops : (fun node => (Video.embedding? node).isSome) = Video.isVideo :=
    funext Video.isSome_embedding?
  have hRefusal : (tree.reshape (fun _ => none) callouts.metadataAfter?).firstRefusal?
      Video.isVideo (Video.refusal? policy) [] =
      tree.firstRefusal? Video.isVideo (Video.refusal? policy) [] :=
    Node.firstRefusal?_annotate (fun _ _ _ => rfl) (fun _ _ _ => rfl) rfl tree
  unfold rewrite
  rw [applyRules_cons_outcome,
    (CalloutRule.toRule_reshapes hCallout).applyRule_outcome callout.toRule_isLocal,
    Node.firstRefusal?_none, Option.elim_none, Except.bind, applyRules_cons_outcome,
    (Video.rule_reshapes policy).applyRule_outcome (Video.rule_isLocal policy), hStops, hRefusal,
    Node.embed_annotate]
  cases tree.firstRefusal? Video.isVideo (Video.refusal? policy) [] <;> rfl

/-- The standard rules build a pipeline in either order, and on every tree both pipelines come to
the same end: the same tree, or the same error of the rule for videos. -/
theorem standard_rules_swap (hCallout : CalloutRule.ofConfig callouts = .ok callout)
    (policy : VideoPolicy) (gfm rawHtml : Bool) :
    ∃ pipeline reversed,
      build [{ rule := Video.rule policy }, { rule := callout.toRule }] gfm rawHtml = .ok pipeline ∧
      build [{ rule := callout.toRule }, { rule := Video.rule policy }] gfm rawHtml = .ok reversed ∧
      ∀ tree : Node,
        (∃ made, (pipeline.rewrite tree).outcome = .ok made ∧
          (reversed.rewrite tree).outcome = .ok made) ∨
        ∃ error, (pipeline.rewrite tree).outcome = .error (.rewrite (text "video") error) ∧
          (reversed.rewrite tree).outcome = .error (.rewrite (text "video") error) := by
  have hDisjoint := Video.not_selects_of_callout policy callout
  refine ⟨_, _, build_pair_eq_ok_iff.2 ⟨hDisjoint, rfl⟩,
    build_pair_eq_ok_iff.2 ⟨Rule.disjoint_symm hDisjoint, rfl⟩, ?_⟩
  intro tree
  rw [rewrite_outcome hCallout, rewrite_outcome_callouts_first hCallout]
  cases tree.firstRefusal? Video.isVideo (Video.refusal? policy) [] with
  | some error => exact .inr ⟨error, rfl, rfl⟩
  | none => exact .inl ⟨_, rfl, rfl⟩

/-- A video without a type inside a callout: the strict policy ends both orders with one error. -/
theorem standard_rules_swap_nested :
    ∃ callout pipeline reversed, CalloutRule.ofConfig .standard = .ok callout ∧
      build [{ rule := Video.rule .strict }, { rule := callout.toRule }] true true = .ok pipeline ∧
      build [{ rule := callout.toRule }, { rule := Video.rule .strict }] true true = .ok reversed ∧
      (pipeline.rewrite
        { kind := .containerDirective, name := some (text "tip")
          children := [{ kind := .leafDirective, name := some (text "video") }] }).outcome =
        .error (.rewrite (text "video") .missingVideoType) ∧
      (reversed.rewrite
        { kind := .containerDirective, name := some (text "tip")
          children := [{ kind := .leafDirective, name := some (text "video") }] }).outcome =
        .error (.rewrite (text "video") .missingVideoType) := by
  have hCallout : ∃ callout, CalloutRule.ofConfig .standard = .ok callout := ⟨_, rfl⟩
  obtain ⟨callout, hOk⟩ := hCallout
  obtain ⟨pipeline, reversed, hPipeline, hReversed, hSame⟩ :=
    standard_rules_swap hOk .strict true true
  have hFails : (pipeline.rewrite
      { kind := .containerDirective, name := some (text "tip")
        children := [{ kind := .leafDirective, name := some (text "video") }] }).outcome =
      .error (.rewrite (text "video") .missingVideoType) := by
    obtain ⟨-, hRules⟩ := build_pair_eq_ok_iff.1 hPipeline
    rw [hRules]
    exact rewrite_outcome hOk .strict true true _
  obtain ⟨made, hMade, -⟩ | ⟨error, hError, hOther⟩ := hSame
    { kind := .containerDirective, name := some (text "tip")
      children := [{ kind := .leafDirective, name := some (text "video") }] }
  · rw [hFails] at hMade
    cases hMade
  · rw [hFails] at hError
    cases hError
    exact ⟨callout, pipeline, reversed, hOk, hPipeline, hReversed, hFails, hOther⟩

end Pipeline

end DirectiveMarkdown
