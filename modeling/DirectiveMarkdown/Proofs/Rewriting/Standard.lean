import DirectiveMarkdown.Proofs.Rewriting.Reshape
import DirectiveMarkdown.Proofs.TextMap

/-! The standard pipeline against one recursion over the tree. Videos and callouts are rewritten in
two passes, but a video becomes raw HTML without children, and a callout keeps all but its metadata,
so both passes together are one recursion that looks at every node once. -/
namespace DirectiveMarkdown

namespace Video

def isVideo (node : Node) : Bool := node.isDirective .leafDirective (text "video")

/-- The raw HTML that a video becomes: nothing if its source is not supported. -/
def embedding? (node : Node) : Option Node :=
  if isVideo node then some (.ofHtml ((ofNode node).fragment?.getD [])) else none

/-- The error with which a policy ends at a video. -/
def refusal? (policy : VideoPolicy) (node : Node) : Option RewriteError :=
  if isVideo node then
    match policy, (ofNode node).source with
    | .strict, .unspecified => some .missingVideoType
    | .strict, .unknown type => some (.unknownVideoType type)
    | _, _ => none
  else none

theorem refusal?_of_not_isVideo (policy : VideoPolicy) {node : Node} (h : isVideo node = false) :
    refusal? policy node = none := by
  simp [refusal?, h]

/-- Exactly the videos become raw HTML, if only empty. -/
theorem isSome_embedding? (node : Node) : (embedding? node).isSome = isVideo node := by
  cases h : isVideo node <;> simp [embedding?, h]

theorem rule_selection (policy : VideoPolicy) : (rule policy).selection = [selector] := rfl

theorem rule_rewrite (policy : VideoPolicy) (position : Position) (node : Node) :
    (rule policy).rewrite position node = rewrite policy node := rfl

theorem rule_selects (policy : VideoPolicy) (node : Node) :
    (rule policy).selection.selects node = isVideo node := by
  simp only [rule_selection, SelectionSet.selects, Selector.selects, selector, isVideo, Node.isDirective,
    NodeKind.isDirective, List.any_cons, List.any_nil, Option.isNone_some, Bool.false_or,
    Bool.or_false, Bool.true_and]

/-- The rule for videos looks at nothing but the fields of a node. -/
theorem rule_isLocal (policy : VideoPolicy) : (rule policy).IsLocal := by
  intro position position' node children
  rfl

/-- A video is refused or replaced by its markup. -/
theorem answer_of_isVideo (policy : VideoPolicy) {node : Node} (h : isVideo node = true) :
    (rule policy).answer node =
      (refusal? policy node).elim (.ok (.replace (.ofHtml ((ofNode node).fragment?.getD [])))) .error := by
  rw [Rule.answer_of_selects ((rule_selects policy node).trans h), rule_rewrite]
  have hVideo : node.isDirective .leafDirective (text "video") = true := h
  simp only [rewrite, refusal?, isVideo, hVideo, if_true, fragment?]
  cases (ofNode node).source <;> cases policy <;> rfl

theorem answer_of_not_isVideo (policy : VideoPolicy) {node : Node} (h : isVideo node = false) :
    (rule policy).answer node = .ok .keep :=
  Rule.answer_of_not_selects ((rule_selects policy node).trans h)

/-- The video rule refuses, replaces or keeps a node as its kind and attributes say. -/
theorem rule_reshapes (policy : VideoPolicy) :
    (rule policy).Reshapes (refusal? policy) embedding? Node.metadata where
  refuse := by
    intro node error h
    have hVideo : isVideo node = true := by
      unfold refusal? at h
      split at h
      · assumption
      · cases h
    rw [answer_of_isVideo policy hVideo, h]
    rfl
  replace := by
    intro node replacement hRefusal hReplacement
    have hVideo : isVideo node = true := by rw [← isSome_embedding?, hReplacement, Option.isSome_some]
    rw [embedding?, if_pos hVideo] at hReplacement
    rw [answer_of_isVideo policy hVideo, hRefusal, ← Option.some.inj hReplacement]
    rfl
  keep := by
    intro node _ hReplacement
    have hVideo : isVideo node = false := by rw [← isSome_embedding?, hReplacement, Option.isSome_none]
    refine ⟨.keep, answer_of_not_isVideo policy hVideo, ?_⟩
    cases node
    rfl
  childless := by
    intro node replacement h
    unfold embedding? at h
    split at h
    · rw [← Option.some.inj h]
      rfl
    · cases h

end Video

namespace CalloutConfig

/-- The metadata of a callout: the configured element with the title and the name of its category.
Only containers whose name is a category are callouts. -/
def metadata? (config : CalloutConfig) (node : Node) : Option Metadata :=
  match node.kind, node.name with
  | .containerDirective, some category =>
    if category ∈ config.categories then
      (config.titles.get? category).map fun title =>
        { targetElement := config.element
          targetProperties := .ofList [(text "header", title), (text "variant", category)] }
    else none
  | _, _ => none

/-- The metadata of a node after the rule for callouts: that of a callout, or its own. -/
def metadataAfter? (config : CalloutConfig) (node : Node) : Option Metadata :=
  (config.metadata? node).or node.metadata

/-- A node that has the metadata of the rule keeps it. -/
theorem metadataAfter?_idem (config : CalloutConfig) {a : Node} (b : Node) (hKind : a.kind = b.kind)
    (hName : a.name = b.name) (hMetadata : a.metadata = config.metadataAfter? b) :
    config.metadataAfter? a = a.metadata := by
  have hOwn : config.metadata? a = config.metadata? b := by simp only [metadata?, hKind, hName]
  rw [metadataAfter?, hOwn, hMetadata, metadataAfter?]
  cases config.metadata? b <;> rfl

end CalloutConfig

namespace CalloutRule

/-- The titles of a rule are those of the categories, and each category has one. -/
theorem titlesOf_get? {titles chosen made : TextMap} {categories : List Text}
    (h : categories.foldlM (fun chosen category =>
      match titles.get? category with
      | some title => Except.ok (chosen.insert category title)
      | none => Except.error (RuleError.missingTitle category)) chosen = .ok made)
    (category : Text) :
    made.get? category =
      if category ∈ categories then titles.get? category else chosen.get? category := by
  induction categories generalizing chosen with
  | nil =>
      rw [List.foldlM_nil] at h
      cases h
      simp
  | cons first rest ih =>
      rw [List.foldlM_cons] at h
      cases hTitle : titles.get? first with
      | none => simp [hTitle, bind, Except.bind] at h
      | some title =>
          simp only [hTitle, bind, Except.bind] at h
          rw [ih h, TextMap.get?_insert]
          by_cases hFirst : category = first
          · simp [hFirst, hTitle]
          · simp [hFirst]

/-- The title of a category is that of the configuration, and no other name has one. -/
theorem title?_of_ofConfig {config : CalloutConfig} {rule : CalloutRule}
    (h : ofConfig config = .ok rule) (category : Text) :
    rule.title? category =
      if category ∈ config.categories then config.titles.get? category else none := by
  unfold ofConfig at h
  split at h
  · cases hTitles : titlesOf config.titles config.categories with
    | error error => rw [hTitles] at h; cases h
    | ok titles =>
        rw [hTitles] at h
        cases h
        exact titlesOf_get? hTitles category
  · cases h

theorem element_of_ofConfig {config : CalloutConfig} {rule : CalloutRule}
    (h : ofConfig config = .ok rule) : rule.element = config.element := by
  unfold ofConfig at h
  split at h
  · cases hTitles : titlesOf config.titles config.categories with
    | error error => rw [hTitles] at h; cases h
    | ok titles =>
        rw [hTitles] at h
        cases h
        rfl
  · cases h

/-- The rule for callouts looks at nothing but the fields of a node. -/
theorem toRule_isLocal (rule : CalloutRule) : rule.toRule.IsLocal := by
  intro position position' node children
  rfl

theorem toRule_selection (rule : CalloutRule) : rule.toRule.selection = rule.selection := rfl

/-- The rule is offered every node that it annotates. -/
theorem selects_of_title? {rule : CalloutRule} {node : Node} {category title : Text}
    (hKind : node.kind = .containerDirective) (hName : node.name = some category)
    (hTitle : rule.title? category = some title) : rule.toRule.selection.selects node = true := by
  have hKey : category ∈ rule.titles.keys := by
    rw [TextMap.mem_keys_iff, ← title?, hTitle, Option.isSome_some]
  simp only [toRule_selection, selection, SelectionSet.selects, List.any_map, List.any_eq_true]
  exact ⟨category, hKey, by simp [Selector.selects, hKind, hName]⟩

theorem answer_toRule (rule : CalloutRule) (node : Node) :
    rule.toRule.answer node = .ok (rule.rewrite node) := by
  unfold Rule.answer
  split
  · rfl
  · next hNot =>
      congr 1
      unfold rewrite
      split
      · next hKind =>
          split
          · next category hName =>
              split
              · next title hTitle => exact absurd (selects_of_title? hKind hName hTitle) hNot
              · rfl
          · rfl
      · rfl

/-- The rule changes nothing but the metadata, and this only of callouts. -/
theorem apply_rewrite {config : CalloutConfig} {rule : CalloutRule}
    (h : ofConfig config = .ok rule) (node : Node) :
    (rule.rewrite node).apply node = { node with metadata := config.metadataAfter? node } := by
  cases node with
  | mk kind name attributes metadata children value =>
      by_cases hKind : kind = .containerDirective
      · subst hKind
        cases name with
        | none => rfl
        | some category =>
            simp only [rewrite, if_true, title?_of_ofConfig h, CalloutConfig.metadataAfter?,
              CalloutConfig.metadata?]
            by_cases hMem : category ∈ config.categories
            · simp only [if_pos hMem]
              cases config.titles.get? category with
              | none => rfl
              | some title =>
                  simp only [CalloutRule.metadata, element_of_ofConfig h]
                  rfl
            · simp only [if_neg hMem]
              rfl
      · have hOwn : config.metadata? ⟨kind, name, attributes, metadata, children, value⟩ = none := by
          unfold CalloutConfig.metadata?
          split
          · next hContainer _ => exact absurd hContainer hKind
          · rfl
        simp only [rewrite, hKind, if_false, CalloutConfig.metadataAfter?, hOwn, Option.none_or]
        rfl

/-- The rule for callouts refuses and replaces nothing. -/
theorem toRule_reshapes {config : CalloutConfig} {rule : CalloutRule}
    (h : ofConfig config = .ok rule) :
    rule.toRule.Reshapes (fun _ => none) (fun _ => none) config.metadataAfter? where
  refuse := by
    intro node error h
    cases h
  replace := by
    intro node replacement _ h
    cases h
  keep := by
    intro node _ _
    refine ⟨rule.rewrite node, rule.answer_toRule node, ?_⟩
    rw [apply_rewrite h]
  childless := by
    intro node replacement h
    cases h

end CalloutRule

namespace Node

/-- The rewritten form of a tree in one recursion: videos become the raw HTML that embeds them, and
callouts get the metadata of their category. All else is kept. -/
def standardForm (config : CalloutConfig) : Node → Node :=
  reshape Video.embedding? config.metadataAfter?

theorem standardForm_of_isVideo (config : CalloutConfig) {node : Node}
    (h : Video.isVideo node = true) :
    node.standardForm config = .ofHtml ((Video.ofNode node).fragment?.getD []) := by
  rw [standardForm, reshape_eq, Video.embedding?, if_pos h]
  rfl

/-- Any other node keeps its place, with rewritten children. -/
theorem standardForm_of_not_isVideo (config : CalloutConfig) {node : Node}
    (h : Video.isVideo node = false) :
    node.standardForm config =
      { node with metadata := config.metadataAfter? node
                  children := node.children.map (standardForm config) } := by
  rw [standardForm, reshape_eq, Video.embedding?, h]
  rfl

/-- Embedding the videos and then annotating the callouts of the result is the one recursion. -/
theorem annotate_embed (config : CalloutConfig) (node : Node) :
    (node.reshape Video.embedding? metadata).reshape (fun _ => none) config.metadataAfter? =
      node.standardForm config := by
  induction node using inductionOnChildren with
  | step node ih =>
      cases hVideo : Video.isVideo node with
      | true =>
          rw [standardForm_of_isVideo config hVideo, reshape_eq _ _ node, Video.embedding?,
            if_pos hVideo]
          rfl
      | false =>
          rw [standardForm_of_not_isVideo config hVideo, reshape_eq _ _ node, Video.embedding?,
            hVideo]
          simp only [Bool.false_eq_true, if_false, Option.getD_none]
          rw [reshape_eq, Option.getD_none, List.map_map]
          have hChildren : node.children.map (reshape (fun _ => none) config.metadataAfter? ∘
              reshape Video.embedding? metadata) = node.children.map (standardForm config) :=
            List.map_congr_left ih
          rw [hChildren]
          rfl

/-- No video is left, so the form of a form is the form. -/
theorem standardForm_idem (config : CalloutConfig) (node : Node) :
    (node.standardForm config).standardForm config = node.standardForm config := by
  induction node using inductionOnChildren with
  | step node ih =>
      cases hVideo : Video.isVideo node with
      | true =>
          rw [standardForm_of_isVideo config hVideo, standardForm_of_not_isVideo config rfl]
          rfl
      | false =>
          have hChildren : (node.children.map (standardForm config)).map (standardForm config) =
              node.children.map (standardForm config) := by
            rw [List.map_map]
            exact List.map_congr_left ih
          have hForm : Video.isVideo
              { node with metadata := config.metadataAfter? node
                          children := node.children.map (standardForm config) } = false := hVideo
          rw [standardForm_of_not_isVideo config hVideo, standardForm_of_not_isVideo config hForm,
            hChildren]
          congr 1
          exact config.metadataAfter?_idem node rfl rfl rfl

/-- The form of a tree holds nothing that a policy refuses. -/
theorem firstRefusal?_standardForm (policy : VideoPolicy) (config : CalloutConfig)
    (above : List Node) (node : Node) :
    (node.standardForm config).firstRefusal? Video.isVideo (Video.refusal? policy) above = none := by
  induction node using inductionOnChildren generalizing above with
  | step node ih =>
      cases hVideo : Video.isVideo node with
      | true =>
          rw [standardForm_of_isVideo config hVideo, firstRefusal?_eq]
          simp [ofHtml, Video.refusal?, Video.isVideo, isDirective]
      | false =>
          rw [standardForm_of_not_isVideo config hVideo, firstRefusal?_eq]
          have hForm : Video.isVideo
              { node with metadata := config.metadataAfter? node
                          children := node.children.map (standardForm config) } = false := hVideo
          have hChildren : ∀ above : List Node, (node.children.map (standardForm config)).findSome?
              (firstRefusal? Video.isVideo (Video.refusal? policy) above) = none := by
            intro above
            rw [List.findSome?_map, List.findSome?_eq_none_iff]
            exact fun child hChild => ih child hChild above
          rw [hChildren, Video.refusal?_of_not_isVideo policy hForm, ite_self]
          rfl

end Node

namespace Pipeline

variable {callouts : CalloutConfig} {callout : CalloutRule}

/-- Videos are leaves and callouts are containers, so the two rules never overlap. -/
theorem standard_eq (hCallout : CalloutRule.ofConfig callouts = .ok callout)
    (policy : VideoPolicy) (gfm rawHtml : Bool) :
    standard policy callouts gfm rawHtml =
      .ok { rules := [Video.rule policy, callout.toRule], gfm, rawHtml } := by
  have hOverlap : SelectionSet.overlap? [Video.selector] callout.toRule.selection = none := by
    have hNone : callout.toRule.selection.find? (fun s => Video.selector.overlaps s) = none := by
      rw [List.find?_eq_none]
      intro selector hMem
      obtain ⟨category, -, rfl⟩ := List.mem_map.1 hMem
      simp [Selector.overlaps, Video.selector]
    simp [SelectionSet.overlap?, hNone]
  have hWith : overlapWith? callout.toRule [Video.rule policy] = none := by
    rw [overlapWith?, Video.rule_selection, hOverlap]
    rfl
  simp [standard, hCallout, build, overlap?, overlapWith?, hWith]

/-- Both passes together: the strict policy ends at the first video that it refuses and that is not
inside another video, and else every node has its standard form. -/
theorem rewrite_outcome (hCallout : CalloutRule.ofConfig callouts = .ok callout)
    (policy : VideoPolicy) (gfm rawHtml : Bool) (tree : Node) :
    (rewrite { rules := [Video.rule policy, callout.toRule], gfm, rawHtml } tree).outcome =
      (tree.firstRefusal? Video.isVideo (Video.refusal? policy) []).elim
        (.ok (tree.standardForm callouts)) (.error ∘ .rewrite (text "video")) := by
  have hStops : (fun node => (Video.embedding? node).isSome) = Video.isVideo :=
    funext Video.isSome_embedding?
  unfold rewrite
  rw [applyRules_cons_outcome,
    (Video.rule_reshapes policy).applyRule_outcome (Video.rule_isLocal policy), hStops]
  cases tree.firstRefusal? Video.isVideo (Video.refusal? policy) [] with
  | some error => rfl
  | none =>
      rw [Option.elim_none, Except.bind, applyRules_cons_outcome,
        (CalloutRule.toRule_reshapes hCallout).applyRule_outcome callout.toRule_isLocal,
        Node.firstRefusal?_none, Option.elim_none, Node.annotate_embed]
      rfl

/-- The standard pipeline is one recursion over the tree, in either policy. The strict one fails
exactly at the first video in pre-order that it refuses, of those that are not inside another video.
What the pipeline has rewritten it leaves as it is. -/
theorem standard_rewrites_once (hCallout : CalloutRule.ofConfig callouts = .ok callout)
    (policy : VideoPolicy) (gfm rawHtml : Bool) :
    ∃ pipeline, standard policy callouts gfm rawHtml = .ok pipeline ∧
      ∀ tree : Node,
        (pipeline.rewrite tree).outcome =
          (match tree.firstRefusal? Video.isVideo (Video.refusal? policy) [] with
          | some error => .error (.rewrite (text "video") error)
          | none => .ok (tree.standardForm callouts)) ∧
        ∀ result, pipeline.rewrite tree = ⟨result, none⟩ →
          pipeline.rewrite result = ⟨result, none⟩ := by
  refine ⟨_, standard_eq hCallout policy gfm rawHtml, ?_⟩
  intro tree
  have hTree := rewrite_outcome hCallout policy gfm rawHtml tree
  constructor
  · rw [hTree]
    cases tree.firstRefusal? Video.isVideo (Video.refusal? policy) [] <;> rfl
  · intro result hResult
    rw [← Rewriting.outcome_eq_ok_iff, hTree] at hResult
    cases hRefusal : tree.firstRefusal? Video.isVideo (Video.refusal? policy) [] with
    | some error => rw [hRefusal] at hResult; cases hResult
    | none =>
        rw [hRefusal] at hResult
        have hForm : tree.standardForm callouts = result := Except.ok.inj hResult
        rw [← Rewriting.outcome_eq_ok_iff, rewrite_outcome hCallout, ← hForm,
          Node.firstRefusal?_standardForm, Node.standardForm_idem]
        rfl

/-- With the built-in callouts the strict policy ends at a video without a type, also inside a
callout. A callout with a local video is rewritten once and for all. -/
theorem standard_rewrites_once_builtIn :
    ∃ callout, CalloutRule.ofConfig .standard = .ok callout ∧
    ∃ pipeline, standard .strict .standard true true = .ok pipeline ∧
      (pipeline.rewrite
        { kind := .containerDirective, name := some (text "tip")
          children := [{ kind := .leafDirective, name := some (text "video") }] }).outcome =
        .error (.rewrite (text "video") .missingVideoType) ∧
      ∃ result, (pipeline.rewrite
        { kind := .containerDirective, name := some (text "tip")
          children := [{ kind := .leafDirective, name := some (text "video")
                         attributes := .ofList [(text "type", text "local")] }] }) =
          ⟨result, none⟩ ∧
        result.metadata.map Metadata.targetElement = some (text "doc-content-callout") ∧
        pipeline.rewrite result = ⟨result, none⟩ := by
  have hCallout : ∃ callout, CalloutRule.ofConfig .standard = .ok callout := ⟨_, rfl⟩
  obtain ⟨callout, hOk⟩ := hCallout
  obtain ⟨pipeline, hPipeline, hRewrite⟩ := standard_rewrites_once hOk .strict true true
  obtain ⟨hForm, hAgain⟩ := hRewrite
    { kind := .containerDirective, name := some (text "tip")
      children := [{ kind := .leafDirective, name := some (text "video")
                     attributes := .ofList [(text "type", text "local")] }] }
  have hMade := (Rewriting.outcome_eq_ok_iff _ _).1 hForm
  exact ⟨callout, hOk, pipeline, hPipeline, (hRewrite _).1, _, hMade, rfl, hAgain _ hMade⟩

end Pipeline

end DirectiveMarkdown
