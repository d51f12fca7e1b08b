import DirectiveMarkdown.Config.Reading
import DirectiveMarkdown.Proofs.Rewriting.Standard

/-! From the text of a configuration to its pipeline. What is checked when the text is read is all
that the rule for callouts and the pipeline ask for, so a configuration that was read can always be
built, under any overrides. -/
namespace DirectiveMarkdown

namespace TextMap

/-- Entries complete a map, the first of each key. -/
theorem get?_foldl_complete (m : TextMap) (entries : List (Text × Text)) (key : Text) :
    (entries.foldl (fun m (key, value) => if m.contains key then m else m.insert key value) m).get?
      key = (m.get? key).or (entries.lookup key) := by
  induction entries generalizing m with
  | nil => simp
  | cons head rest ih =>
      obtain ⟨headKey, headValue⟩ := head
      simp only [List.foldl_cons, ih, List.lookup_cons]
      by_cases hKey : key = headKey
      · subst hKey
        cases hValue : m.get? key with
        | none => simp [contains, hValue, get?_insert]
        | some value => simp [contains, hValue]
      · have hOther : (key == headKey) = false := by simpa using hKey
        split <;> simp [hOther, get?_insert, hKey]

/-- A map goes before the defaults that complete it. -/
theorem get?_orElse (m defaults : TextMap) (key : Text) :
    (m.orElse defaults).get? key = (m.get? key).or (defaults.get? key) :=
  get?_foldl_complete m defaults.entries key

end TextMap

namespace CalloutRule

/-- Titles for all of the categories can be chosen. -/
theorem exists_titlesOf {titles : TextMap} {categories : List Text}
    (hTitled : ∀ category ∈ categories, titles.contains category = true) (chosen : TextMap) :
    ∃ made, categories.foldlM (fun chosen category =>
      match titles.get? category with
      | some title => Except.ok (chosen.insert category title)
      | none => Except.error (RuleError.missingTitle category)) chosen = .ok made := by
  induction categories generalizing chosen with
  | nil => exact ⟨chosen, rfl⟩
  | cons first rest ih =>
      obtain ⟨title, hTitle⟩ := Option.isSome_iff_exists.1 (hTitled first (List.mem_cons_self ..))
      obtain ⟨made, hMade⟩ := ih (fun category hMem => hTitled category (List.mem_cons_of_mem _ hMem))
        (chosen.insert first title)
      refine ⟨made, ?_⟩
      rw [List.foldlM_cons]
      simpa only [hTitle, bind, Except.bind] using hMade

/-- Callouts with a proper element and a title for each category make a rule. -/
theorem exists_ofConfig {callouts : CalloutConfig} (hElement : isTagName callouts.element = true)
    (hTitled : ∀ category ∈ callouts.categories, callouts.titles.contains category = true) :
    ∃ rule, ofConfig callouts = .ok rule := by
  obtain ⟨titles, hMade⟩ := exists_titlesOf hTitled ∅
  have hTitles : titlesOf callouts.titles callouts.categories = .ok titles := hMade
  refine ⟨⟨callouts.element, titles⟩, ?_⟩
  rw [ofConfig, if_pos hElement, hTitles]
  rfl

end CalloutRule

namespace Config

open Toml (Value)

section Problems

variable {titles : TextMap} {earlier categories : List Text}

/-- Categories without a problem have titles. -/
theorem contains_of_categoryProblem? (hNone : categoryProblem? titles earlier categories = none) :
    ∀ category ∈ categories, titles.contains category = true := by
  induction categories generalizing earlier with
  | nil => exact List.forall_mem_nil _
  | cons first rest ih =>
      unfold categoryProblem? at hNone
      split at hNone
      · cases hNone
      · split at hNone
        · cases hNone
        · split at hNone
          · cases hNone
          · next hTitle => exact List.forall_mem_cons.2 ⟨by simpa using hTitle, ih hNone⟩

variable {config : Config}

/-- A configuration without a problem has a usable element and titles for its categories. -/
theorem isTagName_and_contains_of_problem? (hNone : config.problem? = none) :
    isTagName config.callouts.element = true ∧
      ∀ category ∈ config.callouts.categories, config.callouts.titles.contains category = true := by
  unfold problem? at hNone
  split at hNone
  · next hElement => exact ⟨hElement, contains_of_categoryProblem? hNone⟩
  · cases hNone

end Problems

/-- What a value holds under a key, or in its place where the value is an array. -/
def valueAt? (place : Nat) (key : Text) : Value → Option Value
  | .table _ entries => entries.lookup key
  | .array items | .tables items => items[place]?
  | _ => none

/-- What a document says about each setting: nothing where it is silent. -/
structure Stated where
  element : Option Text
  categories : Option (List Text)
  titles : Option TextMap
  video : Option VideoPolicy
  gfm : Option Bool
  rawHtml : Option Bool

def stated (document : Value) : Stated :=
  let callouts := valueAt? 0 (text "callouts") document
  let video := valueAt? 1 (text "video") document
  let render := valueAt? 2 (text "render") document
  { element := (callouts.bind (valueAt? 0 (text "element"))).bind readText?
    categories := (callouts.bind (valueAt? 1 (text "categories"))).bind readTexts?
    titles := (callouts.bind (valueAt? 2 (text "titles"))).bind readTextMap?
    video := (video.bind (valueAt? 0 (text "policy"))).bind readPolicy?
    gfm := (render.bind (valueAt? 0 (text "gfm"))).bind readFlag?
    rawHtml := (render.bind (valueAt? 1 (text "allow_raw_html"))).bind readFlag? }

/-- The configuration with these settings, and the defaults for those that are not stated. -/
def described (document : Value) : Config :=
  { callouts :=
      { element := (stated document).element.getD CalloutConfig.standard.element
        categories := (stated document).categories.getD CalloutConfig.standard.categories
        titles := (stated document).titles.getD CalloutConfig.standard.titles }
    video := (stated document).video.getD .lenient
    gfm := (stated document).gfm.getD true
    rawHtml := (stated document).rawHtml.getD true }

section Reading

variable {keys : List Text} {value : Value} {found : List (Option Value)}

/-- Every setting is found by its key or place. -/
theorem settings?_eq (hFound : settings? keys value = some found) :
    found = keys.zipIdx.map fun (key, place) => valueAt? place key value := by
  cases value with
  | table origin entries =>
      simp only [settings?] at hFound
      split at hFound
      · cases hFound
        exact List.ext_getElem (by simp) fun place _ _ => by simp [valueAt?]
      · cases hFound
  | array items | tables items | dateTime spelling =>
      cases hFound
      exact List.ext_getElem (by simp) fun place _ _ => by simp [valueAt?]
  | _ => cases hFound

variable {α : Type} {default result : α} {read : Value → Option α} {setting : Option Value}

/-- A setting has the default where there is no value for it. -/
theorem setting?_eq (hSetting : setting? default read setting = some result) :
    result = (setting.bind read).getD default := by
  cases setting with
  | none => exact (Option.some.inj hSetting).symm
  | some value => rw [Option.bind_some, show read value = some result from hSetting]; rfl

/-- The settings of callouts, one by one. A section that is not there has their defaults. -/
theorem readCallouts?_eq {callouts : CalloutConfig}
    (hRead : setting? .standard readCallouts? setting = some callouts) :
    callouts =
      { element := ((setting.bind (valueAt? 0 (text "element"))).bind readText?).getD
          CalloutConfig.standard.element
        categories := ((setting.bind (valueAt? 1 (text "categories"))).bind readTexts?).getD
          CalloutConfig.standard.categories
        titles := ((setting.bind (valueAt? 2 (text "titles"))).bind readTextMap?).getD
          CalloutConfig.standard.titles } := by
  cases setting with
  | none => exact (Option.some.inj hRead).symm
  | some settings =>
      obtain ⟨found, hFound, hRead⟩ := Option.bind_eq_some_iff.1 hRead
      rw [settings?_eq hFound] at hRead
      obtain ⟨element, hElement, hRead⟩ := Option.bind_eq_some_iff.1 hRead
      obtain ⟨categories, hCategories, hRead⟩ := Option.bind_eq_some_iff.1 hRead
      obtain ⟨titles, hTitles, hRead⟩ := Option.bind_eq_some_iff.1 hRead
      rw [← Option.some.inj hRead, setting?_eq hElement, setting?_eq hCategories,
        setting?_eq hTitles]
      rfl

/-- The policy that is read is the stated one, or the lenient one if none is stated. -/
theorem readVideo?_eq {policy : VideoPolicy}
    (hRead : setting? .lenient readVideo? setting = some policy) :
    policy = ((setting.bind (valueAt? 0 (text "policy"))).bind readPolicy?).getD .lenient := by
  cases setting with
  | none => exact (Option.some.inj hRead).symm
  | some settings =>
      obtain ⟨found, hFound, hRead⟩ := Option.bind_eq_some_iff.1 hRead
      rw [settings?_eq hFound] at hRead
      exact setting?_eq hRead

theorem readRender?_eq {flags : Bool × Bool}
    (hRead : setting? (true, true) readRender? setting = some flags) :
    flags = (((setting.bind (valueAt? 0 (text "gfm"))).bind readFlag?).getD true,
      ((setting.bind (valueAt? 1 (text "allow_raw_html"))).bind readFlag?).getD true) := by
  cases setting with
  | none => exact (Option.some.inj hRead).symm
  | some settings =>
      obtain ⟨found, hFound, hRead⟩ := Option.bind_eq_some_iff.1 hRead
      rw [settings?_eq hFound] at hRead
      obtain ⟨gfm, hGfm, hRead⟩ := Option.bind_eq_some_iff.1 hRead
      obtain ⟨rawHtml, hRawHtml, hRead⟩ := Option.bind_eq_some_iff.1 hRead
      rw [← Option.some.inj hRead, setting?_eq hGfm, setting?_eq hRawHtml]
      rfl

/-- A document gives every setting what it states, or else the default. -/
theorem ofToml?_eq {document : Value} {config : Config} (hRead : ofToml? document = some config) :
    config = described document := by
  obtain ⟨found, hFound, hRead⟩ := Option.bind_eq_some_iff.1 hRead
  rw [settings?_eq hFound] at hRead
  obtain ⟨callouts, hCallouts, hRead⟩ := Option.bind_eq_some_iff.1 hRead
  obtain ⟨video, hVideo, hRead⟩ := Option.bind_eq_some_iff.1 hRead
  obtain ⟨⟨gfm, rawHtml⟩, hRender, hRead⟩ := Option.bind_eq_some_iff.1 hRead
  obtain ⟨hGfm, hRawHtml⟩ := Prod.mk.inj (readRender?_eq hRender)
  rw [← Option.some.inj hRead, readCallouts?_eq hCallouts, readVideo?_eq hVideo, hGfm, hRawHtml]
  rfl

end Reading

/-- The configuration of a text has no problems, and all that it lacks is completed. -/
theorem read_eq_ok {s : Text} {config : Config} (hRead : read s = .ok config) :
    ∃ document given, Toml.read? s = some document ∧ ofToml? document = some given ∧
      config = given.completed ∧ config.problem? = none := by
  unfold read at hRead
  split at hRead
  · cases hRead
  · next given hGiven =>
      split at hRead
      · cases hRead
      · next hNone =>
          cases hRead
          obtain ⟨document, hDocument, hGiven⟩ := Option.bind_eq_some_iff.1 hGiven
          exact ⟨document, given, hDocument, hGiven, rfl, hNone⟩

section Building

variable {s : Text} {config : Config}

def policyUnder (overrides : Overrides) (document : Value) : VideoPolicy :=
  match overrides.strictVideo with
  | some strict => if strict then .strict else .lenient
  | none => (stated document).video.getD .lenient

def listed (document : Value) : List Text :=
  (stated document).categories.getD (CalloutConfig.builtIn.map Prod.fst)

/-- The title of a category in a document, or else the built-in one. -/
def statedTitle? (document : Value) (category : Text) : Option Text :=
  ((stated document).titles.bind (·.get? category)).or (CalloutConfig.builtInTitles.get? category)

/-- Without titles of its own a document has the built-in ones. -/
theorem get?_titles_described (document : Value) (category : Text) :
    (described document).completed.callouts.titles.get? category =
      statedTitle? document category := by
  change (((stated document).titles.getD CalloutConfig.standard.titles).orElse
    CalloutConfig.builtInTitles).get? category = _
  rw [TextMap.get?_orElse, statedTitle?]
  cases (stated document).titles with
  | none => exact Option.or_self
  | some titles => rfl

/-- Overrides stand above the settings of a document. -/
theorem override_described (document : Value) (overrides : Overrides) :
    (described document).completed.override overrides =
      { (described document).completed with
        video := policyUnder overrides document
        gfm := (overrides.gfm.or (stated document).gfm).getD true } := by
  obtain ⟨strictVideo, gfm⟩ := overrides
  have hPolicy : ((described document).completed.override ⟨strictVideo, gfm⟩).video =
      policyUnder ⟨strictVideo, gfm⟩ document := by
    rcases strictVideo with _ | _ | _ <;> rfl
  have hFlag : ((described document).completed.override ⟨strictVideo, gfm⟩).gfm =
      (gfm.or (stated document).gfm).getD true := by
    cases gfm <;> rfl
  rw [← hPolicy, ← hFlag]
  rfl

/-- A configuration that was read has a pipeline under any overrides, of the rule for videos and a
rule for callouts. The policy and the Markdown extensions are those of the overrides, or else those
of the text, or else the standard ones, and nothing else depends on the overrides. The callouts have
the titles of the text for the categories that it lists, or else the built-in titles, and no other
name has a title. -/
theorem pipeline_of_read (hRead : read s = .ok config) :
    ∃ (document : Value) (callout : CalloutRule), Toml.read? s = some document ∧
      (∀ overrides : Overrides, ∃ gfm : Bool,
        gfm = (overrides.gfm.or (stated document).gfm).getD true ∧
        config.override overrides = { config with video := policyUnder overrides document, gfm } ∧
        (config.override overrides).pipeline = .ok
          { rules := [Video.rule (policyUnder overrides document), callout.toRule]
            gfm
            rawHtml := (stated document).rawHtml.getD true }) ∧
      callout.element = (stated document).element.getD (text "doc-content-callout") ∧
      (∀ category ∈ listed document, (callout.title? category).isSome = true) ∧
      ∀ category, callout.title? category =
        if category ∈ listed document then statedTitle? document category else none := by
  obtain ⟨document, given, hDocument, hGiven, rfl, hNone⟩ := read_eq_ok hRead
  obtain ⟨hElement, hTitled⟩ := isTagName_and_contains_of_problem? hNone
  obtain ⟨callout, hCallout⟩ := CalloutRule.exists_ofConfig hElement hTitled
  obtain rfl := ofToml?_eq hGiven
  have hTitle (category : Text) : callout.title? category =
      if category ∈ listed document then statedTitle? document category else none := by
    rw [← get?_titles_described]
    exact CalloutRule.title?_of_ofConfig hCallout category
  refine ⟨document, callout, hDocument, ?_, CalloutRule.element_of_ofConfig hCallout, ?_, hTitle⟩
  · intro overrides
    refine ⟨_, rfl, override_described document overrides, ?_⟩
    rw [override_described]
    exact Pipeline.standard_eq hCallout _ _ _
  · intro category hListed
    rw [hTitle, if_pos hListed, ← get?_titles_described]
    exact hTitled category hListed

def ownCategory : Text :=
  text "render = \x7b gfm = false \x7d
[callouts]
categories = [\"note\", \"danger\"]
titles = \x7b danger = \"Danger\" \x7d"

/-- The overrides change both settings, and the categories have titles from either side. -/
theorem pipeline_of_read_ownCategory :
    ∃ (config : Config) (callout : CalloutRule), read ownCategory = .ok config ∧
      (config.override ⟨some true, some true⟩).pipeline =
        .ok { rules := [Video.rule .strict, callout.toRule], gfm := true, rawHtml := true } ∧
      callout.title? (text "note") = some (text "Note") ∧
      callout.title? (text "danger") = some (text "Danger") ∧
      callout.title? (text "tip") = none := by
  obtain ⟨config, hRead⟩ : ∃ config, read ownCategory = .ok config := by
    have hOk : (read ownCategory).isOk = true := by decide +kernel
    cases hRead : read ownCategory with
    | error error => rw [hRead] at hOk; cases hOk
    | ok config => exact ⟨config, rfl⟩
  obtain ⟨document, callout, hDocument, hBuilt, -, -, hTitle⟩ := pipeline_of_read hRead
  have hStated : (Toml.read? ownCategory).map (fun document =>
      ((stated document).rawHtml, listed document,
        [text "note", text "danger"].map (statedTitle? document))) =
      some (none, [text "note", text "danger"], [some (text "Note"), some (text "Danger")]) := by
    decide +kernel
  rw [hDocument] at hStated
  obtain ⟨hRawHtml, hStated⟩ := Prod.mk.inj (Option.some.inj hStated)
  obtain ⟨hListed, hTitles⟩ := Prod.mk.inj hStated
  obtain ⟨hNote, hTitles⟩ := List.cons.inj hTitles
  obtain ⟨hDanger, -⟩ := List.cons.inj hTitles
  obtain ⟨gfm, rfl, -, hPipeline⟩ := hBuilt ⟨some true, some true⟩
  rw [hRawHtml] at hPipeline
  refine ⟨config, callout, hRead, hPipeline, ?_, ?_, ?_⟩
  · rw [hTitle, hListed, if_pos (by decide), hNote]
  · rw [hTitle, hListed, if_pos (by decide), hDanger]
  · rw [hTitle, hListed, if_neg (by decide)]

end Building

end Config

end DirectiveMarkdown
