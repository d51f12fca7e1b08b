import DirectiveMarkdown.Html.Node
import DirectiveMarkdown.Rule.Basic

/-! Callouts: containers of certain names become elements with a title. -/
namespace DirectiveMarkdown

/-- What callouts look like: the element that they become, the names of the containers that are
callouts, and the title of each. -/
structure CalloutConfig where
  element : Text
  categories : List Text
  titles : TextMap

namespace CalloutConfig

/-- The categories that are there from the start, with their titles. -/
def builtIn : List (Text × Text) :=
  [(text "note", text "Note"), (text "tip", text "Tip"), (text "warning", text "Warning"),
   (text "important", text "Important"), (text "caution", text "Caution")]

def builtInTitles : TextMap := TextMap.ofList builtIn

def standard : CalloutConfig :=
  { element := text "doc-content-callout"
    categories := builtIn.map Prod.fst
    titles := builtInTitles }

instance : Inhabited CalloutConfig := ⟨standard⟩

/-- One more category, or another title for one that is there. -/
def withCategory (config : CalloutConfig) (name title : Text) : CalloutConfig :=
  { config with
    titles := config.titles.insert name title
    categories :=
      if config.categories.contains name then config.categories else config.categories ++ [name] }

end CalloutConfig

/-- The rule for callouts, made from a configuration: its titles are those of the categories. -/
structure CalloutRule where
  element : Text
  titles : TextMap

namespace CalloutRule

/-- The titles of categories, unless one has none. -/
def titlesOf (titles : TextMap) (categories : List Text) : Except RuleError TextMap :=
  categories.foldlM (fun chosen category =>
    match titles.get? category with
    | some title => .ok (chosen.insert category title)
    | none => .error (.missingTitle category)) ∅

def ofConfig (config : CalloutConfig) : Except RuleError CalloutRule :=
  if isTagName config.element then
    (titlesOf config.titles config.categories).map fun titles => ⟨config.element, titles⟩
  else .error (.invalidElement config.element)

def title? (rule : CalloutRule) (category : Text) : Option Text := rule.titles.get? category

def metadata (rule : CalloutRule) (category title : Text) : Metadata :=
  { targetElement := rule.element
    targetProperties := (TextMap.insert ∅ (text "header") title).insert (text "variant") category }

/-- The nodes that are callouts, in the order of their names. -/
def selection (rule : CalloutRule) : SelectionSet :=
  rule.titles.keys.map fun category => ⟨.containerDirective, some category⟩

/-- A callout is annotated. All else is kept. -/
def rewrite (rule : CalloutRule) (node : Node) : Action :=
  if node.kind = .containerDirective then
    match node.name with
    | some category =>
      match rule.title? category with
      | some title => .annotate (rule.metadata category title)
      | none => .keep
    | none => .keep
  else .keep

def toRule (rule : CalloutRule) : Rule :=
  { name := text "callout"
    selection := rule.selection
    rewrite := fun _ node => .ok (rule.rewrite node) }

end CalloutRule

end DirectiveMarkdown
