import DirectiveMarkdown.Document.Expansion
import DirectiveMarkdown.Html.Conversion
import DirectiveMarkdown.Rule.Callout
import DirectiveMarkdown.Rule.Video

/-! The way from a source to HTML: the source is parsed, the rules rewrite the tree one after the
other, and the tree becomes HTML. -/
namespace DirectiveMarkdown

inductive PipelineError where
  | rule (error : RuleError)
  | overlappingRules (first second : Text) (selector : Selector)

def PipelineError.message : PipelineError → Text
  | .rule error => error.message
  | .overlappingRules first second selector =>
    text "Rules '" ++ first ++ text "' and '" ++ second ++ text "' both select " ++
      selector.describe

/-- Why a document cannot be rendered: a rule failed, or it went on adding levels to the tree. -/
inductive RenderError where
  | rewrite (rule : Text) (source : RewriteError)
  | endless (rule : Text)

def RenderError.message : RenderError → Text
  | .rewrite rule source => text "Rule '" ++ rule ++ text "' failed: " ++ source.message
  | .endless rule => text "Rule '" ++ rule ++ text "' does not end"

/-- A rule as it is registered. An `ordered` rule is meant to see what earlier rules made. -/
structure RegisteredRule where
  rule : Rule
  ordered : Bool := false

/-- A pipeline. `gfm` turns the Markdown extensions on, and `rawHtml` lets raw HTML through.
`allowance` bounds the levels that a rule may add to a tree. -/
structure Pipeline where
  rules : List Rule
  gfm : Bool := true
  rawHtml : Bool := true
  allowance : Nat := 10000

structure Stages where
  source : Node
  rewritten : Node
  target : HtmlNode
  html : Text

/-- A tree after the rules, and the error that ended them, if one did. -/
structure Rewriting where
  tree : Node
  error : Option RenderError

namespace Pipeline

/-- The first of the earlier rules that selects a node which the rule selects as well. -/
def overlapWith? (later : Rule) : List Rule → Option PipelineError
  | [] => none
  | earlier :: rest =>
    match SelectionSet.overlap? earlier.selection later.selection with
    | some (selector, _) => some (.overlappingRules earlier.name later.name selector)
    | none => overlapWith? later rest

/-- The first overlap of a rule with one before it, where the rule is not ordered. `earlier` are the
rules before. -/
def overlap? (earlier : List Rule) : List RegisteredRule → Option PipelineError
  | [] => none
  | later :: rest =>
    match if later.ordered then none else overlapWith? later.rule earlier with
    | some error => some error
    | none => overlap? (earlier ++ [later.rule]) rest

/-- A pipeline of rules that do not overlap, ordered ones apart. -/
def build (rules : List RegisteredRule) (gfm rawHtml : Bool) : Except PipelineError Pipeline :=
  match overlap? [] rules with
  | some error => .error error
  | none => .ok { rules := rules.map RegisteredRule.rule, gfm, rawHtml }

def standard (video : VideoPolicy) (callouts : CalloutConfig) (gfm rawHtml : Bool) :
    Except PipelineError Pipeline :=
  match CalloutRule.ofConfig callouts with
  | .error error => .error (.rule error)
  | .ok callout => build [{ rule := Video.rule video }, { rule := callout.toRule }] gfm rawHtml

/-- One rule's pass over a tree. -/
def applyRule (allowance : Nat) (rule : Rule) (tree : Node) : Rewriting :=
  match rule.visitor.traverse? (tree.depth + allowance) tree () with
  | none => ⟨tree, some (.endless rule.name)⟩
  | some pass => ⟨pass.result, pass.error.map (.rewrite rule.name)⟩

/-- The passes of several rules, up to the first that fails. -/
def applyRules (allowance : Nat) : List Rule → Node → Rewriting
  | [], tree => ⟨tree, none⟩
  | rule :: rest, tree =>
    match applyRule allowance rule tree with
    | ⟨tree, none⟩ => applyRules allowance rest tree
    | failed => failed

def rewrite (pipeline : Pipeline) (tree : Node) : Rewriting :=
  applyRules pipeline.allowance pipeline.rules tree

def parse (pipeline : Pipeline) (source : Text) : Node := parseDocument pipeline.gfm source

def convert (pipeline : Pipeline) (tree : Node) : HtmlNode := tree.toHtml pipeline.rawHtml

def stages (pipeline : Pipeline) (source : Text) : Except RenderError Stages :=
  let parsed := pipeline.parse source
  match pipeline.rewrite parsed with
  | ⟨_, some error⟩ => .error error
  | ⟨rewritten, none⟩ =>
    let target := pipeline.convert rewritten
    .ok { source := parsed, rewritten, target, html := target.write }

def render (pipeline : Pipeline) (source : Text) : Except RenderError Text :=
  (pipeline.stages source).map Stages.html

end Pipeline

end DirectiveMarkdown
