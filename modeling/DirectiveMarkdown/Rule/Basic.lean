import DirectiveMarkdown.Selector
import DirectiveMarkdown.Traversal

/-! Rewrite rules. A rule is offered the nodes that it selects and answers each with an action. -/
namespace DirectiveMarkdown

/-- Why a rule cannot be made from its configuration. -/
inductive RuleError where
  | missingTitle (category : Text)
  | invalidElement (element : Text)
deriving DecidableEq

def RuleError.message : RuleError → Text
  | .missingTitle category => text "Callout category '" ++ category ++ text "' has no display title"
  | .invalidElement element => text "Invalid callout element name: '" ++ element ++ ['\'']

inductive RewriteError where
  | missingVideoType
  | unknownVideoType (type : Text)
  | invalid (message : Text)
deriving DecidableEq

def RewriteError.message : RewriteError → Text
  | .missingVideoType => text "Video directive has no type (expected 'youtube' or 'local')"
  | .unknownVideoType type =>
    text "Unknown video type '" ++ type ++ text "' (expected 'youtube' or 'local')"
  | .invalid message => message

/-- A rule: its name, the nodes that it is offered, and its answer to each. -/
structure Rule where
  name : Text
  selection : SelectionSet
  rewrite : Position → Node → Except RewriteError Action

/-- The rule as a visitor, which keeps the nodes that the rule does not select. -/
def Rule.visitor (rule : Rule) : Visitor Unit RewriteError :=
  fun position node state =>
    if rule.selection.selects node then (rule.rewrite position node, state)
    else (.ok .keep, state)

end DirectiveMarkdown
