import DirectiveMarkdown.Directive.Inline
import DirectiveMarkdown.Document.Fragment

/-! Directives in running text: text nodes are divided around the directives in them. -/
namespace DirectiveMarkdown

def textPiece (value : Text) : List Node := if value.isEmpty then [] else [.ofText value]

def directiveNode (label : Text → List Node) (body : DirectiveBody) : Node :=
  { kind := .textDirective
    name := some body.name
    attributes := body.arguments.toAttributes
    children := label body.arguments.label }

/-- The nodes for a text that follows the given character: directives, and the text between them. At
most `fuel` directives are found. -/
def splitTextUpTo (label : Text → List Node) : Nat → Option Char → Text → List Node
  | 0, _, s => textPiece s
  | fuel + 1, previous, s =>
    match InlineDirective.find? previous s with
    | none => textPiece s
    | some found =>
      textPiece found.before ++ directiveNode label found.body ::
        splitTextUpTo label fuel found.written.getLast? found.after

mutual

/-- The node with the directives in the text nodes below it expanded. `label` gives the content of a
label that stands in the given text. -/
def Node.expandWith (label : Text → Text → List Node) : Node → Node
  | ⟨kind, name, attributes, metadata, children, value⟩ =>
    ⟨kind, name, attributes, metadata, Node.expandAll label children, value⟩

/-- The same for sibling nodes, whose own text is divided as well. -/
def Node.expandAll (label : Text → Text → List Node) : List Node → List Node
  | [] => []
  | node :: rest =>
    (if node.kind = .text ∧ (InlineDirective.find? none node.value).isSome then
        splitTextUpTo (label node.value) node.value.length none node.value
      else [node.expandWith label]) ++ Node.expandAll label rest

end

/-- The inline content of a label with its own directives expanded, at most `fuel` labels deep. -/
def expandedLabel (gfm : Bool) : Nat → Text → List Node
  | 0, _ => []
  | fuel + 1, label => Node.expandAll (fun _ => expandedLabel gfm fuel) (inlineNodes gfm label)

/-- The tree with all directives in running text expanded. A label is shorter than the text that it
stands in, which bounds the depth of labels. -/
def Node.expandDirectives (gfm : Bool) (node : Node) : Node :=
  node.expandWith fun value => expandedLabel gfm value.length

def parseDocument (gfm : Bool) (source : Text) : Node :=
  { kind := .root, children := fragment gfm source : Node }.expandDirectives gfm

end DirectiveMarkdown
