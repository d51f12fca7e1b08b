import DirectiveMarkdown.Section
import DirectiveMarkdown.Document.Container

/-! The nodes of a source with block directives. -/
namespace DirectiveMarkdown

def leafNode (label : Text → List Node) (directive : DirectiveBody) : Node :=
  { kind := .leafDirective
    name := some directive.name
    attributes := directive.arguments.toAttributes
    children := label directive.arguments.label }

/-- The node of a container directive. Its label is an attribute. -/
def containerNode (directive : DirectiveBody) (children : List Node) : Node :=
  let node : Node :=
    { kind := .containerDirective
      name := some directive.name
      attributes := directive.arguments.toAttributes
      children }
  if directive.arguments.label.isEmpty then node
  else node.withAttribute (text "label") directive.arguments.label

/-- The inline content of a label: its Markdown without the paragraphs around it. -/
def labelNodes (markdown : Text → List Node) (label : Text) : List Node :=
  if label.isEmpty then [] else unwrapParagraphs (markdown label)

mutual

/-- The nodes of a section, given those of a run of Markdown. -/
def Section.nodes (markdown : Text → List Node) : Section → List Node
  | .markdown source => markdown source
  | .leaf directive => [leafNode (labelNodes markdown) directive]
  | .container directive content => [containerNode directive (Section.allNodes markdown content)]

def Section.allNodes (markdown : Text → List Node) : List Section → List Node
  | [] => []
  | piece :: rest => piece.nodes markdown ++ Section.allNodes markdown rest

end

/-- The nodes of a source whose quotes and items are read again at most `fuel - 1` levels deep. -/
def fragmentUpTo (gfm : Bool) : Nat → Text → List Node
  | 0, _ => []
  | fuel + 1, source =>
    Section.allNodes (markdownNodes gfm (fragmentUpTo gfm fuel)) (Section.split source)

/-- The nodes of a source. What is read again is shorter than where it stands, so there are fewer
levels than characters. -/
def fragment (gfm : Bool) (source : Text) : List Node :=
  fragmentUpTo gfm (source.length + 1) source

def inlineNodes (gfm : Bool) (label : Text) : List Node :=
  labelNodes (markdownNodes gfm (fragmentUpTo gfm label.length)) label

end DirectiveMarkdown
