import DirectiveMarkdown.TextMap

/-! The syntax tree of a document. One shape of node serves all kinds: a node of any kind may carry
a name, attributes, metadata, a value and children, whether or not its kind makes use of them. -/
namespace DirectiveMarkdown

inductive NodeKind where
  | root
  | paragraph
  | heading
  | thematicBreak
  | blockQuote
  | list
  | listItem
  | code
  | html
  | text
  | emphasis
  | strong
  | delete
  | inlineCode
  | break
  | link
  | image
  | table
  | tableRow
  | tableCell
  | containerDirective
  | leafDirective
  | textDirective
deriving DecidableEq

namespace NodeKind

def all : List NodeKind :=
  [root, paragraph, heading, thematicBreak, blockQuote, list, listItem, code, html, text, emphasis,
   strong, delete, inlineCode, .break, link, image, table, tableRow, tableCell, containerDirective,
   leafDirective, textDirective]

/-- The name of a kind in documents and dumps. -/
def label : NodeKind → String
  | root => "root"
  | paragraph => "paragraph"
  | heading => "heading"
  | thematicBreak => "thematicBreak"
  | blockQuote => "blockQuote"
  | list => "list"
  | listItem => "listItem"
  | code => "code"
  | html => "html"
  | text => "text"
  | emphasis => "emphasis"
  | strong => "strong"
  | delete => "delete"
  | inlineCode => "inlineCode"
  | .break => "break"
  | link => "link"
  | image => "image"
  | table => "table"
  | tableRow => "tableRow"
  | tableCell => "tableCell"
  | containerDirective => "containerDirective"
  | leafDirective => "leafDirective"
  | textDirective => "textDirective"

def ofLabel? (label : String) : Option NodeKind := all.find? fun kind => kind.label == label

def isDirective : NodeKind → Bool
  | containerDirective | leafDirective | textDirective => true
  | _ => false

/-- Literals hold their content as a value instead of children. -/
def isLiteral : NodeKind → Bool
  | text | code | inlineCode | html => true
  | _ => false

end NodeKind

/-- What a rule decided about the element that a node becomes. -/
structure Metadata where
  targetElement : Text
  targetProperties : TextMap := ∅
deriving DecidableEq

structure Node where
  kind : NodeKind
  name : Option Text := none
  attributes : TextMap := ∅
  metadata : Option Metadata := none
  children : List Node := []
  value : Text := []

instance : Inhabited Node := ⟨{ kind := .root }⟩

namespace Node

def ofText (value : Text) : Node := { kind := .text, value }

def ofHtml (value : Text) : Node := { kind := .html, value }

def withAttribute (node : Node) (key value : Text) : Node :=
  { node with attributes := node.attributes.insert key value }

def attribute? (node : Node) (key : Text) : Option Text := node.attributes.get? key

def isDirective (node : Node) (kind : NodeKind) (name : Text) : Bool :=
  kind.isDirective && node.kind == kind && node.name == some name

mutual

/-- The text of a node and its descendants in document order. Raw HTML has none. -/
def textContent : Node → Text
  | ⟨kind, _, _, _, children, value⟩ =>
    if kind = .html then [] else if kind.isLiteral then value else allTextContent children

def allTextContent : List Node → Text
  | [] => []
  | node :: rest => node.textContent ++ allTextContent rest

end

mutual

def count : Node → Nat
  | ⟨_, _, _, _, children, _⟩ => 1 + countAll children

def countAll : List Node → Nat
  | [] => 0
  | node :: rest => node.count + countAll rest

end

mutual

/-- The number of levels below a node. -/
def depth : Node → Nat
  | ⟨_, _, _, _, children, _⟩ => depthAll children

/-- The number of levels that trees add below their parent. -/
def depthAll : List Node → Nat
  | [] => 0
  | node :: rest => max (node.depth + 1) (depthAll rest)

end

end Node

end DirectiveMarkdown
