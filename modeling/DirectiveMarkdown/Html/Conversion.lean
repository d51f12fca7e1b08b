import DirectiveMarkdown.Html.Node
import DirectiveMarkdown.Node

/-! The HTML tree of a syntax tree. A node with metadata becomes the element that the metadata
names; every other node becomes the element of its kind. Blocks stand on lines of their own. -/
namespace DirectiveMarkdown

namespace HtmlNode

def newline : HtmlNode := .text ['\n']

/-- Blocks with a line break between each two of them. -/
def separated : List HtmlNode → List HtmlNode
  | [] => []
  | [node] => [node]
  | node :: rest => node :: newline :: separated rest

/-- Blocks with line breaks between them and around them, if there are any. -/
def enclosed (nodes : List HtmlNode) : List HtmlNode :=
  if nodes.isEmpty then [] else newline :: separated nodes ++ [newline]

/-- A line break, and then each node with a line break after it. -/
def joinLines (nodes : List HtmlNode) : List HtmlNode :=
  newline :: nodes.flatMap fun node => [node, newline]

def ofTag (tag : String) (children : List HtmlNode) : HtmlNode := .element tag.toList ∅ children

end HtmlNode

/-- The properties with one more that copies an attribute, if the attribute is there. -/
def copyAttribute (attributes : TextMap) (source target : String) (properties : TextMap) :
    TextMap :=
  match attributes.get? source.toList with
  | some value => properties.insert target.toList value
  | none => properties

def codeBlock (attributes : TextMap) (value : Text) : HtmlNode :=
  let properties : TextMap := match attributes.get? (text "lang") with
    | some language => TextMap.insert ∅ (text "class") (text "language-" ++ language)
    | none => ∅
  .ofTag "pre" [.element (text "code") properties [.text value]]

def imageProperties (attributes : TextMap) : TextMap :=
  copyAttribute attributes "title" "title"
    ((copyAttribute attributes "url" "src" ∅).insert (text "alt")
      ((attributes.get? (text "alt")).getD []))

/-- A list with its items. The number of the first item is given if it is not one. -/
def listElement (attributes : TextMap) (items : List HtmlNode) : HtmlNode :=
  let children := HtmlNode.enclosed items
  if attributes.get? (text "ordered") = some (text "true") then
    let properties : TextMap := match attributes.get? (text "start") with
      | some start => if start = ['1'] then ∅ else TextMap.insert ∅ (text "start") start
      | none => ∅
    .element (text "ol") properties children
  else .ofTag "ul" children

def checkBox (checked : Bool) : List HtmlNode :=
  let box := (TextMap.insert ∅ (text "type") (text "checkbox")).insert (text "disabled") []
  [.element (text "input") (if checked then box.insert (text "checked") [] else box) [],
   .text [' ']]

/-- Kinds that stand in running text. -/
def NodeKind.isPhrasing : NodeKind → Bool
  | .text | .emphasis | .strong | .delete | .inlineCode | .break | .link | .image | .html
  | .textDirective => true
  | _ => false

/-- A list item. Content in running text stands directly in it, other content on lines of its own.
-/
def itemElement (attributes : TextMap) (phrasing : Bool) (children : List HtmlNode) : HtmlNode :=
  let content := if phrasing then children else HtmlNode.enclosed children
  match attributes.get? (text "checked") with
  | some checked =>
    .element (text "li") (TextMap.insert ∅ (text "class") (text "task-list-item"))
      (checkBox (checked = text "true") ++ content)
  | none => .ofTag "li" content

def isHeaderRow (attributes : TextMap) : Bool :=
  attributes.get? (text "header") = some (text "true")

/-- A table with its rows, each marked as part of the head or not. -/
def tableElement (rows : List (Bool × HtmlNode)) : HtmlNode :=
  let part := fun (tag : String) (header : Bool) =>
    match (rows.filter fun row => row.1 == header).map Prod.snd with
    | [] => []
    | rows => [HtmlNode.ofTag tag (HtmlNode.joinLines rows)]
  .ofTag "table" (HtmlNode.joinLines (part "thead" true ++ part "tbody" false))

def columnAlignments (attributes : TextMap) : List Text :=
  match attributes.get? (text "align") with
  | some value => Text.splitOn ',' value
  | none => []

def cellProperties (alignment : Option Text) : TextMap :=
  match alignment with
  | some value => if value = text "none" then ∅ else TextMap.insert ∅ (text "align") value
  | none => ∅

mutual

/-- The HTML of a node. Raw HTML has none unless it is allowed. -/
def Node.toHtml? (rawHtml : Bool) : Node → Option HtmlNode
  | ⟨_, _, _, some metadata, children, _⟩ =>
    some (.element metadata.targetElement metadata.targetProperties
      (Node.allToHtml rawHtml children))
  | ⟨kind, _, attributes, none, children, value⟩ =>
    match kind with
    | .root => some (.root (HtmlNode.separated (Node.allToHtml rawHtml children)))
    | .text => some (.text value)
    | .html => if rawHtml then some (.raw value) else none
    | .paragraph => some (.ofTag "p" (Node.allToHtml rawHtml children))
    | .heading =>
      some (.element ('h' :: (attributes.get? (text "depth")).getD ['1']) ∅
        (Node.allToHtml rawHtml children))
    | .thematicBreak => some (.ofTag "hr" [])
    | .break => some (.root [.ofTag "br" [], .newline])
    | .blockQuote =>
      some (.ofTag "blockquote" (HtmlNode.enclosed (Node.allToHtml rawHtml children)))
    | .list => some (listElement attributes (Node.allToHtml rawHtml children))
    | .listItem =>
      some (itemElement attributes (children.all fun child => child.kind.isPhrasing)
        (Node.allToHtml rawHtml children))
    | .code => some (codeBlock attributes value)
    | .inlineCode => some (.ofTag "code" [.text value])
    | .emphasis => some (.ofTag "em" (Node.allToHtml rawHtml children))
    | .strong => some (.ofTag "strong" (Node.allToHtml rawHtml children))
    | .delete => some (.ofTag "del" (Node.allToHtml rawHtml children))
    | .link =>
      some (.element (text "a")
        (copyAttribute attributes "title" "title" (copyAttribute attributes "url" "href" ∅))
        (Node.allToHtml rawHtml children))
    | .image => some (.element (text "img") (imageProperties attributes) [])
    | .table =>
      some (tableElement (Node.rowsToHtml rawHtml (columnAlignments attributes) children))
    | .tableRow =>
      some (.ofTag "tr"
        (HtmlNode.joinLines (Node.cellsToHtml rawHtml (isHeaderRow attributes) [] children)))
    | .tableCell => some (.ofTag "td" (Node.allToHtml rawHtml children))
    | .containerDirective | .leafDirective | .textDirective =>
      some (.ofTag "div" (Node.allToHtml rawHtml children))

/-- The HTML of nodes in order, without those that have none. -/
def Node.allToHtml (rawHtml : Bool) : List Node → List HtmlNode
  | [] => []
  | node :: rest => (node.toHtml? rawHtml).toList ++ Node.allToHtml rawHtml rest

/-- The rows of a table, each marked as part of the head or not. -/
def Node.rowsToHtml (rawHtml : Bool) (alignments : List Text) : List Node → List (Bool × HtmlNode)
  | [] => []
  | ⟨_, _, attributes, _, children, _⟩ :: rest =>
    let header := isHeaderRow attributes
    (header, .ofTag "tr"
        (HtmlNode.joinLines (Node.cellsToHtml rawHtml header alignments children))) ::
      Node.rowsToHtml rawHtml alignments rest

/-- The cells of a row, each with the alignment of its column. -/
def Node.cellsToHtml (rawHtml header : Bool) (alignments : List Text) : List Node → List HtmlNode
  | [] => []
  | ⟨_, _, _, _, children, _⟩ :: rest =>
    .element (if header then text "th" else text "td") (cellProperties alignments.head?)
        (Node.allToHtml rawHtml children) ::
      Node.cellsToHtml rawHtml header alignments.tail rest

end

def Node.toHtml (rawHtml : Bool) (node : Node) : HtmlNode :=
  (node.toHtml? rawHtml).getD (.root [])

end DirectiveMarkdown
