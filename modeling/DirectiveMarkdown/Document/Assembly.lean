import DirectiveMarkdown.Node
import DirectiveMarkdown.Markdown.Event

/-! Syntax trees from the events of a Markdown document. The nodes whose end has not come yet form a
stack. -/
namespace DirectiveMarkdown

open Markdown

namespace Node

def appendChild (node child : Node) : Node := { node with children := node.children ++ [child] }

/-- The node with more text: in the value of code, else in the last child if this is text, else in
a new child. -/
def appendText (node : Node) (value : Text) : Node :=
  if node.kind = .code then { node with value := node.value ++ value }
  else match node.children.getLast? with
    | some last =>
      if last.kind = .text then
        { node with
          children := node.children.dropLast ++ [{ last with value := last.value ++ value }] }
      else node.appendChild (ofText value)
    | none => node.appendChild (ofText value)

/-- The node with more raw HTML: in the value of a block of HTML, else in a new child. -/
def appendHtml (node : Node) (value : Text) : Node :=
  if node.kind = .html then { node with value := node.value ++ value }
  else node.appendChild (ofHtml value)

/-- The image with its description as an attribute in place of its children. -/
def describeImage (node : Node) : Node :=
  { node with
    children := []
    attributes := node.attributes.insert (text "alt") node.textContent }

def checkedValue (checked : Bool) : Text := if checked then text "true" else text "false"

def withTitle (node : Node) (title : Text) : Node :=
  if title.isEmpty then node else node.withAttribute (text "title") title

end Node

def Markdown.Alignment.name : Alignment → Text
  | .unset => text "none"
  | .left => text "left"
  | .center => text "center"
  | .right => text "right"

def firstWord (info : Text) : Text :=
  (Text.trimStart info).takeWhile fun c => !isBlank c

/-- The node that an element starts with. -/
def Markdown.Tag.node : Tag → Node
  | .paragraph => { kind := .paragraph }
  | .heading level =>
    { kind := .heading : Node }.withAttribute (text "depth") (Text.ofNat (level.val + 1))
  | .quote _ => { kind := .blockQuote }
  | .code info =>
    let language := firstWord (info.getD [])
    let node : Node := { kind := .code }
    if language.isEmpty then node else node.withAttribute (text "lang") language
  | .htmlBlock => { kind := .html }
  | .list (some first) =>
    ({ kind := .list : Node }.withAttribute (text "ordered") (text "true")).withAttribute
      (text "start") (Text.ofNat first)
  | .list none => { kind := .list : Node }.withAttribute (text "ordered") (text "false")
  | .item _ => { kind := .listItem }
  | .table columns =>
    { kind := .table : Node }.withAttribute (text "align")
      (Text.join [','] (columns.map Alignment.name))
  | .tableHead => { kind := .tableRow : Node }.withAttribute (text "header") (text "true")
  | .tableRow => { kind := .tableRow }
  | .tableCell => { kind := .tableCell }
  | .emphasis => { kind := .emphasis }
  | .strong => { kind := .strong }
  | .strikethrough => { kind := .delete }
  | .link url title =>
    ({ kind := .link : Node }.withAttribute (text "url") url).withTitle title
  | .image url title =>
    ({ kind := .image : Node }.withAttribute (text "url") url).withTitle title

/-- The node that is being read and the ones around it, innermost first. The last one is the root.
-/
structure Assembly where
  top : Node := { kind := .root }
  outer : List Node := []

namespace Assembly

def push (assembly : Assembly) (node : Node) : Assembly :=
  { assembly with top := assembly.top.appendChild node }

def close (assembly : Assembly) : Assembly :=
  match assembly.outer with
  | [] => assembly
  | parent :: outer => ⟨parent.appendChild assembly.top, outer⟩

/-- Sets the check box of the innermost list item. -/
def checkItem (value : Text) : List Node → List Node
  | [] => []
  | node :: outer =>
    if node.kind = .listItem then node.withAttribute (text "checked") value :: outer
    else node :: checkItem value outer

def step (assembly : Assembly) (event : Event) : Assembly :=
  match event with
  | .start tag => ⟨tag.node, assembly.top :: assembly.outer⟩
  | .stop (.image _ _) => { assembly with top := assembly.top.describeImage }.close
  | .stop _ => assembly.close
  | .text value => { assembly with top := assembly.top.appendText value }
  | .softBreak => { assembly with top := assembly.top.appendText ['\n'] }
  | .code value => assembly.push { kind := .inlineCode, value }
  | .html value => { assembly with top := assembly.top.appendHtml value }
  | .hardBreak => assembly.push { kind := .break }
  | .thematicBreak => assembly.push { kind := .thematicBreak }
  | .taskMarker checked =>
    match checkItem (Node.checkedValue checked) (assembly.top :: assembly.outer) with
    | top :: outer => ⟨top, outer⟩
    | [] => assembly

/-- The children of the root after all open nodes are ended. -/
def finish (assembly : Assembly) : List Node :=
  (assembly.outer.foldl (fun node parent => parent.appendChild node) assembly.top).children

end Assembly

end DirectiveMarkdown
