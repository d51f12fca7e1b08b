import DirectiveMarkdown.Html.Node
import DirectiveMarkdown.Json
import DirectiveMarkdown.Node

/-! Trees as JSON. A member that would say nothing is left out: a name or metadata that is not
there, a map without entries, a list without items, an empty value. -/
namespace DirectiveMarkdown

namespace Json

def ofTextMap (map : TextMap) : Json :=
  .object (map.entries.map fun (key, value) => (key, .string value))

/-- A member that is written only if it says something. -/
def member (key : String) (value : Json) (isPresent : Bool) : List (Text × Json) :=
  if isPresent then [(key.toList, value)] else []

end Json

/-- Metadata as JSON. Both members are always written. -/
def Metadata.toJson (metadata : Metadata) : Json :=
  .object [(text "targetElement", .string metadata.targetElement),
    (text "targetProperties", .ofTextMap metadata.targetProperties)]

mutual

def Node.toJson : Node → Json
  | ⟨kind, name, attributes, metadata, children, value⟩ =>
    .object (
      [(text "kind", .string kind.label.toList)] ++
      (name.map fun name => (text "name", Json.string name)).toList ++
      Json.member "attributes" (.ofTextMap attributes) (!attributes.isEmpty) ++
      (metadata.map fun metadata => (text "metadata", metadata.toJson)).toList ++
      Json.member "children" (.array (nodesToJson children)) (!children.isEmpty) ++
      Json.member "value" (.string value) (!value.isEmpty))

def nodesToJson : List Node → List Json
  | [] => []
  | node :: rest => node.toJson :: nodesToJson rest

end

mutual

/-- An HTML tree as JSON. The children of a root are always written. -/
def HtmlNode.toJson : HtmlNode → Json
  | .root children =>
    .object [(text "type", .string (text "root")), (text "children", .array (htmlToJson children))]
  | .element tag properties children =>
    .object (
      [(text "type", .string (text "element")), (text "tag", .string tag)] ++
      Json.member "properties" (.ofTextMap properties) (!properties.isEmpty) ++
      Json.member "children" (.array (htmlToJson children)) (!children.isEmpty))
  | .text value => .object [(text "type", .string (text "text")), (text "value", .string value)]
  | .raw value => .object [(text "type", .string (text "raw")), (text "value", .string value)]

def htmlToJson : List HtmlNode → List Json
  | [] => []
  | node :: rest => node.toJson :: htmlToJson rest

end

end DirectiveMarkdown
