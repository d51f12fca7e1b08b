import DirectiveMarkdown.CommandLine.Run
import DirectiveMarkdown.Proofs.Json.Writing
import DirectiveMarkdown.Proofs.NodeRecursion
import DirectiveMarkdown.Proofs.TextMap

/-! Trees read back from JSON. The order of the members of an object plays no part, and a member that
is not there stands for a name or metadata that is missing, and for empty attributes, properties,
children or an empty value. A tree is read back from its JSON, so different trees have different JSON,
as a value and as a text. -/
namespace DirectiveMarkdown

namespace Json

def member? (json : Json) (key : String) : Option Json :=
  match json with
  | .object members => members.lookup key.toList
  | .string _ | .array _ => none

def text? : Json → Option Text
  | .string value => some value
  | .array _ | .object _ => none

/-- The entry of a map that a member of an object is. -/
def textEntry? (member : Text × Json) : Option (Text × Text) := member.2.text?.map (member.1, ·)

def textMap? : Json → Option TextMap
  | .object members => (members.mapM textEntry?).map TextMap.ofList
  | .string _ | .array _ => none

/-- What a member says, or the default if it is not there. -/
def readMember? {α : Type} (json : Json) (key : String) (read : Json → Option α) (default : α) :
    Option α :=
  match json.member? key with
  | some value => read value
  | none => some default

/-- A member is smaller than its object, so reading ends. -/
theorem sizeOf_member?_lt {json value : Json} {key : String} (h : json.member? key = some value) :
    sizeOf value < sizeOf json := by
  cases json with
  | object members =>
      obtain ⟨before, after, hMembers, -⟩ := List.lookup_eq_some_iff.1 h
      have hMem : (key.toList, value) ∈ members := by simp [hMembers]
      have hValue : sizeOf value < sizeOf members := sizeOf_snd_lt_of_mem hMem
      rw [object.sizeOf_spec]
      omega
  | string _ => cases h
  | array _ => cases h

end Json

def Metadata.ofJson? (json : Json) : Option Metadata := do
  let targetElement ← (← json.member? "targetElement").text?
  let targetProperties ← (← json.member? "targetProperties").textMap?
  return { targetElement, targetProperties }

mutual

def Node.ofJson? (json : Json) : Option Node := do
  let label ← (← json.member? "kind").text?
  let kind ← NodeKind.ofLabel? (String.ofList label)
  let name ← json.readMember? "name" (fun value => value.text?.map some) none
  let attributes ← json.readMember? "attributes" Json.textMap? ∅
  let metadata ← json.readMember? "metadata" (fun value => (Metadata.ofJson? value).map some) none
  let children ← Node.childrenOfJson? json
  let value ← json.readMember? "value" Json.text? []
  return { kind, name, attributes, metadata, children, value }
termination_by (sizeOf json, 1)

/-- The children of a syntax tree, read from the JSON of the tree. -/
def Node.childrenOfJson? (json : Json) : Option (List Node) :=
  match _h : json.member? "children" with
  | some (.array items) => nodesOfJson? items
  | some _ => none
  | none => some []
termination_by (sizeOf json, 0)
decreasing_by
  have hArray := Json.sizeOf_member?_lt _h
  rw [Json.array.sizeOf_spec] at hArray
  exact Prod.Lex.left _ _ (by omega)

def nodesOfJson? : List Json → Option (List Node)
  | [] => some []
  | item :: rest => do return (← Node.ofJson? item) :: (← nodesOfJson? rest)
termination_by items => (sizeOf items, 0)

end

mutual

def HtmlNode.ofJson? (json : Json) : Option HtmlNode := do
  let type ← (← json.member? "type").text?
  if type = text "root" then return .root (← HtmlNode.childrenOfJson? json)
  else if type = text "element" then
    let tag ← (← json.member? "tag").text?
    let properties ← json.readMember? "properties" Json.textMap? ∅
    return .element tag properties (← HtmlNode.childrenOfJson? json)
  else if type = text "text" then return .text (← json.readMember? "value" Json.text? [])
  else if type = text "raw" then return .raw (← json.readMember? "value" Json.text? [])
  else none
termination_by (sizeOf json, 1)

/-- The children of an HTML tree, read from the JSON of the tree. -/
def HtmlNode.childrenOfJson? (json : Json) : Option (List HtmlNode) :=
  match _h : json.member? "children" with
  | some (.array items) => htmlOfJson? items
  | some _ => none
  | none => some []
termination_by (sizeOf json, 0)
decreasing_by
  have hArray := Json.sizeOf_member?_lt _h
  rw [Json.array.sizeOf_spec] at hArray
  exact Prod.Lex.left _ _ (by omega)

def htmlOfJson? : List Json → Option (List HtmlNode)
  | [] => some []
  | item :: rest => do return (← HtmlNode.ofJson? item) :: (← htmlOfJson? rest)
termination_by items => (sizeOf items, 0)

end

/-- No two kinds have one label. -/
theorem NodeKind.ofLabel?_label (kind : NodeKind) : ofLabel? kind.label = some kind := by
  cases kind <;> decide

namespace Json

/-- A map is read back. -/
theorem textMap?_ofTextMap (map : TextMap) : (ofTextMap map).textMap? = some map := by
  have hEntries : ∀ entries : List (Text × Text),
      (entries.map fun entry => (entry.1, Json.string entry.2)).mapM textEntry? =
        some entries := by
    intro entries
    induction entries with
    | nil => rfl
    | cons entry rest ih =>
        rw [List.map_cons, List.mapM_cons, ih]
        rfl
  have hObject : ofTextMap map =
      .object (map.entries.map fun entry => (entry.1, .string entry.2)) := rfl
  rw [hObject, textMap?, hEntries, Option.map_some, TextMap.ofList, TextMap.foldl_insert_entries]

variable {key other : String}

theorem lookup_cons_member (value : Json) (rest : List (Text × Json)) :
    ((text key, value) :: rest).lookup other.toList =
      if other = key then some value else rest.lookup other.toList := by
  by_cases hKey : other = key
  · simp [hKey]
  · have hText : other.toList ≠ key.toList := fun h => hKey (String.toList_inj.1 h)
    rw [List.lookup_cons, beq_eq_false_iff_ne.2 hText, if_neg hKey]

/-- A member is found by its key if it was worth writing, and by no other key. -/
theorem lookup_member (value : Json) (isPresent : Bool) :
    (member key value isPresent).lookup other.toList =
      if other = key ∧ isPresent = true then some value else none := by
  cases isPresent with
  | true => simp [member, lookup_cons_member]
  | false => simp [member]

theorem lookup_toList_map {α : Type} (f : α → Json) (found : Option α) :
    (found.map fun value => (text key, f value)).toList.lookup other.toList =
      if other = key then found.map f else none := by
  cases found with
  | some value => simp [lookup_cons_member]
  | none => simp

/-- A member that is left out for saying nothing is read as what it would have said. -/
theorem readMember?_of_isEmpty {α : Type} {json : Json} (value : Json) (isEmpty : Bool)
    {read : Json → Option α} {result default : α}
    (hMember : json.member? key = if isEmpty = false then some value else none)
    (hRead : read value = some result) (hDefault : isEmpty = true → result = default) :
    json.readMember? key read default = some result := by
  cases isEmpty with
  | true => simp [readMember?, hMember, hDefault rfl]
  | false => simpa [readMember?, hMember] using hRead

/-- The same for a member that is there if there is something to say. -/
theorem readMember?_of_map {α : Type} {json : Json} {f : α → Json} {read : Json → Option α}
    {found : Option α} (hMember : json.member? key = found.map f)
    (hRead : ∀ value, read (f value) = some value) :
    json.readMember? key (fun value => (read value).map some) none = some found := by
  cases found with
  | some value => simp [readMember?, hMember, hRead]
  | none => simp [readMember?, hMember]

end Json

/-- Metadata are read back from their JSON. -/
theorem Metadata.ofJson?_toJson (metadata : Metadata) :
    Metadata.ofJson? metadata.toJson = some metadata := by
  have hElement : metadata.toJson.member? "targetElement" =
      some (.string metadata.targetElement) := rfl
  have hProperties : metadata.toJson.member? "targetProperties" =
      some (.ofTextMap metadata.targetProperties) := rfl
  simp [ofJson?, hElement, hProperties, Json.text?, Json.textMap?_ofTextMap]

theorem TextMap.eq_empty_of_isEmpty {map : TextMap} (h : map.isEmpty = true) : map = ∅ := by
  obtain ⟨entries, increasing⟩ := map
  cases List.isEmpty_iff.1 h
  rfl

/-- The members of a syntax tree's object. -/
theorem Node.member?_toJson (node : Node) (key : String) :
    node.toJson.member? key =
      ((((((if key = "kind" then some (.string node.kind.label.toList) else none).or
        (if key = "name" then node.name.map .string else none)).or
        (if key = "attributes" ∧ (!node.attributes.isEmpty) = true then
          some (.ofTextMap node.attributes) else none)).or
        (if key = "metadata" then node.metadata.map Metadata.toJson else none)).or
        (if key = "children" ∧ (!node.children.isEmpty) = true then
          some (.array (nodesToJson node.children)) else none)).or
        (if key = "value" ∧ (!node.value.isEmpty) = true then some (.string node.value)
          else none)) := by
  obtain ⟨kind, name, attributes, metadata, children, value⟩ := node
  simp only [toJson, Json.member?, List.lookup_append, Json.lookup_cons_member, List.lookup_nil,
    Json.lookup_member, Json.lookup_toList_map]

theorem nodesOfJson?_nodesToJson {nodes : List Node}
    (h : ∀ node ∈ nodes, Node.ofJson? node.toJson = some node) :
    nodesOfJson? (nodesToJson nodes) = some nodes := by
  induction nodes with
  | nil => rw [nodesToJson, nodesOfJson?]
  | cons node rest ih =>
      obtain ⟨hNode, hRest⟩ := List.forall_mem_cons.1 h
      rw [nodesToJson, nodesOfJson?, hNode, ih hRest]
      rfl

/-- Children that are left out if there are none are read back. -/
theorem Node.childrenOfJson?_of_member? {json : Json} {nodes : List Node}
    (hMember : json.member? "children" =
      if nodes.isEmpty = false then some (.array (nodesToJson nodes)) else none)
    (hNodes : nodesOfJson? (nodesToJson nodes) = some nodes) :
    Node.childrenOfJson? json = some nodes := by
  rw [Node.childrenOfJson?]
  cases nodes with
  | nil =>
      have hNone : json.member? "children" = none := hMember
      split <;> simp_all
  | cons node rest =>
      have hArray : json.member? "children" = some (.array (nodesToJson (node :: rest))) := hMember
      split <;> simp_all

/-- A syntax tree is read back. -/
theorem Node.ofJson?_toJson (node : Node) : Node.ofJson? node.toJson = some node := by
  induction node using inductionOnChildren with
  | step node ih =>
      have hMember := node.member?_toJson
      have hKind : node.toJson.member? "kind" = some (.string node.kind.label.toList) := by
        simp [hMember]
      have hName : node.toJson.readMember? "name" (fun value => value.text?.map some) none =
          some node.name :=
        Json.readMember?_of_map (f := Json.string) (by simp [hMember]) fun _ => rfl
      have hAttributes : node.toJson.readMember? "attributes" Json.textMap? ∅ =
          some node.attributes :=
        Json.readMember?_of_isEmpty (.ofTextMap node.attributes) node.attributes.isEmpty
          (by simp [hMember]) (Json.textMap?_ofTextMap _) TextMap.eq_empty_of_isEmpty
      have hMetadata : node.toJson.readMember? "metadata"
          (fun value => (Metadata.ofJson? value).map some) none = some node.metadata :=
        Json.readMember?_of_map (by simp [hMember]) Metadata.ofJson?_toJson
      have hChildren : Node.childrenOfJson? node.toJson = some node.children :=
        Node.childrenOfJson?_of_member? (by simp [hMember]) (nodesOfJson?_nodesToJson ih)
      have hValue : node.toJson.readMember? "value" Json.text? [] = some node.value :=
        Json.readMember?_of_isEmpty (.string node.value) node.value.isEmpty (by simp [hMember]) rfl
          List.isEmpty_iff.1
      rw [Node.ofJson?, hKind, hName, hAttributes, hMetadata, hChildren, hValue]
      simp only [Json.text?, String.ofList_toList, NodeKind.ofLabel?_label, Option.bind_eq_bind,
        Option.bind_some]
      exact congrArg some (with_children_eq rfl)

/-- Children that are always written are read back. -/
theorem HtmlNode.childrenOfJson?_of_array {json : Json} {nodes : List HtmlNode}
    (hMember : json.member? "children" = some (.array (htmlToJson nodes)))
    (hNodes : htmlOfJson? (htmlToJson nodes) = some nodes) :
    HtmlNode.childrenOfJson? json = some nodes := by
  rw [HtmlNode.childrenOfJson?]
  split <;> simp_all

/-- Children that are left out if there are none are read back. -/
theorem HtmlNode.childrenOfJson?_of_member? {json : Json} {nodes : List HtmlNode}
    (hMember : json.member? "children" =
      if nodes.isEmpty = false then some (.array (htmlToJson nodes)) else none)
    (hNodes : htmlOfJson? (htmlToJson nodes) = some nodes) :
    HtmlNode.childrenOfJson? json = some nodes := by
  cases nodes with
  | nil =>
      have hNone : json.member? "children" = none := hMember
      rw [HtmlNode.childrenOfJson?]
      split <;> simp_all
  | cons node rest => exact childrenOfJson?_of_array hMember hNodes

/-- The members of an element's object. -/
theorem HtmlNode.member?_element (tag : Text) (properties : TextMap) (children : List HtmlNode)
    (key : String) :
    (HtmlNode.element tag properties children).toJson.member? key =
      (((if key = "type" then some (.string "element".toList)
        else if key = "tag" then some (.string tag) else none).or
        (if key = "properties" ∧ (!properties.isEmpty) = true then some (.ofTextMap properties)
          else none)).or
        (if key = "children" ∧ (!children.isEmpty) = true then some (.array (htmlToJson children))
          else none)) := by
  simp only [toJson, Json.member?, List.lookup_append, Json.lookup_cons_member, List.lookup_nil,
    Json.lookup_member]

mutual

/-- An HTML tree is read back. -/
theorem HtmlNode.ofJson?_toJson (node : HtmlNode) : HtmlNode.ofJson? node.toJson = some node := by
  match node with
  | .root children =>
      have hType : (HtmlNode.root children).toJson.member? "type" = some (.string "root".toList) := rfl
      have hChildren : HtmlNode.childrenOfJson? (HtmlNode.root children).toJson = some children :=
        HtmlNode.childrenOfJson?_of_array rfl (htmlOfJson?_htmlToJson children)
      rw [HtmlNode.ofJson?, hType, hChildren]
      rfl
  | .element tag properties children =>
      have hMember := HtmlNode.member?_element tag properties children
      have hType : (HtmlNode.element tag properties children).toJson.member? "type" =
          some (.string "element".toList) := by simp [hMember]
      have hTag : (HtmlNode.element tag properties children).toJson.member? "tag" =
          some (.string tag) := by simp [hMember]
      have hProperties : (HtmlNode.element tag properties children).toJson.readMember? "properties"
          Json.textMap? ∅ = some properties :=
        Json.readMember?_of_isEmpty (.ofTextMap properties) properties.isEmpty (by simp [hMember])
          (Json.textMap?_ofTextMap _) TextMap.eq_empty_of_isEmpty
      have hChildren : HtmlNode.childrenOfJson? (HtmlNode.element tag properties children).toJson =
          some children :=
        HtmlNode.childrenOfJson?_of_member? (by simp [hMember]) (htmlOfJson?_htmlToJson children)
      rw [HtmlNode.ofJson?, hType, hTag, hProperties, hChildren]
      rfl
  | .text value =>
      have hType : (HtmlNode.text value).toJson.member? "type" = some (.string "text".toList) := rfl
      have hValue : (HtmlNode.text value).toJson.readMember? "value" Json.text? [] = some value := rfl
      rw [HtmlNode.ofJson?, hType, hValue]
      rfl
  | .raw value =>
      have hType : (HtmlNode.raw value).toJson.member? "type" = some (.string "raw".toList) := rfl
      have hValue : (HtmlNode.raw value).toJson.readMember? "value" Json.text? [] = some value := rfl
      rw [HtmlNode.ofJson?, hType, hValue]
      rfl

theorem htmlOfJson?_htmlToJson (nodes : List HtmlNode) :
    htmlOfJson? (htmlToJson nodes) = some nodes := by
  match nodes with
  | [] => rw [htmlToJson, htmlOfJson?]
  | node :: rest =>
      rw [htmlToJson, htmlOfJson?, HtmlNode.ofJson?_toJson node, htmlOfJson?_htmlToJson rest]
      rfl

end

/-- The trees of all stages are determined by their JSON: each is read back from its value, and trees
with the same value, or with the same text, are the same tree. -/
theorem dumps_determine_trees :
    (∀ node : Node, Node.ofJson? node.toJson = some node) ∧
    (∀ node : HtmlNode, HtmlNode.ofJson? node.toJson = some node) ∧
    Function.Injective Node.toJson ∧ Function.Injective HtmlNode.toJson ∧
    (Function.Injective fun node : Node => node.toJson.toText) ∧
    (Function.Injective fun node : HtmlNode => node.toJson.toText) ∧
    ∀ stages others : Stages,
      (CommandLine.Stage.source.format stages = CommandLine.Stage.source.format others ↔
        stages.source = others.source) ∧
      (CommandLine.Stage.rewritten.format stages = CommandLine.Stage.rewritten.format others ↔
        stages.rewritten = others.rewritten) ∧
      (CommandLine.Stage.target.format stages = CommandLine.Stage.target.format others ↔
        stages.target = others.target) := by
  have hNode : Function.Injective Node.toJson := by
    intro a b h
    have hRead := congrArg Node.ofJson? h
    rw [Node.ofJson?_toJson, Node.ofJson?_toJson] at hRead
    exact Option.some.inj hRead
  have hHtml : Function.Injective HtmlNode.toJson := by
    intro a b h
    have hRead := congrArg HtmlNode.ofJson? h
    rw [HtmlNode.ofJson?_toJson, HtmlNode.ofJson?_toJson] at hRead
    exact Option.some.inj hRead
  have hNodeText := Json.toText_injective.comp hNode
  have hHtmlText := Json.toText_injective.comp hHtml
  exact ⟨Node.ofJson?_toJson, HtmlNode.ofJson?_toJson, hNode, hHtml, hNodeText, hHtmlText,
    fun stages others => ⟨hNodeText.eq_iff, hNodeText.eq_iff, hHtmlText.eq_iff⟩⟩

end DirectiveMarkdown
