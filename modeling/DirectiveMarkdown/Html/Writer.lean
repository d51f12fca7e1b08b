import DirectiveMarkdown.Html.Node

/-! HTML trees as text. -/
namespace DirectiveMarkdown

/-- A character of text as it is written. -/
def escapeChar (c : Char) : Text :=
  if c = '&' then text "&amp;"
  else if c = '<' then text "&lt;"
  else if c = '>' then text "&gt;"
  else if c = '"' then text "&quot;"
  else if c = '\'' then text "&#x27;"
  else [c]

/-- Text with the characters that markup is made of escaped. -/
def escapeHtml (s : Text) : Text := s.flatMap escapeChar

/-- Elements that have neither content nor an end tag. -/
def voidElements : List Text := [text "br", text "hr", text "img", text "input"]

/-- A property as it is written. One with an empty value has its key only. -/
def writeProperty (key value : Text) : Text :=
  if value.isEmpty then ' ' :: key else ' ' :: key ++ text "=\"" ++ escapeHtml value ++ ['"']

def startTag (tag : Text) (properties : TextMap) : Text :=
  '<' :: tag ++ (properties.entries.flatMap fun (key, value) => writeProperty key value) ++ ['>']

def endTag (tag : Text) : Text := text "</" ++ tag ++ ['>']

mutual

def HtmlNode.write : HtmlNode → Text
  | .root children => HtmlNode.writeAll children
  | .element tag properties children =>
    if voidElements.contains tag then startTag tag properties
    else startTag tag properties ++ HtmlNode.writeAll children ++ endTag tag
  | .text value => escapeHtml value
  | .raw value => value

def HtmlNode.writeAll : List HtmlNode → Text
  | [] => []
  | node :: rest => node.write ++ HtmlNode.writeAll rest

end

end DirectiveMarkdown
