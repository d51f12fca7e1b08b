import DirectiveMarkdown.Text.Basic

/-! JSON values without numbers, and their text on several lines. -/
namespace DirectiveMarkdown

/-- A JSON value. Members of an object keep their order. -/
inductive Json where
  | string (value : Text)
  | array (items : List Json)
  | object (members : List (Text × Json))

namespace Json

def hexDigit (n : Nat) : Char := if n < 10 then Char.ofNat (n + 48) else Char.ofNat (n + 87)

/-- A character as it is written between quotation marks. Control characters are escaped. -/
def escapeChar (c : Char) : Text :=
  if c = '"' then ['\\', '"']
  else if c = '\\' then ['\\', '\\']
  else if c = '\x08' then ['\\', 'b']
  else if c = '\t' then ['\\', 't']
  else if c = '\n' then ['\\', 'n']
  else if c = '\x0c' then ['\\', 'f']
  else if c = '\r' then ['\\', 'r']
  else if c.toNat < 0x20 then text "\\u00" ++ [hexDigit (c.toNat / 16), hexDigit (c.toNat % 16)]
  else [c]

def quote (s : Text) : Text := '"' :: s.flatMap escapeChar ++ ['"']

/-- A new line that is indented by two blanks for every level. -/
def newLine (level : Nat) : Text := '\n' :: List.replicate (2 * level) ' '

/-- Items on lines of their own between brackets, one level further in. -/
def block (level : Nat) (opening closing : Char) (items : List Text) : Text :=
  if items.isEmpty then [opening, closing]
  else
    [opening] ++ newLine (level + 1) ++ Text.join (',' :: newLine (level + 1)) items ++
      newLine level ++ [closing]

mutual

def write (level : Nat) : Json → Text
  | .string value => quote value
  | .array items => block level '[' ']' (writeItems (level + 1) items)
  | .object members => block level '\x7b' '\x7d' (writeMembers (level + 1) members)

def writeItems (level : Nat) : List Json → List Text
  | [] => []
  | item :: rest => item.write level :: writeItems level rest

/-- The texts of members: the key, a colon, and the value. -/
def writeMembers (level : Nat) : List (Text × Json) → List Text
  | [] => []
  | (key, value) :: rest =>
    (quote key ++ [':', ' '] ++ value.write level) :: writeMembers level rest

end

def toText (json : Json) : Text := json.write 0

end Json

end DirectiveMarkdown
