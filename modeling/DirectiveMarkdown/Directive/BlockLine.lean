import DirectiveMarkdown.Directive.Body

/-! Directives that take a whole line. -/
namespace DirectiveMarkdown

/-- A line that holds a directive: a leaf, the opening of a container, or the closing of one. -/
inductive BlockLine where
  | leaf (body : DirectiveBody)
  | opening (colons : Nat) (body : DirectiveBody)
  | closing (colons : Nat)

/-- Reads a line as a directive. It is indented by at most three spaces and holds nothing after the
directive. Two colons start a leaf and three or more a container; three or more alone close one. -/
def BlockLine.read? (line : Text) : Option BlockLine :=
  let indent := (line.takeWhile (· == ' ')).length
  if indent > 3 then none
  else
    let content := Text.trimEnd (line.drop indent)
    let colons := (content.takeWhile (· == ':')).length
    if colons < 2 then none
    else
      let rest := content.drop colons
      if rest.isEmpty then if colons ≥ 3 then some (.closing colons) else none
      else
        (readDirectiveBody? rest).bind fun (body, _, after) =>
          if Text.isBlankText after then
            if colons = 2 then some (.leaf body) else some (.opening colons body)
          else none

end DirectiveMarkdown
