import DirectiveMarkdown.Toml.Statement

/-! The table that a document describes. -/
namespace DirectiveMarkdown.Toml

/-- Every carriage return stands before a line feed. -/
def returnsArePaired : Text → Bool
  | [] => true
  | c :: rest => (c != '\r' || rest.head? == some '\n') && returnsArePaired rest

def dropByteOrderMark : Text → Text
  | '\ufeff' :: rest => rest
  | s => s

/-- What the lines of a document state. -/
def statements? (s : Text) : Option (List Statement) :=
  if returnsArePaired s then
    match Reader.gather line (dropByteOrderMark s) with
    | some (lines, _) => some (lines.filterMap id)
    | none => none
  else none

/-- A document up to some line: its table, and the path of the last header. -/
structure Progress where
  root : Value := .table .header []
  header : List Text := []

/-- Takes in one statement. Assignments count from the last header. -/
def Progress.next (progress : Progress) : Statement → Option Progress
  | .header path => (progress.root.openTable path).map fun root => ⟨root, path⟩
  | .element path => (progress.root.openElement path).map fun root => ⟨root, path⟩
  | .assignment path value =>
    (progress.root.descend false (fun origin entries =>
      (Value.table origin entries).assign path value) progress.header).map
        fun root => ⟨root, progress.header⟩

/-- The table of a document, unless the text is none. -/
def read? (s : Text) : Option Value := do
  let progress ← (← statements? s).foldlM Progress.next {}
  return progress.root

end DirectiveMarkdown.Toml
