import DirectiveMarkdown.Text.Basic

/-! Source lines and the reading of their indentation in columns. -/
namespace DirectiveMarkdown.Markdown

/-- A line of the source without its ending. `start` counts the characters before it. -/
structure SourceLine where
  start : Nat
  content : Text
  ended : Bool

/-- A character as it is read: the null character stands for the replacement character. -/
def readCharacter (c : Char) : Char := if c = '\x00' then '\ufffd' else c

/-- The lines of a source from a place in a line, given by the start of the line, the offset of the
place and the characters between them, last first. A line feed, a carriage return or both in this
order end a line. -/
def sourceLinesFrom (start offset : Nat) (line : Text) : Text → List SourceLine
  | [] => if line.isEmpty then [] else [⟨start, line.reverse, false⟩]
  | '\r' :: '\n' :: rest =>
    ⟨start, line.reverse, true⟩ :: sourceLinesFrom (offset + 2) (offset + 2) [] rest
  | c :: rest =>
    if c = '\n' ∨ c = '\r' then
      ⟨start, line.reverse, true⟩ :: sourceLinesFrom (offset + 1) (offset + 1) [] rest
    else sourceLinesFrom start (offset + 1) (readCharacter c :: line) rest

def sourceLines (source : Text) : List SourceLine := sourceLinesFrom 0 0 [] source

/-- A place in a line. `pending` are the columns left of a tab that was entered, and `column` is the
column of the place, which decides how far a tab reaches. -/
structure Cursor where
  pending : Nat := 0
  column : Nat := 0
  rest : Text

namespace Cursor

/-- Passes over at most the given number of columns of spaces and tabs, and tells how many. -/
def skip : Nat → Cursor → Nat × Cursor
  | 0, cursor => (0, cursor)
  | n + 1, ⟨pending + 1, column, rest⟩ =>
    let (passed, cursor) := skip n ⟨pending, column + 1, rest⟩
    (passed + 1, cursor)
  | n + 1, ⟨0, column, ' ' :: rest⟩ =>
    let (passed, cursor) := skip n ⟨0, column + 1, rest⟩
    (passed + 1, cursor)
  | n + 1, ⟨0, column, '\t' :: rest⟩ =>
    let (passed, cursor) := skip n ⟨3 - column % 4, column + 1, rest⟩
    (passed + 1, cursor)
  | _ + 1, cursor => (0, cursor)

def indent (cursor : Cursor) : Nat := (cursor.skip 4).1

/-- The text at the place, without indentation. -/
def body (cursor : Cursor) : Text := cursor.rest.dropWhile isInlineBlank

def isBlank (cursor : Cursor) : Bool := cursor.rest.all isInlineBlank

/-- What is left of the line, with the pending columns written as spaces. -/
def remainder (cursor : Cursor) : Text := List.replicate cursor.pending ' ' ++ cursor.rest

/-- Passes over a given number of characters that are not tabs. -/
def advance (n : Nat) (cursor : Cursor) : Cursor :=
  ⟨0, cursor.column + n, cursor.rest.drop n⟩

end Cursor

end DirectiveMarkdown.Markdown
