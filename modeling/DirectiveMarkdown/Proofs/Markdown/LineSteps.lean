import DirectiveMarkdown.Proofs.Markdown.LineReaders

/-! What one line can do to the open blocks, a case for each of its effects: it starts a leaf block, or it
goes on with the one that is open or ends it. What holds after every line is shown case by case. -/
namespace DirectiveMarkdown.Markdown.Structure

/-- A line starts a leaf block at the given place. -/
inductive OpensLeaf (line : SourceLine) (state : Structure) (cursor : Cursor) : Structure → Prop
  | indented : OpensLeaf line state cursor
      { state.beginBlock with leaf := .indented [withEnding line (cursor.skip 4).2.remainder] }
  | thematicBreak : OpensLeaf line state cursor (state.beginBlock.add .thematicBreak)
  | heading {level : HeadingLevel} {content : Text}
      (h : atxHeading? (cursor.skip 4).2.rest = some (level, content)) :
      OpensLeaf line state cursor (state.beginBlock.add (.heading level content))
  | fenced (marker : FenceMarker) : OpensLeaf line state cursor
      { state.beginBlock with leaf := .fenced marker (cursor.skip 4).1 [] }
  | html {rest : Text} (ending : HtmlEnd) (hBody : (cursor.skip 4).2.rest = '<' :: rest) :
      OpensLeaf line state cursor { state.beginBlock with
        leaf := .html ending
          [withEnding line (List.replicate (cursor.skip 4).1 ' ' ++ (cursor.skip 4).2.rest)] }
  | htmlEnd {rest : Text} (ending : HtmlEnd) (hBody : (cursor.skip 4).2.rest = '<' :: rest) :
      OpensLeaf line state cursor (closeLeaf { state.beginBlock with
        leaf := .html ending
          [withEnding line (List.replicate (cursor.skip 4).1 ' ' ++ (cursor.skip 4).2.rest)] })
  | paragraph : OpensLeaf line state cursor
      { state.beginBlock with leaf := .paragraph [(cursor.skip 4).2.rest] }

/-- These are all the leaves that a line can start. -/
theorem opensLeaf_openLeaf (line : SourceLine) (state : Structure) (cursor : Cursor) :
    state.OpensLeaf line cursor (openLeaf line state cursor) := by
  unfold openLeaf
  dsimp only
  split
  · exact .indented
  split
  · exact .thematicBreak
  split
  · next hHeading => exact .heading hHeading
  split
  · next marker _ => exact .fenced marker
  split
  · next hBody =>
      split
      · next ending _ =>
          split
          · exact .htmlEnd ending hBody
          · exact .html ending hBody
      · split
        · split
          · exact .htmlEnd .blankLine hBody
          · exact .html .blankLine hBody
        · exact .paragraph
  · exact .paragraph

/-- A line of which `count` containers are continued up to the given place is taken by the open leaf
block, or by none. -/
inductive TakesLine (gfm : Bool) (line : SourceLine) (count : Nat) (cursor : Cursor)
    (state : Structure) : Structure → Prop
  | newLine : TakesLine gfm line count cursor state (newLine gfm line count cursor state)
  | paragraph {lines : List Text} (hLeaf : state.leaf = .paragraph lines) :
      TakesLine gfm line count cursor state
        { state with leaf := .paragraph (cursor.remainder :: lines) }
  | table {lines header : List Text} {columns : List Alignment}
      (hLeaf : state.leaf = .paragraph lines)
      (h : tableStart? gfm lines cursor = some (columns, header)) :
      TakesLine gfm line count cursor state
        { closeLeaf { state with leaf := .paragraph lines.tail } |>.beginBlock with
          leaf := .table columns header [] }
  | heading {lines : List Text} (hLeaf : state.leaf = .paragraph lines) (level : HeadingLevel) :
      TakesLine gfm line count cursor state
        (add { state with
            leaf := .none
            definitions :=
              state.definitions ++ (leadingDefinitions lines.length (joinLines lines)).1 }
          (.heading level (leadingDefinitions lines.length (joinLines lines)).2))
  | fenced {marker : FenceMarker} {indent : Nat} {lines : List Text}
      (hLeaf : state.leaf = .fenced marker indent lines) :
      TakesLine gfm line count cursor state { state with
        leaf := .fenced marker indent (withEnding line (cursor.skip indent).2.remainder :: lines) }
  | fenceEnd {marker : FenceMarker} {indent : Nat} {lines : List Text}
      (hLeaf : state.leaf = .fenced marker indent lines) :
      TakesLine gfm line count cursor state state.closeLeaf
  | indented {lines : List Text} (hLeaf : state.leaf = .indented lines) (blank : Bool) :
      TakesLine gfm line count cursor state { state with
        leaf := .indented (withEnding line (cursor.skip 4).2.remainder :: lines)
        blank }
  | html {ending : HtmlEnd} {lines : List Text} (hLeaf : state.leaf = .html ending lines) :
      TakesLine gfm line count cursor state
        { state with leaf := .html ending (withEnding line cursor.remainder :: lines) }
  | htmlEnd {ending : HtmlEnd} {lines : List Text} (hLeaf : state.leaf = .html ending lines) :
      TakesLine gfm line count cursor state
        (closeLeaf { state with leaf := .html ending (withEnding line cursor.remainder :: lines) })
  | row {columns : List Alignment} {header : List Text} {rows : List (List Text)}
      (hLeaf : state.leaf = .table columns header rows) :
      TakesLine gfm line count cursor state { state with
        leaf := .table columns header (fitCells columns.length (tableCells cursor.body) :: rows) }

section

variable (gfm : Bool) (line : SourceLine) (count : Nat) (cursor : Cursor) {state : Structure}

/-- These are all the ways in which an open paragraph takes a line. -/
theorem takesLine_paragraphLine {lines : List Text} (hLeaf : state.leaf = .paragraph lines)
    (same : Bool) :
    state.TakesLine gfm line count cursor (paragraphLine gfm line lines same count cursor state) := by
  unfold paragraphLine
  dsimp only
  split
  · exact .newLine
  split
  · next hTable =>
      split at hTable
      · exact .table hLeaf hTable
      · cases hTable
  split
  · exact .paragraph hLeaf
  split
  · next level _ =>
      split
      · split
        · exact .newLine
        · exact .paragraph hLeaf
      · exact .heading hLeaf level
  · split
    · exact .newLine
    · exact .paragraph hLeaf

end

/-- The line is taken at the place up to which the containers are continued. An empty item that a blank
line follows is not continued. -/
theorem takesLine_step (gfm : Bool) {state : Structure} {line : SourceLine} {matched : Nat}
    {cursor : Cursor} (h : continued state.frames.reverse ⟨0, 0, line.content⟩ = (matched, cursor)) :
    state.TakesLine gfm line
      (if state.emptyItem && cursor.isBlank && matched == state.frames.length then matched - 1
        else matched) cursor (step gfm state line) := by
  unfold step
  rw [h]
  dsimp only
  generalize (if (state.emptyItem && cursor.isBlank && matched == state.frames.length) = true then
    matched - 1 else matched) = count
  split
  · exact .newLine
  · next hLeaf => exact takesLine_paragraphLine _ _ _ _ hLeaf _
  · next hLeaf =>
      split
      · split
        · exact .fenceEnd hLeaf
        · exact .fenced hLeaf
      · exact .newLine
  · next hLeaf =>
      split
      · exact .indented hLeaf true
      · split
        · exact .indented hLeaf false
        · exact .newLine
  · next hLeaf =>
      split
      · split
        · exact .htmlEnd hLeaf
        · exact .html hLeaf
      · exact .newLine
  · next hLeaf =>
      split
      · exact .row hLeaf
      · exact .newLine

/-- The place at which the line is taken stands in it. -/
theorem exists_takesLine_step (gfm : Bool) (state : Structure) (line : SourceLine) :
    ∃ count cursor, cursor.rest.Sublist line.content ∧
      state.TakesLine gfm line count cursor (step gfm state line) :=
  ⟨_, _, continued_sublist state.frames.reverse ⟨0, 0, line.content⟩, takesLine_step gfm rfl⟩

end DirectiveMarkdown.Markdown.Structure
