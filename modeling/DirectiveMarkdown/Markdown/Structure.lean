import DirectiveMarkdown.Markdown.Marker
import DirectiveMarkdown.Markdown.RawHtml
import DirectiveMarkdown.Markdown.Reference

/-! The blocks of a Markdown document, found line by line. The state holds the block quotes and list
items that are still open, the leaf block that the next line may continue, and what is finished. -/
namespace DirectiveMarkdown.Markdown

/-- A list as far as it is written. The items stand last first. -/
structure OpenList where
  mark : Char
  first : Option Nat
  tight : Bool
  items : List (Item Text)

/-- A block quote or a list item that is still open, with its blocks last first. An item carries
the list it stands in. `indent` counts the columns that a line of the item is indented by. -/
inductive Frame where
  | quote (start : Nat) (blocks : List (Block Text))
  | item (list : OpenList) (start indent : Nat) (task : Option Bool) (blocks : List (Block Text))

/-- The leaf block that the next line may continue. Lines stand last first. -/
inductive Leaf where
  | none
  | paragraph (lines : List Text)
  | fenced (marker : FenceMarker) (indent : Nat) (lines : List Text)
  | indented (lines : List Text)
  | html (ending : HtmlEnd) (lines : List Text)
  | table (columns : List Alignment) (header : List Text) (rows : List (List Text))

/-- The state between two lines. `frames` stand innermost first. `waiting` is a list whose last item
is closed and which another item may continue. `blank` tells that a blank line came before, and
`emptyItem` that the last line opened an item and put nothing into it. -/
structure Structure where
  blocks : List (Block Text) := []
  frames : List Frame := []
  waiting : Option OpenList := none
  leaf : Leaf := .none
  blank : Bool := false
  emptyItem : Bool := false
  definitions : Definitions := []

/-- The content of a paragraph in a tight list stands directly in the item. -/
def Block.tighten : Block Text → Block Text
  | .paragraph content => .plain content
  | block => block

def Item.tighten : Item Text → Item Text
  | .mk span task blocks => .mk span task (blocks.map Block.tighten)

def OpenList.finish (list : OpenList) : Block Text :=
  let items := list.items.reverse
  .list list.first (if list.tight then items.map Item.tighten else items)

/-- Exactly as many cells as columns: missing cells are empty, excess cells are dropped. -/
def fitCells (columns : Nat) (cells : List Text) : List Text :=
  cells.take columns ++ List.replicate (columns - cells.length) []

/-- The written lines of a paragraph, one below the other. -/
def joinLines (lines : List Text) : Text := Text.join ['\n'] lines.reverse

namespace Structure

/-- Puts a finished block into the innermost open container. -/
def add (state : Structure) (block : Block Text) : Structure :=
  match state.frames with
  | [] => { state with blocks := block :: state.blocks }
  | .quote start blocks :: outer =>
    { state with frames := .quote start (block :: blocks) :: outer }
  | .item list start indent task blocks :: outer =>
    { state with frames := .item list start indent task (block :: blocks) :: outer }

/-- Ends the leaf block. The definitions that a paragraph starts with are taken out of it, and what
is left makes a block if it is not blank. Blank lines at the end of indented code do not belong to
it. -/
def closeLeaf (state : Structure) : Structure :=
  let rest := { state with leaf := .none }
  match state.leaf with
  | .none => rest
  | .paragraph lines =>
    let (definitions, content) := leadingDefinitions lines.length (joinLines lines)
    let rest := { rest with definitions := rest.definitions ++ definitions }
    if content.all isAsciiBlank then rest else rest.add (.paragraph content)
  | .fenced marker _ lines => rest.add (.code (some (unescape marker.info)) lines.reverse.flatten)
  | .indented lines =>
    rest.add (.code none (lines.dropWhile fun line => line.all isAsciiBlank).reverse.flatten)
  | .html _ lines => rest.add (.html lines.reverse.flatten)
  | .table columns header rows => rest.add (.table columns header rows.reverse)

def finishWaiting (state : Structure) : Structure :=
  match state.waiting with
  | none => state
  | some list => { state with waiting := none }.add list.finish

/-- Makes room for a block that is not an item of the waiting list. A blank line between two blocks
of an item makes its list loose. -/
def beginBlock (state : Structure) : Structure :=
  let state := state.finishWaiting
  if state.blank then
    match state.frames with
    | .item list start indent task blocks :: outer =>
      { state with
        blank := false
        frames := .item { list with tight := false } start indent task blocks :: outer }
    | _ => { state with blank := false }
  else state

/-- Closes the innermost container at an offset. The list of a closed item waits for another one. -/
def closeInnermost (state : Structure) (stop : Nat) : Structure :=
  let state := state.finishWaiting
  match state.frames with
  | [] => state
  | .quote start blocks :: outer =>
    { state with frames := outer }.add (.quote ⟨start, stop⟩ blocks.reverse)
  | .item list start _ task blocks :: outer =>
    { state with
      frames := outer
      waiting := some { list with items := .mk ⟨start, stop⟩ task blocks.reverse :: list.items } }

/-- Closes containers until at most `count` are open. -/
def closeTo (count stop : Nat) : Nat → Structure → Structure
  | 0, state => state
  | fuel + 1, state =>
    if state.frames.length > count then closeTo count stop fuel (state.closeInnermost stop)
    else state

/-- Ends the leaf and all containers but the outermost `count`. -/
def closeUnmatched (state : Structure) (count stop : Nat) : Structure :=
  closeTo count stop state.frames.length state.closeLeaf

end Structure

/-- What a line has to start with to continue a container: the mark of a quote, the indentation of
an item. A blank line continues every item. -/
def Frame.continue? (frame : Frame) (cursor : Cursor) : Option Cursor :=
  match frame with
  | .quote _ _ =>
    let (_, inner) := cursor.skip 3
    match inner.rest with
    | '>' :: _ => if inner.pending = 0 then some ((inner.advance 1).skip 1).2 else none
    | _ => none
  | .item _ _ indent _ _ =>
    let (passed, inner) := cursor.skip indent
    if passed = indent ∨ inner.rest.isEmpty then some inner else none

/-- The number of containers, outermost first, that a line continues, and the place after their
marks. -/
def continued : List Frame → Cursor → Nat × Cursor
  | [], cursor => (0, cursor)
  | frame :: inner, cursor =>
    match frame.continue? cursor with
    | some cursor =>
      let (count, cursor) := continued inner cursor
      (count + 1, cursor)
    | none => (0, cursor)

/-- A list item may start here: a marker that blanks or the end of the line follow, and no thematic
break. -/
def itemMarker? (line : Text) : Option ListMarker :=
  (listMarker? line).bind fun marker =>
    match line.drop marker.width with
    | [] => some marker
    | c :: _ =>
      if isInlineBlank c ∧ ¬(marker.number.isNone ∧ isThematicBreak line) then some marker else none

/-- The line starts a block even where a paragraph could go on. In the paragraph's own container a
list item does so only with content, and an ordered one only with the number one. -/
def interrupts (sameContainer : Bool) (line : Text) : Bool :=
  isThematicBreak line || (atxHeading? line).isSome || (fenceMarker? line).isSome ||
    line.head? == some '>' ||
    (match itemMarker? line with
      | some marker =>
        !sameContainer ||
          ((marker.number.isNone || marker.number == some 1) &&
            !(line.drop marker.width).all isInlineBlank)
      | none => false) ||
    (match line with
      | '<' :: rest => (htmlBlockStart? rest).isSome
      | _ => false)

/-- The last line of a paragraph and a delimiter row with as many cells start a table. -/
def tableStart? (gfm : Bool) (lines : List Text) (cursor : Cursor) :
    Option (List Alignment × List Text) :=
  match lines with
  | header :: _ =>
    if gfm ∧ header.contains '|' ∧ (⟨0, 0, header⟩ : Cursor).indent < 4 ∧ cursor.indent < 4 then
      (delimiterRow? cursor.body).bind fun columns =>
        let cells := tableCells header
        if cells.length = columns.length then some (columns, cells) else none
    else none
  | [] => none

/-- The task list marker after a list marker, if the extension is on. -/
def readTask (gfm : Bool) (cursor : Cursor) : Option (Bool × Cursor) :=
  if gfm then
    let (_, inner) := cursor.skip 3
    (taskMarker? inner.rest).map fun (checked, _) => (checked, inner.advance 3)
  else none

namespace Structure

/-- Opens the list items and block quotes that a line starts with. The result tells the place after
their marks, and that the line is finished. -/
def openContainers (gfm : Bool) (line : SourceLine) :
    Nat → Structure → Cursor → Structure × Cursor × Bool
  | 0, state, cursor => (state, cursor, false)
  | fuel + 1, state, cursor =>
    let (outerIndent, inner) := cursor.skip 4
    if outerIndent ≥ 4 then (state, cursor, false)
    else
      match itemMarker? inner.rest with
      | some marker =>
        let after := inner.advance marker.width
        let empty := after.isBlank
        let width := outerIndent + marker.width + 1
        let (_, spaced) := after.skip 1
        let (more, padded) := spaced.skip 4
        let (indent, content) :=
          if empty ∨ more ≥ 4 then (width, spaced) else (width + more, padded)
        let (task, content) := match readTask gfm content with
          | some (checked, content) => (some checked, content)
          | none => (none, content)
        let (list, state) := match state.waiting with
          | some list =>
            if list.mark = marker.mark then
              ({ list with tight := list.tight && !state.blank }, { state with waiting := none })
            else (⟨marker.mark, marker.number, true, []⟩, state.beginBlock)
          | none => (⟨marker.mark, marker.number, true, []⟩, state.beginBlock)
        let state :=
          { state with
            blank := false
            frames := .item list line.start indent task [] :: state.frames }
        if content.isBlank then ({ state with emptyItem := true }, content, true)
        else openContainers gfm line fuel state content
      | none =>
        match inner.rest with
        | '>' :: _ =>
          let start := line.start + (line.content.length - inner.rest.length)
          let state := state.beginBlock
          openContainers gfm line fuel
            { state with frames := .quote start [] :: state.frames } ((inner.advance 1).skip 1).2
        | _ => (state, cursor, false)

/-- A blank line. It makes the next block of an item, or the next item, a loose one, but not inside
a block quote. -/
def blankLine (state : Structure) : Structure :=
  match state.frames with
  | .quote _ _ :: _ => { state with blank := state.blank || state.waiting.isSome }
  | _ => { state with blank := true }

/-- The text of a line of code or HTML, with its ending. -/
def withEnding (line : SourceLine) (content : Text) : Text :=
  if line.ended then content ++ ['\n'] else content

def openLeaf (line : SourceLine) (state : Structure) (cursor : Cursor) : Structure :=
  let state := state.beginBlock
  let (indent, inner) := cursor.skip 4
  let body := inner.rest
  let html (ending : HtmlEnd) : Structure :=
    let lines := [withEnding line (List.replicate indent ' ' ++ body)]
    let state := { state with leaf := .html ending lines }
    if ending.reachedBy body then state.closeLeaf else state
  let paragraph : Structure := { state with leaf := .paragraph [body] }
  if indent ≥ 4 then { state with leaf := .indented [withEnding line inner.remainder] }
  else if isThematicBreak body then state.add .thematicBreak
  else match atxHeading? body with
    | some (level, content) => state.add (.heading level content)
    | none =>
      match fenceMarker? body with
      | some marker => { state with leaf := .fenced marker indent [] }
      | none =>
        match body with
        | '<' :: rest =>
          match htmlBlockStart? rest with
          | some ending => html ending
          | none => if isTagLine rest then html .blankLine else paragraph
        | _ => paragraph

/-- A line that no leaf block takes: containers that it does not continue are closed, the ones that
it starts are opened, and the rest is blank or starts a leaf block. -/
def newLine (gfm : Bool) (line : SourceLine) (count : Nat) (cursor : Cursor) (state : Structure) :
    Structure :=
  let state := { state.closeUnmatched count line.start with emptyItem := false }
  let (state, cursor, finished) :=
    state.openContainers gfm line (line.content.length + 1) cursor
  if finished then state
  else if cursor.isBlank then state.blankLine
  else openLeaf line state cursor

def paragraphLine (gfm : Bool) (line : SourceLine) (lines : List Text) (same : Bool) (count : Nat)
    (cursor : Cursor) (state : Structure) : Structure :=
  let continue' := { state with leaf := .paragraph (cursor.remainder :: lines) }
  let body := cursor.body
  if cursor.isBlank then newLine gfm line count cursor state
  else match if same then tableStart? gfm lines cursor else none with
    | some (columns, header) =>
      let state := { state with leaf := .paragraph lines.tail }.closeLeaf.beginBlock
      { state with leaf := .table columns header [] }
    | none =>
      if cursor.indent ≥ 4 then continue'
      else
        let heading := if same then setextLevel? body else none
        match heading with
        | some level =>
          let (definitions, content) := leadingDefinitions lines.length (joinLines lines)
          if content.all isAsciiBlank then
            if interrupts same body then newLine gfm line count cursor state else continue'
          else
            { state with leaf := .none, definitions := state.definitions ++ definitions }.add
              (.heading level content)
        | none => if interrupts same body then newLine gfm line count cursor state else continue'

def step (gfm : Bool) (state : Structure) (line : SourceLine) : Structure :=
  let (matched, cursor) := continued state.frames.reverse ⟨0, 0, line.content⟩
  let empties := state.emptyItem && cursor.isBlank && matched == state.frames.length
  let count := if empties then matched - 1 else matched
  let same := count == state.frames.length
  let otherwise := newLine gfm line count cursor state
  match state.leaf with
  | .none => otherwise
  | .paragraph lines => paragraphLine gfm line lines same count cursor state
  | .fenced marker indent lines =>
    if same then
      let (_, inner) := cursor.skip indent
      if cursor.indent < 4 ∧ closesFence marker.mark marker.length cursor.body then state.closeLeaf
      else { state with leaf := .fenced marker indent (withEnding line inner.remainder :: lines) }
    else otherwise
  | .indented lines =>
    if same ∧ cursor.isBlank then
      let (_, inner) := cursor.skip 4
      { state with leaf := .indented (withEnding line inner.remainder :: lines), blank := true }
    else if same ∧ cursor.indent ≥ 4 then
      let (_, inner) := cursor.skip 4
      { state with leaf := .indented (withEnding line inner.remainder :: lines), blank := false }
    else otherwise
  | .html ending lines =>
    if same ∧ ¬(ending = .blankLine ∧ cursor.isBlank) then
      let state :=
        { state with leaf := .html ending (withEnding line cursor.remainder :: lines) }
      if ending.reachedBy cursor.rest then state.closeLeaf else state
    else otherwise
  | .table columns header rows =>
    if same ∧ ¬cursor.isBlank ∧ ¬interrupts false cursor.body then
      let cells := fitCells columns.length (tableCells cursor.body)
      { state with leaf := .table columns header (cells :: rows) }
    else otherwise

def finish (state : Structure) (stop : Nat) : Structure :=
  (state.closeUnmatched 0 stop).finishWaiting

end Structure

/-- The blocks of a document with their content as written, and its link definitions. -/
def structureOf (gfm : Bool) (source : Text) : List (Block Text) × Definitions :=
  let state := ((sourceLines source).foldl (Structure.step gfm) {}).finish source.length
  (state.blocks.reverse, state.definitions)

end DirectiveMarkdown.Markdown
