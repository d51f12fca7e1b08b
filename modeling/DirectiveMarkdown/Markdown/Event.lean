import DirectiveMarkdown.Markdown.Inline
import DirectiveMarkdown.Markdown.Structure

/-! A Markdown document as a sequence of events: the start and end of each element and the text
between them. -/
namespace DirectiveMarkdown.Markdown

/-- What an element is. Block quotes and list items tell which stretch of the source they were
written in. -/
inductive Tag where
  | paragraph
  | heading (level : HeadingLevel)
  | quote (span : Span)
  | code (info : Option Text)
  | htmlBlock
  | list (first : Option Nat)
  | item (span : Span)
  | table (columns : List Alignment)
  | tableHead
  | tableRow
  | tableCell
  | emphasis
  | strong
  | strikethrough
  | link (url title : Text)
  | image (url title : Text)
deriving DecidableEq

inductive Event where
  | start (tag : Tag)
  | stop (tag : Tag)
  | text (value : Text)
  | code (value : Text)
  | html (value : Text)
  | softBreak
  | hardBreak
  | thematicBreak
  | taskMarker (checked : Bool)
deriving DecidableEq

/-- The events between the start and the end of an element, with these two. -/
def Tag.around (tag : Tag) (inner : List Event) : List Event :=
  .start tag :: inner ++ [.stop tag]

mutual

def Inline.events : Inline → List Event
  | .text value => [.text value]
  | .softBreak => [.softBreak]
  | .hardBreak => [.hardBreak]
  | .code value => [.code value]
  | .html value => [.html value]
  | .emphasis content => Tag.emphasis.around (Inline.allEvents content)
  | .strong content => Tag.strong.around (Inline.allEvents content)
  | .strikethrough content => Tag.strikethrough.around (Inline.allEvents content)
  | .link url title content => (Tag.link url title).around (Inline.allEvents content)
  | .image url title content => (Tag.image url title).around (Inline.allEvents content)

def Inline.allEvents : List Inline → List Event
  | [] => []
  | inline :: rest => inline.events ++ Inline.allEvents rest

end

def cellEvents (cells : List (List Inline)) : List Event :=
  cells.flatMap fun cell => Tag.tableCell.around (Inline.allEvents cell)

mutual

def Block.events : Block (List Inline) → List Event
  | .paragraph content => Tag.paragraph.around (Inline.allEvents content)
  | .plain content => Inline.allEvents content
  | .heading level content => (Tag.heading level).around (Inline.allEvents content)
  | .thematicBreak => [.thematicBreak]
  | .code info value => (Tag.code info).around (if value.isEmpty then [] else [.text value])
  | .html value => Tag.htmlBlock.around [.html value]
  | .quote span blocks => (Tag.quote span).around (Block.allEvents blocks)
  | .list first items => (Tag.list first).around (Item.allEvents items)
  | .table columns header rows =>
    (Tag.table columns).around
      (Tag.tableHead.around (cellEvents header) ++
        rows.flatMap fun row => Tag.tableRow.around (cellEvents row))

def Block.allEvents : List (Block (List Inline)) → List Event
  | [] => []
  | block :: rest => block.events ++ Block.allEvents rest

def Item.events : Item (List Inline) → List Event
  | .mk span task blocks =>
    (Tag.item span).around
      ((match task with
        | some checked => [.taskMarker checked]
        | none => []) ++ Block.allEvents blocks)

def Item.allEvents : List (Item (List Inline)) → List Event
  | [] => []
  | item :: rest => item.events ++ Item.allEvents rest

end

/-- The blocks of a document. The extensions are tables, strikethrough and task lists. -/
def blocks (gfm : Bool) (source : Text) : List (Block (List Inline)) :=
  let (blocks, definitions) := structureOf gfm source
  Block.mapAll (inlines gfm definitions) blocks

def events (gfm : Bool) (source : Text) : List Event := Block.allEvents (blocks gfm source)

end DirectiveMarkdown.Markdown
