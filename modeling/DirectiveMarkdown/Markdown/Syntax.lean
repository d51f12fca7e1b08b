import DirectiveMarkdown.Text.Basic

/-! The tree of a Markdown document: blocks of inline content, and the stretches of the source that
block quotes and list items were written in. -/
namespace DirectiveMarkdown.Markdown

/-- A stretch of the source: the offset of its first character and the offset after its last. -/
structure Span where
  start : Nat
  stop : Nat
deriving DecidableEq

def Span.slice (span : Span) (source : Text) : Text :=
  (source.drop span.start).take (span.stop - span.start)

inductive Alignment where
  | unset
  | left
  | center
  | right
deriving DecidableEq

/-- Depth of a heading, counted from zero: there are six. -/
abbrev HeadingLevel := Fin 6

inductive Inline where
  | text (value : Text)
  | softBreak
  | hardBreak
  | code (value : Text)
  | html (value : Text)
  | emphasis (content : List Inline)
  | strong (content : List Inline)
  | strikethrough (content : List Inline)
  | link (url title : Text) (content : List Inline)
  | image (url title : Text) (content : List Inline)

mutual

/-- A block with content of type `α`: text as written while the blocks are found, inline content
afterwards. The content of a paragraph that stands directly in an item of a tight list is `plain`.
-/
inductive Block (α : Type) where
  | paragraph (content : α)
  | plain (content : α)
  | heading (level : HeadingLevel) (content : α)
  | thematicBreak
  | code (info : Option Text) (value : Text)
  | html (value : Text)
  | quote (span : Span) (blocks : List (Block α))
  | list (first : Option Nat) (items : List (Item α))
  | table (columns : List Alignment) (header : List α) (rows : List (List α))

/-- A list item, with its check box if it has one. Its stretch of the source starts with the line
that holds its marker. -/
inductive Item (α : Type) where
  | mk (span : Span) (task : Option Bool) (blocks : List (Block α))

end

mutual

def Block.map {α β : Type} (f : α → β) : Block α → Block β
  | .paragraph content => .paragraph (f content)
  | .plain content => .plain (f content)
  | .heading level content => .heading level (f content)
  | .thematicBreak => .thematicBreak
  | .code info value => .code info value
  | .html value => .html value
  | .quote span blocks => .quote span (Block.mapAll f blocks)
  | .list first items => .list first (Item.mapAll f items)
  | .table columns header rows => .table columns (header.map f) (rows.map (List.map f))

def Block.mapAll {α β : Type} (f : α → β) : List (Block α) → List (Block β)
  | [] => []
  | block :: rest => block.map f :: Block.mapAll f rest

def Item.map {α β : Type} (f : α → β) : Item α → Item β
  | .mk span task blocks => .mk span task (Block.mapAll f blocks)

def Item.mapAll {α β : Type} (f : α → β) : List (Item α) → List (Item β)
  | [] => []
  | item :: rest => item.map f :: Item.mapAll f rest

end

end DirectiveMarkdown.Markdown
