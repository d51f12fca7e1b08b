import DirectiveMarkdown.ListColumns
import DirectiveMarkdown.Document.Assembly

/-! The content of block quotes and list items as a source of its own. Markdown knows no directives,
so the content of a container that may hold some is cut out, freed of its markers and read again. -/
namespace DirectiveMarkdown

open Markdown

/-- A line of a block quote without its marker. A line without marker goes on with a paragraph and
stays as it is. -/
def stripQuoteMarker (line : Text) : Text :=
  match line.dropWhile isInlineBlank with
  | '>' :: ' ' :: rest => rest
  | '>' :: rest => rest
  | _ => line

def quoteContent (written : Text) : Text := (Text.lines written).flatMap stripQuoteMarker

/-- The first line of a list item without its marker, whose content starts at the given column, and
without its check box. -/
def stripItemMarker (column : Nat) (task : Bool) (line : Text) : Text :=
  let content := ((Text.splitAtByte? line column).map Prod.snd).getD []
  if task ∧ content.head? = some '[' then
    (((Text.splitAtByte? content 3).map Prod.snd).getD []).dropWhile isInlineBlank
  else content

/-- A line without at most `column` leading spaces. -/
def stripIndent : Nat → Text → Text
  | column + 1, ' ' :: rest => stripIndent column rest
  | _, line => line

/-- The content of a list item, if its first line opens one. -/
def itemContent? (written : Text) (task : Bool) : Option Text :=
  match Text.lines written with
  | [] => none
  | first :: rest =>
    (listItemColumn? first).map fun column =>
      stripItemMarker column task first ++ rest.flatMap (stripIndent column)

/-- The events before the end of the element that is open, if it ends. `depth` elements inside it
are open. -/
def innerEvents? (depth : Nat) : List Event → Option (List Event)
  | [] => none
  | event :: rest =>
    match event with
    | .start _ => (innerEvents? (depth + 1) rest).map (event :: ·)
    | .stop _ =>
      match depth with
      | 0 => some []
      | depth + 1 => (innerEvents? depth rest).map (event :: ·)
    | _ => (innerEvents? depth rest).map (event :: ·)

/-- The state of a list item's own check box, which comes before any list inside the item. -/
def taskState? : List Event → Option Bool
  | [] => none
  | .start (.list _) :: _ => none
  | .taskMarker checked :: _ => some checked
  | _ :: rest => taskState? rest

/-- A paragraph stands directly in the element, which therefore is an item of a loose list. -/
def hasParagraph (depth : Nat) : List Event → Bool
  | [] => false
  | .start tag :: rest => (depth == 0 && tag == .paragraph) || hasParagraph (depth + 1) rest
  | .stop _ :: rest => hasParagraph (depth - 1) rest
  | _ :: rest => hasParagraph depth rest

/-- Nodes with the paragraphs among them replaced by their children. -/
def unwrapParagraphs (nodes : List Node) : List Node :=
  nodes.flatMap fun node => if node.kind = .paragraph then node.children else [node]

/-- What stands behind the last line feed of a text. -/
def Text.lastLine (s : Text) : Text := (s.reverse.takeWhile (· != '\n')).reverse

/-- The characters of the source in a stretch, and those before it on its first line. Only a line feed
ends this line, while Markdown ends one at a carriage return as well. -/
def Markdown.Span.sliceLines (span : Span) (source : Text) : Text :=
  Text.lastLine (source.take span.start) ++ span.slice source

/-- Reads a block quote or a list item again, with `read` for its content, if two colons stand
together in it. There is no answer if its markers cannot be removed. -/
def reread? (read : Text → List Node) (source : Text) (tag : Tag) (inner : List Event) :
    Option Node :=
  match tag with
  | .quote span =>
    let written := span.slice source
    let content := quoteContent written
    if Text.hasDoubleColon written ∧ Text.width content < Text.width written then
      some { kind := .blockQuote, children := read content }
    else none
  | .item span =>
    if Text.hasDoubleColon (span.slice source) then
      let task := taskState? inner
      (itemContent? (span.sliceLines source) task.isSome).map fun content =>
        let children := read content
        let item : Node :=
          { kind := .listItem
            children := if hasParagraph 0 inner then children else unwrapParagraphs children }
        match task with
        | some checked => item.withAttribute (text "checked") (Node.checkedValue checked)
        | none => item
    else none
  | _ => none

/-- The nodes of a sequence of events. Elements that `reread` answers for become its answer. `skip`
counts the open elements of the one that was answered for last. -/
def assemble (reread : Tag → List Event → Option Node) : Nat → Assembly → List Event → Assembly
  | _, assembly, [] => assembly
  | 0, assembly, .start tag :: rest =>
    match (innerEvents? 0 rest).bind (reread tag) with
    | some node => assemble reread 1 (assembly.push node) rest
    | none => assemble reread 0 (assembly.step (.start tag)) rest
  | 0, assembly, event :: rest => assemble reread 0 (assembly.step event) rest
  | skip + 1, assembly, .start _ :: rest => assemble reread (skip + 2) assembly rest
  | skip + 1, assembly, .stop _ :: rest => assemble reread skip assembly rest
  | skip + 1, assembly, _ :: rest => assemble reread (skip + 1) assembly rest

/-- The nodes of a run of Markdown, with `read` for the content of quotes and items that may hold
directives. -/
def markdownNodes (gfm : Bool) (read : Text → List Node) (source : Text) : List Node :=
  (assemble (reread? read source) 0 {} (events gfm source)).finish

end DirectiveMarkdown
