import DirectiveMarkdown.CodeFence
import DirectiveMarkdown.ListColumns
import DirectiveMarkdown.Directive.BlockLine

/-! A source divided into runs of Markdown and block directives. -/
namespace DirectiveMarkdown

inductive Section where
  | markdown (source : Text)
  | leaf (directive : DirectiveBody)
  | container (directive : DirectiveBody) (content : List Section)

/-- What decides how the next line is read: the open fence and the open list items. -/
structure LineScanner where
  fence : Option CodeFence := none
  list : ListColumns := {}
deriving DecidableEq

/-- Reads one line. Lines of fenced code and of list items hold no directive. After a directive no
list item is open. -/
def LineScanner.next (scanner : LineScanner) (line : Text) : Option BlockLine × LineScanner :=
  let (marked, fence) := CodeFence.next scanner.fence line
  if marked || fence.isSome then (none, ⟨fence, scanner.list⟩)
  else
    let (inList, list) := scanner.list.next line
    if inList then (none, ⟨fence, list⟩)
    else match BlockLine.read? line with
      | some directive => (some directive, ⟨fence, {}⟩)
      | none => (none, ⟨fence, list⟩)

/-- The lines of a source, each with the directive that it holds. -/
def scanLines (scanner : LineScanner) : List Text → List (Option BlockLine × Text)
  | [] => []
  | line :: rest =>
    let (directive, scanner) := scanner.next line
    (directive, line) :: scanLines scanner rest

/-- A container that is open, or the whole document: the number of colons that opened it, its
finished content, last first, and the Markdown read since. -/
structure OpenSection where
  colons : Nat
  directive : DirectiveBody
  content : List Section := []
  pending : Text := []

namespace OpenSection

/-- Ends the pending Markdown. White space alone is dropped. -/
def flush (frame : OpenSection) : OpenSection :=
  if Text.isBlankText frame.pending then { frame with pending := [] }
  else { frame with content := .markdown frame.pending :: frame.content, pending := [] }

def sections (frame : OpenSection) : List Section := frame.flush.content.reverse

/-- Puts a finished section after the pending Markdown. -/
def push (frame : OpenSection) (piece : Section) : OpenSection :=
  let frame := frame.flush
  { frame with content := piece :: frame.content }

def close (frame : OpenSection) : Section := .container frame.directive frame.sections

def document : OpenSection := { colons := 0, directive := ⟨[], {}⟩ }

end OpenSection

/-- The innermost open container and the ones around it, innermost first. The last one is the
document. -/
structure OpenSections where
  top : OpenSection
  outer : List OpenSection

namespace OpenSections

/-- Closes the innermost container, unless it is the document. -/
def closeTop (state : OpenSections) : OpenSections :=
  match state.outer with
  | [] => state
  | parent :: outer =>
    ⟨{ parent with content := state.top.close :: parent.content }, outer⟩

def addLine (state : OpenSections) (line : Text) : OpenSections :=
  { state with top := { state.top with pending := state.top.pending ++ line } }

/-- Takes a line with the directive that it holds. A closing line closes the innermost container if
this was opened with no more colons. Any other closing line is Markdown. -/
def next (state : OpenSections) (entry : Option BlockLine × Text) : OpenSections :=
  match entry.1 with
  | some (.leaf directive) => { state with top := state.top.push (.leaf directive) }
  | some (.opening colons directive) =>
    ⟨{ colons, directive }, state.top.flush :: state.outer⟩
  | some (.closing colons) =>
    if !state.outer.isEmpty && state.top.colons ≤ colons then state.closeTop
    else state.addLine entry.2
  | none => state.addLine entry.2

/-- Closes all containers that are still open. -/
def closeAll (top : OpenSection) : List OpenSection → List Section
  | [] => top.sections
  | parent :: outer => closeAll { parent with content := top.close :: parent.content } outer

def finish (state : OpenSections) : List Section := closeAll state.top state.outer

end OpenSections

def Section.split (source : Text) : List Section :=
  ((scanLines {} (Text.lines source)).foldl OpenSections.next ⟨.document, []⟩).finish

end DirectiveMarkdown
