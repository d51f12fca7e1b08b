import DirectiveMarkdown.Proofs.Markdown.AlphabetInlines
import DirectiveMarkdown.Proofs.Markdown.LineReaders
import DirectiveMarkdown.Proofs.Markdown.SourceLines

/-! What is read off a line over an alphabet is over this alphabet: its content behind the marks of
containers, the text of a heading, the cells of a table row. -/
namespace DirectiveMarkdown.Markdown

variable {a : Alphabet}

section Lines

variable {line : Text}

theorem over_readCharacter {c : Char} (h : a.holds c = true) : a.holds (readCharacter c) = true := by
  unfold readCharacter
  split
  · exact a.replacement
  · exact h

/-- The lines of a source have no other characters than the source. -/
theorem over_sourceLinesFrom (start offset : Nat) {line source : Text} (hLine : line.Over a)
    (hSource : source.Over a) :
    ∀ written ∈ sourceLinesFrom start offset line source, written.content.Over a := by
  intro written hWritten c hMem
  obtain hBefore | ⟨d, hRead, rfl⟩ :=
    mem_sourceLinesFrom start offset line source written hWritten c hMem
  · exact hLine c hBefore
  · exact over_readCharacter (hSource d hRead)

theorem over_withEnding {content : Text} (line : SourceLine) (h : content.Over a) :
    (Structure.withEnding line content).Over a := by
  unfold Structure.withEnding
  split
  · exact h.append (List.forall_mem_singleton.2 a.feed)
  · exact h

theorem over_joinLines {lines : List Text} (h : ∀ line ∈ lines, line.Over a) :
    (joinLines lines).Over a :=
  Text.over_join (List.forall_mem_singleton.2 a.feed) fun line hMem => h line (List.mem_reverse.1 hMem)

theorem over_flatten {lines : List Text} (h : ∀ line ∈ lines, line.Over a) :
    Text.Over a lines.reverse.flatten := by
  intro c hMem
  obtain ⟨line, hLine, hMem⟩ := List.mem_flatten.1 hMem
  exact h line (List.mem_reverse.1 hLine) c hMem

theorem over_tableCells (h : line.Over a) : ∀ cell ∈ tableCells line, cell.Over a :=
  fun _ hMem => h.sublist ((List.sublist_flatten_of_mem hMem).trans (flatten_tableCells_sublist line))

/-- Cells that are made up for missing ones are empty. -/
theorem over_fitCells (columns : Nat) {cells : List Text} (h : ∀ cell ∈ cells, cell.Over a) :
    ∀ cell ∈ fitCells columns cells, cell.Over a := by
  refine List.forall_mem_append.2 ⟨fun cell hMem => h cell (List.mem_of_mem_take hMem), ?_⟩
  intro cell hMem
  rw [List.eq_of_mem_replicate hMem]
  exact List.forall_mem_nil _

end Lines

namespace Cursor

variable {cursor : Cursor}

theorem over_skip (n : Nat) (h : cursor.rest.Over a) : (cursor.skip n).2.rest.Over a :=
  h.sublist (skip_sublist n cursor)

theorem over_body (h : cursor.rest.Over a) : cursor.body.Over a :=
  h.sublist (List.dropWhile_sublist _)

/-- What is left of a line may have spaces for columns of a tab. -/
theorem over_remainder (h : cursor.rest.Over a) : cursor.remainder.Over a :=
  (Text.over_replicate _ a.space).append h

end Cursor

end DirectiveMarkdown.Markdown
