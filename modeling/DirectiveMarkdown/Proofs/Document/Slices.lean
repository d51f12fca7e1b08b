import DirectiveMarkdown.Proofs.Document.Content
import DirectiveMarkdown.Proofs.Directive.SearchSlices
import DirectiveMarkdown.Proofs.Section.Slices

/-! List items freed of their markers by byte offsets, and with them all readers that cut a text at
offsets. None of them stops on any text. -/
namespace DirectiveMarkdown

open Text

/-- A line without at most `column` leading spaces, which are counted in bytes. -/
def stripIndentBytes (column : Nat) (line : Text) : Except Panic Text :=
  sliceFrom line (((bytes line).take column).takeWhile (· == 32)).length

/-- The content of a list item, if its first line opens one. A marker or check box is cut off by a
checked access, which finds nothing at an offset where there is no cut. -/
def itemContentBytes (written : Text) (task : Bool) : Except Panic (Option Text) :=
  match lines written with
  | [] => .ok none
  | first :: rest => do
    match ← itemColumnBytes first with
    | none => return none
    | some column =>
      let others ← rest.mapM (stripIndentBytes column)
      return some (stripItemMarker column task first ++ others.flatten)

theorem length_takeWhile_spaceByte (s : Text) :
    ((bytes s).takeWhile (· == 32)).length = (s.takeWhile (· == ' ')).length := by
  refine length_takeWhile_bytes (fun c hAscii => ?_) (fun c hSpace => ?_) (fun b hLarge => ?_) s
  · rw [Bool.eq_iff_iff, beq_iff_eq, beq_iff_eq, ← UInt8.toNat_inj, ← Char.toNat_inj,
      toNat_ofNat_of_ascii hAscii]
    rfl
  · rw [eq_of_beq hSpace]
    decide
  · rw [beq_eq_false_iff_ne]
    rintro rfl
    exact absurd hLarge (by decide)

/-- Indentation is dropped up to the column, or as far as it goes. -/
theorem stripIndent_eq_drop (column : Nat) (line : Text) :
    stripIndent column line = line.drop (min column (leadingSpaces line)) := by
  fun_induction stripIndent column line with
  | case1 column rest ih =>
      have hSpaces : leadingSpaces (' ' :: rest) = leadingSpaces rest + 1 := rfl
      rw [ih, hSpaces, Nat.succ_min_succ, List.drop_succ_cons]
  | case2 column line hOther =>
      have hNone : min column (leadingSpaces line) = 0 := by
        cases column with
        | zero => exact Nat.zero_min _
        | succ column =>
            cases line with
            | nil => rfl
            | cons c rest =>
                have hChar : ¬(c == ' ') = true := fun h =>
                  hOther column rest rfl (by rw [eq_of_beq h])
                rw [leadingSpaces, List.takeWhile_cons_of_neg (p := (· == ' ')) hChar,
                  List.length_nil, Nat.min_zero]
      rw [hNone, List.drop_zero]

/-- The cut behind spaces never fails, since each of them is one byte. -/
theorem stripIndentBytes_eq (column : Nat) (line : Text) :
    stripIndentBytes column line = .ok (stripIndent column line) := by
  rw [stripIndentBytes, ← List.take_takeWhile, List.length_take, length_takeWhile_spaceByte,
    sliceFrom_eq_drop utf8Size_of_beq_space (Nat.min_le_right ..), stripIndent_eq_drop]
  rfl

/-- No cut in the lines of an item fails. -/
theorem itemContentBytes_eq (written : Text) (task : Bool) :
    itemContentBytes written task = .ok (itemContent? written task) := by
  rw [itemContentBytes, itemContent?]
  cases lines written with
  | nil => rfl
  | cons first rest =>
      have hOthers : ∀ column, rest.mapM (stripIndentBytes column) =
          .ok (rest.map (stripIndent column)) := by
        intro column
        rw [funext (stripIndentBytes_eq column)]
        exact List.mapM_pure
      dsimp only
      rw [itemColumnBytes_eq, Panic.ok_bind]
      cases listItemColumn? first with
      | none => rfl
      | some column =>
          dsimp only
          rw [hOthers, Panic.ok_bind, Option.map_some, List.flatMap_def]
          rfl

/-- No slice and no subtraction of offsets stops a reader of directives, attributes, fences, list items
or running text, whatever it reads. A reader that starts inside a text does so where the text can be
cut, and what it tells to be read ends where the text can be cut. -/
theorem readers_never_panic :
    (∀ line, blockLineBytes line = .ok (BlockLine.read? line)) ∧
      (∀ before rest, InlineDirective.findBytes (before ++ rest) (width before) =
        .ok ((InlineDirective.find? before.getLast? rest).map
          (InlineDirective.locate (width before)))) ∧
      (∀ s, ∃ read, directiveBodyBytes s =
          .ok ((readDirectiveBody? s).map fun directive => (directive.1, width read)) ∧
        ∀ directive ∈ readDirectiveBody? s, s = read ++ directive.2.2) ∧
      (∀ opening closing s, ∃ read, s = read ++ (delimited opening closing s).2 ∧
        delimitedBytes opening closing s = .ok ((delimited opening closing s).1, width read)) ∧
      (∀ label attributeList, Arguments.readBytes label attributeList =
        .ok (Arguments.read label attributeList)) ∧
      (∀ lines, CodeFence.afterBytes none lines =
        .ok (lines.foldl (fun fence line => (CodeFence.next fence line).2) none)) ∧
      (∀ line, itemColumnBytes line = .ok (listItemColumn? line)) ∧
      (∀ written task, itemContentBytes written task = .ok (itemContent? written task)) ∧
      (∀ label before rest, splitTextBytes label (before ++ rest) (width before) =
        .ok (splitTextUpTo label rest.length before.getLast? rest)) ∧
      ∀ source, Section.splitBytes source = .ok (Section.split source) := by
  refine ⟨blockLineBytes_eq, InlineDirective.findBytes_eq, fun s => ?_, exists_delimitedBytes,
    Arguments.readBytes_eq, CodeFence.afterBytes_eq CodeFence.hasMark_none, itemColumnBytes_eq,
    itemContentBytes_eq, fun label before rest => splitTextBytes_eq label before rest le_rfl,
    Section.splitBytes_eq⟩
  obtain ⟨hNone, hBytes⟩ | ⟨body, pieces, after, hSome, hText, hBytes⟩ := exists_directiveBodyBytes s
  · refine ⟨[], ?_, fun directive hMem => ?_⟩
    · rw [hBytes, hNone, Option.map_none]
    · rw [hNone] at hMem
      cases hMem
  · refine ⟨body.name ++ pieces, ?_, fun directive hMem => ?_⟩
    · rw [hBytes, hSome, Option.map_some, width_append]
    · rw [hSome] at hMem
      cases hMem
      rw [hText, List.append_assoc]

end DirectiveMarkdown
