import DirectiveMarkdown.Directive.BlockLine
import DirectiveMarkdown.Directive.Inline
import DirectiveMarkdown.Proofs.Directive.Arguments

/-! Directives written as lines or into running text, and what is read from these. -/
namespace DirectiveMarkdown

theorem mem_head?_enclose {opening closing c : Char} {s rest : Text}
    (h : c ∈ (enclose opening closing s ++ rest).head?) : c = opening ∨ c ∈ rest.head? := by
  cases s with
  | nil => exact .inr h
  | cons d s => exact .inl (Option.some.inj h).symm

theorem endsSolid_enclose {opening closing : Char} (h : isBlank closing = false) (s : Text) :
    (enclose opening closing s).EndsSolid := by
  cases s with
  | nil => simp [enclose, Text.EndsSolid]
  | cons c s =>
      have hClosing : Text.EndsSolid [closing] := by simpa [Text.EndsSolid] using h
      exact hClosing.append (List.cons_ne_nil _ _) (opening :: c :: s)

theorem newline_not_mem_enclose {opening closing : Char} (hOpening : '\n' ≠ opening)
    (hClosing : '\n' ≠ closing) {s : Text} (h : '\n' ∉ s) : '\n' ∉ enclose opening closing s := by
  cases s with
  | nil => exact List.not_mem_nil
  | cons c s =>
      intro hMem
      rcases List.mem_cons.1 hMem with hEq | hMem
      · exact hOpening hEq
      · rcases List.mem_append.1 hMem with hMem | hMem
        · exact h hMem
        · exact hClosing (List.mem_singleton.1 hMem)

/-- The characters of a name neither end it nor are white space. -/
theorem endsDirectiveName_of_mem {name : Text} (h : isDirectiveName name = true) {c : Char}
    (hMem : c ∈ name) : endsDirectiveName c = false := by
  rw [isDirectiveName, Bool.and_eq_true, List.all_eq_true] at h
  have hChar := h.2 c hMem
  simp only [Bool.or_eq_true, beq_iff_eq] at hChar
  rcases hChar with (hWord | rfl) | rfl
  · have hBracket : c ≠ '[' := by rintro rfl; revert hWord; decide
    have hBrace : c ≠ '{' := by rintro rfl; revert hWord; decide
    simp [endsDirectiveName, hBracket, hBrace, isBlank_of_isWordChar hWord]
  · rfl
  · rfl

theorem isBlank_of_mem_name {name : Text} (h : isDirectiveName name = true) {c : Char}
    (hMem : c ∈ name) : isBlank c = false := by
  have hEnds := endsDirectiveName_of_mem h hMem
  simp only [endsDirectiveName, Bool.or_eq_false_iff] at hEnds
  exact hEnds.2

/-- Names start with a letter, which the colons before them end at. -/
theorem exists_cons_of_isDirectiveName {name : Text} (h : isDirectiveName name = true) :
    ∃ c rest, name = c :: rest ∧ c ≠ ':' := by
  cases name with
  | nil => cases h
  | cons c rest =>
      refine ⟨c, rest, rfl, ?_⟩
      rintro rfl
      revert h
      simp [isDirectiveName, show isLetter ':' = false from rfl]

namespace DirectiveBody

def print (directive : DirectiveBody) : Text :=
  directive.name ++ (enclose '[' ']' directive.arguments.label ++
    enclose '{' '}' directive.arguments.attributeList)

/-- The conditions under which a directive can be written so that it is read again. -/
structure Printable (directive : DirectiveBody) : Prop where
  name : isDirectiveName directive.name = true
  arguments : directive.arguments.Printable

variable {directive : DirectiveBody}

/-- A printed directive is read as it was, with nothing left. -/
theorem Printable.read (h : directive.Printable) :
    readDirectiveBody? directive.print =
      some (directive, enclose '[' ']' directive.arguments.label ++
        enclose '{' '}' directive.arguments.attributeList, []) := by
  have hName : ∀ c ∈ directive.name, (!endsDirectiveName c) = true :=
    fun c hMem => by rw [endsDirectiveName_of_mem h.name hMem]; rfl
  have hStop : ∀ c ∈ (enclose '[' ']' directive.arguments.label ++
      enclose '{' '}' directive.arguments.attributeList).head?, (!endsDirectiveName c) = false := by
    intro c hMem
    rcases mem_head?_enclose hMem with rfl | hMem
    · rfl
    · rw [← List.append_nil (enclose ..)] at hMem
      rcases mem_head?_enclose hMem with rfl | hMem
      · rfl
      · cases hMem
  have hBrace : (enclose '{' '}' directive.arguments.attributeList).head? ≠ some '[' := by
    intro hHead
    rw [← List.append_nil (enclose ..)] at hHead
    rcases mem_head?_enclose hHead with hEq | hMem
    · cases hEq
    · cases hMem
  have hLabel := delimited_enclose (by decide) h.arguments.label hBrace
  have hList := delimited_enclose (show '}' ≠ '{' by decide) h.arguments.attributes
    (show ([] : Text).head? ≠ some '{' by simp)
  rw [List.append_nil] at hList
  rw [readDirectiveBody?, print, Text.takeWhile_append_stop hName hStop,
    Text.dropWhile_append_stop hName hStop]
  simp only [h.name, if_true, hLabel, hList, Arguments.read_attributeList h.arguments.entries]

theorem Printable.endsSolid (h : directive.Printable) : directive.print.EndsSolid :=
  Text.endsSolid_append (Text.endsSolid_of_all fun _ hMem => isBlank_of_mem_name h.name hMem)
    (Text.endsSolid_append (endsSolid_enclose rfl _) (endsSolid_enclose rfl _))

theorem Printable.newline_not_mem (h : directive.Printable) : '\n' ∉ directive.print := by
  have hName : '\n' ∉ directive.name := by
    intro hMem
    cases isBlank_of_mem_name h.name hMem
  simp only [print, List.mem_append, not_or]
  exact ⟨hName, newline_not_mem_enclose (by decide) (by decide) h.arguments.line.1,
    newline_not_mem_enclose (by decide) (by decide) h.arguments.line.2⟩

def labelled (name label : Text) : DirectiveBody := ⟨name, { label }⟩

theorem print_labelled {name label : Text} (hNe : label ≠ []) :
    (labelled name label).print = name ++ '[' :: (label ++ [']']) := by
  have hLabel : enclose '[' ']' label = '[' :: (label ++ [']']) := if_neg (by simpa using hNe)
  have hList : enclose '{' '}' (Arguments.attributeList { label }) = [] := rfl
  rw [print, labelled, hLabel, hList, List.append_nil]

/-- A directive with a label of one line without brackets can be printed. -/
theorem printable_labelled {name label : Text} (hName : isDirectiveName name = true)
    (hOpening : '[' ∉ label) (hClosing : ']' ∉ label) (hFeed : '\n' ∉ label) :
    (labelled name label).Printable where
  name := hName
  arguments :=
    { label := isBalanced_of_not_mem hOpening hClosing
      attributes := rfl
      entries := List.forall_mem_nil _
      line := ⟨hFeed, List.not_mem_nil⟩ }

end DirectiveBody

/-- A directive whose name starts with an ASCII letter and that has a label or an attribute list is
found right where it stands in a text. -/
theorem InlineDirective.find?_print {directive : DirectiveBody} (h : directive.Printable)
    (hLetter : ∃ c ∈ directive.name.head?, c.isAlpha = true) (hMore : directive.print ≠ directive.name)
    {previous : Option Char} (hPrevious : mayFollow previous = true) :
    find? previous (':' :: directive.print) = some ⟨[], directive, ':' :: directive.print, []⟩ := by
  obtain ⟨c, hHead, hAlpha⟩ := hLetter
  have hFirst : (directive.print.head?.map Char.isAlpha).getD false = true := by
    rw [DirectiveBody.print, List.head?_append, Option.mem_def.1 hHead]
    exact hAlpha
  have hAfter : ([] : Text).length < (enclose '[' ']' directive.arguments.label ++
      enclose '{' '}' directive.arguments.attributeList).length := by
    refine List.length_pos_iff.2 fun hNil => hMore ?_
    rw [DirectiveBody.print, hNil, List.append_nil]
  have hRead : readAt? directive.print = some (directive, directive.print, []) := by
    rw [readAt?, if_pos hFirst, h.read, Option.bind_some]
    simp only [List.length_nil, Nat.sub_zero, List.take_length]
    exact if_pos hAfter
  rw [find?, if_pos ⟨rfl, hPrevious⟩, hRead]

namespace BlockLine

def print : BlockLine → Text
  | leaf directive => List.replicate 2 ':' ++ directive.print
  | opening colons directive => List.replicate colons ':' ++ directive.print
  | closing colons => List.replicate colons ':'

/-- The conditions under which a directive can be written as a line that is read again. -/
def Printable : BlockLine → Prop
  | leaf directive => directive.Printable
  | opening colons directive => 3 ≤ colons ∧ directive.Printable
  | closing colons => 3 ≤ colons

/-- A line is read by its indentation, the number of its colons and what follows these. -/
theorem read?_divided (indent colons : Nat) {body ending : Text}
    (hStart : (List.replicate colons ':' ++ body ++ ending).head? ≠ some ' ')
    (hHead : body.head? ≠ some ':') (hSolid : body.EndsSolid)
    (hEnding : Text.isBlankText ending = true) :
    read? (List.replicate indent ' ' ++ (List.replicate colons ':' ++ body ++ ending)) =
      if indent > 3 then none
      else if colons < 2 then none
      else if body.isEmpty then if colons ≥ 3 then some (.closing colons) else none
      else (readDirectiveBody? body).bind fun (directive, _, after) =>
        if Text.isBlankText after then
          if colons = 2 then some (.leaf directive) else some (.opening colons directive)
        else none := by
  have hTake (n : Nat) (mark : Char) {rest : Text} (hRest : rest.head? ≠ some mark) :
      (List.replicate n mark ++ rest).takeWhile (· == mark) = List.replicate n mark := by
    refine Text.takeWhile_append_stop ?_ ?_
    · intro c hMem
      simp [List.eq_of_mem_replicate hMem]
    · intro c hMem
      have hNe : c ≠ mark := fun hEq => hRest (hEq ▸ hMem)
      simpa using hNe
  have hDrop (n : Nat) (mark : Char) (rest : Text) :
      (List.replicate n mark ++ rest).drop n = rest := List.drop_left' List.length_replicate
  have hColon : Text.EndsSolid (List.replicate colons ':') :=
    Text.endsSolid_of_all fun c hMem => by rw [List.eq_of_mem_replicate hMem]; rfl
  have hTrim : Text.trimEnd (List.replicate colons ':' ++ body ++ ending) =
      List.replicate colons ':' ++ body :=
    Text.trimEnd_append (Text.endsSolid_append hColon hSolid) hEnding
  rw [BlockLine.read?]
  simp only [hTake _ _ hStart, List.length_replicate, hDrop, hTrim, hTake _ _ hHead]

/-- A line without indentation is read by the number of its colons and what follows these. -/
theorem read?_replicate {colons : Nat} (hColons : 2 ≤ colons) {body ending : Text}
    (hHead : body.head? ≠ some ':') (hSolid : body.EndsSolid)
    (hEnding : Text.isBlankText ending = true) :
    read? (List.replicate colons ':' ++ body ++ ending) =
      if body.isEmpty then if colons ≥ 3 then some (.closing colons) else none
      else (readDirectiveBody? body).bind fun (directive, _, after) =>
        if Text.isBlankText after then
          if colons = 2 then some (.leaf directive) else some (.opening colons directive)
        else none := by
  have hStart : (List.replicate colons ':' ++ body ++ ending).head? ≠ some ' ' := by
    obtain ⟨more, rfl⟩ : ∃ more, colons = more + 1 := ⟨colons - 1, by omega⟩
    simp [List.replicate_succ]
  have hRead := read?_divided 0 colons hStart hHead hSolid hEnding
  rw [if_neg (by omega), if_neg (by omega)] at hRead
  exact hRead

/-- A directive after colons is read with their number. -/
theorem read?_directive {colons : Nat} (hColons : 2 ≤ colons) {directive : DirectiveBody}
    (h : directive.Printable) {ending : Text} (hEnding : Text.isBlankText ending = true) :
    read? (List.replicate colons ':' ++ directive.print ++ ending) =
      if colons = 2 then some (.leaf directive) else some (.opening colons directive) := by
  obtain ⟨c, rest, hName, hNe⟩ := exists_cons_of_isDirectiveName h.name
  have hCons : ∃ more, directive.print = c :: more := by
    rw [DirectiveBody.print, hName]
    exact ⟨_, rfl⟩
  obtain ⟨more, hCons⟩ := hCons
  have hHead : directive.print.head? ≠ some ':' := by
    rw [hCons]
    exact fun hEq => hNe (Option.some.inj hEq)
  have hNotEmpty : directive.print.isEmpty = false := by rw [hCons]; rfl
  rw [read?_replicate hColons hHead h.endsSolid hEnding, hNotEmpty, h.read]
  rfl

variable {line : BlockLine}

/-- A printed directive is read as it was. -/
theorem Printable.read? (h : line.Printable) :
    BlockLine.read? (line.print ++ ['\n']) = some line := by
  cases line with
  | leaf directive => exact (read?_directive (Nat.le_refl 2) h rfl).trans (if_pos rfl)
  | opening colons directive =>
      have hColons : 3 ≤ colons := h.1
      exact (read?_directive (by omega) h.2 rfl).trans (if_neg (by omega))
  | closing colons =>
      have hColons : 3 ≤ colons := h
      have hRead := read?_replicate (show 2 ≤ colons by omega) (show ([] : Text).head? ≠ some ':' by simp)
        (show Text.EndsSolid [] by simp [Text.EndsSolid]) (show Text.isBlankText ['\n'] = true from rfl)
      rw [List.append_nil] at hRead
      exact hRead.trans (if_pos hColons)

/-- A printed directive starts with a colon and is one line. -/
theorem Printable.exists_cons (h : line.Printable) :
    ∃ rest, line.print = ':' :: rest ∧ '\n' ∉ line.print := by
  have hColons (colons : Nat) : '\n' ∉ List.replicate colons ':' := by
    intro hMem
    cases List.eq_of_mem_replicate hMem
  cases line with
  | leaf directive =>
      refine ⟨_, rfl, ?_⟩
      rw [print, List.mem_append, not_or]
      exact ⟨hColons 2, DirectiveBody.Printable.newline_not_mem h⟩
  | opening colons directive =>
      have hLeast : 3 ≤ colons := h.1
      obtain ⟨more, rfl⟩ : ∃ more, colons = more + 1 := ⟨colons - 1, by omega⟩
      refine ⟨_, rfl, ?_⟩
      rw [print, List.mem_append, not_or]
      exact ⟨hColons _, h.2.newline_not_mem⟩
  | closing colons =>
      have hLeast : 3 ≤ colons := h
      obtain ⟨more, rfl⟩ : ∃ more, colons = more + 1 := ⟨colons - 1, by omega⟩
      exact ⟨_, rfl, hColons _⟩

end BlockLine

end DirectiveMarkdown
