import DirectiveMarkdown.Directive.Body
import DirectiveMarkdown.Proofs.Directive.Entries
import DirectiveMarkdown.Proofs.TextMap

/-! Arguments of directives written as labels and attribute lists, and what is read from these. The
reader knows neither escapes nor quotation marks when it looks for the end of a label or of an
attribute list, so only those can be written whose own delimiters balance. -/
namespace DirectiveMarkdown

/-- The delimiters in a text balance, with `depth` of them open before it. -/
def isBalanced (opening closing : Char) (depth : Nat) : Text → Bool
  | [] => depth == 0
  | c :: rest =>
    if c = opening then isBalanced opening closing (depth + 1) rest
    else if c = closing then depth != 0 && isBalanced opening closing (depth - 1) rest
    else isBalanced opening closing depth rest

/-- A text in delimiters, or nothing if the text is empty. -/
def enclose (opening closing : Char) (s : Text) : Text :=
  if s.isEmpty then [] else opening :: (s ++ [closing])

/-- A text without delimiters is balanced. -/
theorem isBalanced_of_not_mem {opening closing : Char} {s : Text} (hOpening : opening ∉ s)
    (hClosing : closing ∉ s) : isBalanced opening closing 0 s = true := by
  induction s with
  | nil => rfl
  | cons c s ih =>
      rw [List.mem_cons, not_or] at hOpening hClosing
      rw [isBalanced, if_neg (Ne.symm hOpening.1), if_neg (Ne.symm hClosing.1)]
      exact ih hOpening.2 hClosing.2

/-- A balanced text is read up to the closing delimiter behind it. -/
theorem delimitedBody?_append {opening closing : Char} (hNe : closing ≠ opening) {depth : Nat}
    {s : Text} (h : isBalanced opening closing depth s = true) (rest : Text) :
    delimitedBody? opening closing depth (s ++ closing :: rest) = some (s, rest) := by
  induction s generalizing depth with
  | nil =>
      obtain rfl : depth = 0 := by simpa [isBalanced] using h
      simp [delimitedBody?, hNe]
  | cons c s ih =>
      rw [isBalanced] at h
      by_cases hOpening : c = opening
      · rw [if_pos hOpening] at h
        simp [delimitedBody?, hOpening, ih h]
      · rw [if_neg hOpening] at h
        by_cases hClosing : c = closing
        · rw [if_pos hClosing] at h
          cases depth with
          | zero => cases h
          | succ depth =>
              have hInner : isBalanced opening closing depth s = true := by simpa using h
              simp [delimitedBody?, hClosing, hNe, ih hInner]
        · rw [if_neg hClosing] at h
          simp [delimitedBody?, hOpening, hClosing, ih h]

/-- A balanced text is read from between its delimiters. -/
theorem delimited_enclose {opening closing : Char} (hNe : closing ≠ opening) {s : Text}
    (h : isBalanced opening closing 0 s = true) {rest : Text} (hRest : rest.head? ≠ some opening) :
    delimited opening closing (enclose opening closing s ++ rest) = (s, rest) := by
  cases s with
  | nil =>
      cases rest with
      | nil => rfl
      | cons c rest =>
          have hChar : c ≠ opening := fun hEq => hRest (congrArg some hEq)
          simp [enclose, delimited, hChar]
  | cons c s =>
      have hBody := delimitedBody?_append hNe h rest
      simp only [enclose, List.isEmpty_cons, Bool.false_eq_true, if_false, delimited,
        List.cons_append, List.append_assoc, List.nil_append, if_true] at hBody ⊢
      rw [hBody]
      rfl

namespace Arguments

def quote (value : Text) : Text :=
  if '"' ∉ value then '"' :: (value ++ ['"'])
  else if '\'' ∉ value then '\'' :: (value ++ ['\''])
  else value

/-- The value can be quoted, or it is read without quotation marks as well. -/
def IsQuotable (value : Text) : Prop :=
  '"' ∉ value ∨ '\'' ∉ value ∨
    (∀ c ∈ value.head?, c ≠ '"' ∧ c ≠ '\'') ∧ ∀ c ∈ value, isBlank c = false

/-- A value stands in quotation marks, or it holds no white space and starts with none of them. -/
theorem IsQuotable.quote_cases {value : Text} (h : IsQuotable value) :
    (∃ mark, (mark = '"' ∨ mark = '\'') ∧ mark ∉ value ∧
      quote value = mark :: (value ++ [mark])) ∨
    (∃ c rest, value = c :: rest ∧ quote value = value ∧ (c ≠ '"' ∧ c ≠ '\'') ∧
      ∀ c ∈ value, isBlank c = false) := by
  by_cases hDouble : '"' ∈ value
  · by_cases hSingle : '\'' ∈ value
    · obtain h | h | ⟨hHead, hSolid⟩ := h
      · exact absurd hDouble h
      · exact absurd hSingle h
      · cases value with
        | nil => cases hDouble
        | cons c rest =>
            refine .inr ⟨c, rest, rfl, ?_, hHead c rfl, hSolid⟩
            rw [quote, if_neg (not_not_intro hDouble), if_neg (not_not_intro hSingle)]
    · refine .inl ⟨'\'', .inr rfl, hSingle, ?_⟩
      rw [quote, if_neg (not_not_intro hDouble), if_pos hSingle]
  · refine .inl ⟨'"', .inl rfl, hDouble, ?_⟩
    rw [quote, if_pos hDouble]

namespace Entry

def print : Entry → Text
  | .id value => '#' :: value
  | .className value => '.' :: value
  | .attribute key value => key ++ '=' :: quote value

/-- The entry can be written so that it is read again. -/
def Printable : Entry → Prop
  | .id value | .className value => ∀ c ∈ value, isShorthandChar c = true
  | .attribute key value =>
    (∃ c ∈ key.head?, startsKey c = true) ∧ (∀ c ∈ key, isKeyChar c = true) ∧ IsQuotable value

/-- Printing is one of the forms in which an entry may be written. -/
theorem Printable.exists_written {entry : Entry} (h : entry.Printable) :
    ∃ form : WrittenEntry, form.IsValid ∧ form.written = entry.print ∧ form.entry = entry := by
  rcases entry with value | value | ⟨key, value⟩
  · exact ⟨.id value, h, rfl, rfl⟩
  · exact ⟨.className value, h, rfl, rfl⟩
  · obtain ⟨hStarts, hChars, hQuotable⟩ := h
    have hKey : IsKey key := ⟨hStarts, hChars⟩
    obtain ⟨mark, hMark, hFree, hQuote⟩ | ⟨c, rest, hCons, hQuote, hHead, hSolid⟩ :=
      hQuotable.quote_cases
    · refine ⟨.quoted key [] [] mark value, ⟨hKey, rfl, rfl, hMark, hFree⟩, ?_, rfl⟩
      simp [WrittenEntry.written, print, hQuote]
    · refine ⟨.unquoted key [] [] value, ⟨hKey, rfl, rfl, ?_, hSolid, ?_⟩, ?_, rfl⟩
      · rw [hCons]
        exact List.cons_ne_nil _ _
      · rw [hCons]
        rintro _ ⟨⟩
        exact hHead
      · simp [WrittenEntry.written, print, hQuote]

end Entry

/-- The entries of an attribute list that gives the arguments, their label apart. -/
def toEntries (arguments : Arguments) : List Entry :=
  arguments.id.toList.map .id ++ arguments.classes.map .className ++
    arguments.attributes.entries.map fun e => .attribute e.1 e.2

def attributeList (arguments : Arguments) : Text :=
  Text.join [' '] (arguments.toEntries.map Entry.print)

theorem join_cons_cons (a b : Text) (more : List Text) :
    Text.join [' '] (a :: b :: more) = a ++ ' ' :: Text.join [' '] (b :: more) := by
  simp [Text.join]

variable {list : List Entry}

/-- Printed entries with a space between each two of them are entries written one after the other. -/
theorem writes_join (h : ∀ entry ∈ list, entry.Printable) : ∃ forms : List WrittenEntry,
    Writes forms (Text.join [' '] (list.map Entry.print)) ∧ forms.map WrittenEntry.entry = list := by
  induction list with
  | nil => exact ⟨[], .nil, rfl⟩
  | cons entry rest ih =>
      obtain ⟨form, hValid, hWritten, hEntry⟩ := (h entry (List.mem_cons_self ..)).exists_written
      obtain ⟨forms, hWrites, hForms⟩ := ih fun entry hMem => h entry (List.mem_cons_of_mem _ hMem)
      cases rest with
      | nil =>
          refine ⟨[form], ?_, by rw [List.map_singleton, hEntry]⟩
          have hLast := Writes.last hValid
          rwa [hWritten] at hLast
      | cons next rest =>
          have hNe : forms ≠ [] := by rintro rfl; cases hForms
          obtain ⟨second, more, rfl⟩ := List.exists_cons_of_ne_nil hNe
          have hGap : Text.isBlankText [' '] = true := rfl
          refine ⟨form :: second :: more, ?_, by rw [List.map_cons, hEntry, hForms]⟩
          rw [List.map_cons, List.map_cons, join_cons_cons, ← hWritten]
          exact .cons hValid hGap nofun hWrites

/-- Entries with a space between them are read one after the other. -/
theorem entries_join (h : ∀ entry ∈ list, entry.Printable) :
    entries (Text.join [' '] (list.map Entry.print)) = list := by
  obtain ⟨forms, hWrites, hForms⟩ := writes_join h
  rw [hWrites.entries_eq, hForms]

/-- Printed entries have no white space around them. -/
theorem trim_join (h : ∀ entry ∈ list, entry.Printable) :
    Text.trim (Text.join [' '] (list.map Entry.print)) =
      Text.join [' '] (list.map Entry.print) := by
  obtain ⟨forms, hWrites, -⟩ := writes_join h
  have hBlank : Text.isBlankText [] = true := rfl
  have hTrim := hWrites.trim_eq hBlank hBlank
  rwa [List.nil_append, List.append_nil] at hTrim

/-- Classes are added behind the old ones, in their order. -/
theorem foldl_addEntry_classes (arguments : Arguments) (classes : List Text) :
    (classes.map Entry.className).foldl addEntry arguments =
      { arguments with classes := arguments.classes ++ classes } := by
  induction classes generalizing arguments with
  | nil => simp
  | cons value classes ih => simp [addEntry, ih]

theorem foldl_addEntry_attributes (arguments : Arguments) (entries : List (Text × Text)) :
    (entries.map fun e => Entry.attribute e.1 e.2).foldl addEntry arguments =
      { arguments with
        attributes := entries.foldl (fun m e => m.insert e.1 e.2) arguments.attributes } := by
  induction entries generalizing arguments with
  | nil => rfl
  | cons e entries ih => simp [addEntry, ih]

/-- The entries of arguments give the arguments again. -/
theorem foldl_addEntry_toEntries (arguments : Arguments) :
    arguments.toEntries.foldl addEntry { label := arguments.label } = arguments := by
  have hId : (arguments.id.toList.map Entry.id).foldl addEntry { label := arguments.label } =
      { label := arguments.label, id := arguments.id } := by
    cases arguments.id <;> rfl
  rw [toEntries, List.foldl_append, List.foldl_append, hId, foldl_addEntry_classes,
    foldl_addEntry_attributes, TextMap.foldl_insert_entries]
  simp

/-- The conditions under which arguments can be written so that they are read again. -/
structure Printable (arguments : Arguments) : Prop where
  label : isBalanced '[' ']' 0 arguments.label = true
  attributes : isBalanced '{' '}' 0 arguments.attributeList = true
  entries : ∀ entry ∈ arguments.toEntries, entry.Printable
  line : '\n' ∉ arguments.label ∧ '\n' ∉ arguments.attributeList

/-- Arguments with printable entries are read back from their attribute list. -/
theorem read_attributeList {arguments : Arguments}
    (h : ∀ entry ∈ arguments.toEntries, entry.Printable) :
    read arguments.label arguments.attributeList = arguments := by
  rw [read, attributeList, trim_join h, entries_join h, foldl_addEntry_toEntries]

end Arguments

end DirectiveMarkdown
