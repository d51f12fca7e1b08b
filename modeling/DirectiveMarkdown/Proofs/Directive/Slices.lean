import DirectiveMarkdown.Proofs.Directive.Entries
import DirectiveMarkdown.Proofs.Directive.Parts
import DirectiveMarkdown.Proofs.Text.Slices

/-! Directives read by byte offsets. Each reader takes slices of its text at offsets that it adds up from
counts and from searches in parts of the text. None of them stops, and they read what the readers of
characters read. -/
namespace DirectiveMarkdown

open Text

namespace Arguments

def shorthandBytes (entry : Text → Entry) (s : Text) : Except Panic (Option Entry × Text) := do
  let stop := (offsetOf? (fun c => isBlank c || c == '.' || c == '#') s).getD (width s)
  let value ← sliceTo s stop
  let rest ← sliceFrom s stop
  return (some (entry value), rest)

/-- The value after an equals sign, if a quotation mark before it is closed, and the text after it. -/
def valueBytes (s : Text) : Except Panic (Option Text × Text) :=
  match s.head?.filter fun c => c == '"' || c == '\'' with
  | some quote =>
    match offsetOf? (· == quote) s.tail with
    | some stop => do
      let value ← sliceTo s.tail stop
      let rest ← sliceFrom s.tail (stop + 1)
      return (some value, rest)
    | none => .ok (none, [])
  | none => do
    let stop := (offsetOf? isBlank s).getD (width s)
    let value ← sliceTo s stop
    let rest ← sliceFrom s stop
    return (some value, rest)

def attributeBytes (s : Text) : Except Panic (Option Entry × Text) := do
  let stop := (offsetOf? (fun c => isBlank c || c == '=') s).getD (width s)
  let key ← sliceTo s stop
  let rest ← sliceFrom s stop
  match trimStart rest with
  | '=' :: value => do
    let read ← valueBytes (trimStart value)
    return (read.1.map (.attribute key), read.2)
  | _ => return (some (.attribute key []), rest)

/-- The entry at the start of a text, and the text after it. A character that starts no entry is passed
over. -/
def entryBytes (c : Char) (rest : Text) : Except Panic (Option Entry × Text) :=
  if c = '#' then shorthandBytes .id rest
  else if c = '.' then shorthandBytes .className rest
  else if startsKey c then attributeBytes (c :: rest)
  else do
    let after ← sliceFrom (c :: rest) c.utf8Size
    return (none, after)

/-- The cut behind an identifier or class name never fails. -/
theorem shorthandBytes_eq (entry : Text → Entry) (s : Text) :
    shorthandBytes entry s =
      .ok (some (entry (s.takeWhile isShorthandChar)), s.dropWhile isShorthandChar) := by
  rw [shorthandBytes, offsetOf?_getD]
  have hTo := sliceTo_takeWhile isShorthandChar s
  have hFrom := sliceFrom_takeWhile isShorthandChar s
  unfold isShorthandChar at hTo hFrom ⊢
  rw [hTo, Panic.ok_bind, hFrom]
  rfl

theorem untilQuote?_eq_none {quote : Char} {s : Text} (h : quote ∉ s) : untilQuote? quote s = none := by
  induction s with
  | nil => rfl
  | cons c s ih =>
      rw [List.mem_cons, not_or] at h
      rw [untilQuote?, if_neg (Ne.symm h.1), ih h.2]
      rfl

/-- A quotation mark takes one byte, so that the value and what follows it are cut off on both sides of
the mark. -/
theorem valueBytes_quoted (key : Text) {quote : Char} (hQuote : quote = '"' ∨ quote = '\'')
    (s : Text) :
    (valueBytes (quote :: s) >>= fun read => pure (read.1.map (Entry.attribute key), read.2)) =
      .ok (readValue key (quote :: s)) := by
  have hHead : (quote :: s).head?.filter (fun c => c == '"' || c == '\'') = some quote := by
    rcases hQuote with rfl | rfl <;> rfl
  have hSize : width [quote] = 1 := by rcases hQuote with rfl | rfl <;> rfl
  rw [valueBytes, hHead, readValue, if_pos hQuote]
  dsimp only [List.tail_cons]
  cases hStop : offsetOf? (· == quote) s with
  | none =>
      have hNone : quote ∉ s := fun hMem => by simpa using not_mem_of_offsetOf? hStop quote hMem
      rw [untilQuote?_eq_none hNone]
      rfl
  | some stop =>
      obtain ⟨value, mark, after, rfl, rfl, hMark, hValue⟩ := exists_of_offsetOf? hStop
      obtain rfl := eq_of_beq hMark
      have hClosed : mark ∉ value := fun hMem => by simpa using hValue mark hMem
      have hFrom := sliceFrom_width (value ++ [mark]) after
      rw [width_append, hSize, List.append_assoc, List.singleton_append] at hFrom
      dsimp only
      rw [sliceTo_width, Panic.ok_bind, hFrom, untilQuote?_append hClosed]
      rfl

theorem valueBytes_eq (key s : Text) :
    (valueBytes s >>= fun read => pure (read.1.map (Entry.attribute key), read.2)) =
      .ok (readValue key s) := by
  cases s with
  | nil => rfl
  | cons c s =>
      by_cases hQuote : c = '"' ∨ c = '\''
      · exact valueBytes_quoted key hQuote s
      · have hHead : (c :: s).head?.filter (fun c => c == '"' || c == '\'') = none := by
          simpa using hQuote
        rw [valueBytes, hHead, readValue, if_neg hQuote, offsetOf?_getD]
        dsimp only
        rw [sliceTo_takeWhile, Panic.ok_bind, sliceFrom_takeWhile]
        rfl

/-- The cuts of an attribute never fail and give what the character reader gives. -/
theorem attributeBytes_eq (s : Text) : attributeBytes s = .ok (readAttribute s) := by
  have hTo := sliceTo_takeWhile isKeyChar s
  have hFrom := sliceFrom_takeWhile isKeyChar s
  rw [attributeBytes, offsetOf?_getD]
  unfold isKeyChar at hTo hFrom
  rw [hTo, Panic.ok_bind, hFrom, Panic.ok_bind]
  split
  · next value hValue =>
      rw [readAttribute]
      unfold isKeyChar
      rw [hValue]
      exact valueBytes_eq _ (trimStart value)
  · next hOther =>
      rw [readAttribute]
      unfold isKeyChar
      split
      · next value hValue => exact absurd hValue (hOther value)
      · rfl

theorem entryBytes_eq (c : Char) (rest : Text) : entryBytes c rest = .ok (readEntry c rest) := by
  rw [entryBytes, readEntry]
  split
  · exact shorthandBytes_eq ..
  · split
    · exact shorthandBytes_eq ..
    · split
      · exact attributeBytes_eq (c :: rest)
      · have hFrom := sliceFrom_width [c] rest
        rw [width_cons, width_nil, Nat.add_zero, List.singleton_append] at hFrom
        rw [hFrom]
        rfl

/-- The arguments with the entries of a text that starts with no white space, one after the other. -/
def entriesBytes (arguments : Arguments) (remaining : Text) : Except Panic Arguments :=
  match remaining with
  | [] => .ok arguments
  | c :: rest =>
    match h : entryBytes c rest with
    | .error panic => .error panic
    | .ok read =>
      have : (trimStart read.2).length ≤ rest.length := by
        have hRead := length_readEntry_le c rest
        have hTrim : (trimStart read.2).length ≤ read.2.length := length_dropWhile_le _ _
        rw [entryBytes_eq, Except.ok.injEq] at h
        rw [h] at hRead
        omega
      entriesBytes (read.1.elim arguments arguments.addEntry) (trimStart read.2)
termination_by remaining.length

def readBytes (label attributeList : Text) : Except Panic Arguments :=
  entriesBytes { label } (trim attributeList)

/-- One round of reading takes the entry at the start and the white space behind it. -/
theorem entriesBytes_cons (arguments : Arguments) (c : Char) (rest : Text) :
    entriesBytes arguments (c :: rest) =
      entriesBytes ((readEntry c rest).1.elim arguments arguments.addEntry)
        (trimStart (readEntry c rest).2) := by
  rw [entriesBytes]
  split
  · next hEntry => rw [entryBytes_eq] at hEntry; cases hEntry
  · next hEntry => rw [entryBytes_eq] at hEntry; cases hEntry; rfl

/-- All rounds together give the arguments with every entry added. -/
theorem entriesBytes_eq (arguments : Arguments) (s : Text) :
    entriesBytes arguments (trimStart s) = .ok ((entries s).foldl addEntry arguments) := by
  cases hTrim : trimStart s with
  | nil => rw [entries_of_nil hTrim, entriesBytes, List.foldl_nil]
  | cons c rest =>
      have : (readEntry c rest).2.length < s.length := by
        have hEntry := length_readEntry_le c rest
        have hLength : (trimStart s).length ≤ s.length := length_dropWhile_le _ _
        rw [hTrim, List.length_cons] at hLength
        omega
      rw [entriesBytes_cons, entriesBytes_eq, entries_of_cons hTrim, List.foldl_append]
      cases (readEntry c rest).1 <;> rfl
termination_by s.length

theorem readBytes_eq (label attributeList : Text) :
    readBytes label attributeList = .ok (Arguments.read label attributeList) := by
  have hTrim : trimStart (trim attributeList) = trim attributeList := by
    have hPrefix := isPrefix_trimEnd (trimStart attributeList)
    rw [trim]
    cases hCut : trimEnd (trimStart attributeList) with
    | nil => rfl
    | cons c rest =>
        obtain ⟨more, hMore⟩ := hPrefix
        have hHead := List.head?_dropWhile_not isBlank attributeList
        rw [← trimStart, ← hMore, hCut] at hHead
        exact trimStart_cons hHead rest
  rw [readBytes, ← hTrim, entriesBytes_eq]
  rfl

end Arguments

/-- Looks through `rest`, which starts at an offset of the text `s`, for the end of the delimited piece
that `s` starts with, of which `depth` delimiters are open. -/
def delimitedScan (opening closing : Char) (s : Text) : Nat → Nat → Text → Except Panic (Text × Nat)
  | _, _, [] => .ok ([], 0)
  | depth, offset, c :: rest =>
    if c = opening then
      delimitedScan opening closing s (depth + 1) (offset + c.utf8Size) rest
    else if c = closing then do
      let depth ← checkedSub depth 1
      if depth = 0 then
        let content ← sliceBetween s opening.utf8Size offset
        return (content, offset + closing.utf8Size)
      else delimitedScan opening closing s depth (offset + c.utf8Size) rest
    else delimitedScan opening closing s depth (offset + c.utf8Size) rest

def delimitedBytes (opening closing : Char) (s : Text) : Except Panic (Text × Nat) :=
  if s.head? = some opening then delimitedScan opening closing s 0 0 s else .ok ([], 0)

/-- The content and the width of a delimited piece of which `read` has been read. -/
def delimitedFrom (opening closing : Char) (read : Text) (body : Text × Text) : Text × Nat :=
  (read ++ body.1, width (opening :: (read ++ body.1 ++ [closing])))

/-- One delimiter more is open than the reader counts, so that none is closed without being open. -/
theorem delimitedScan_eq (opening closing : Char) (depth : Nat) (read rest : Text) :
    delimitedScan opening closing (opening :: (read ++ rest)) (depth + 1) (width (opening :: read))
        rest =
      .ok (((delimitedBody? opening closing depth rest).map
        (delimitedFrom opening closing read)).getD ([], 0)) := by
  induction rest generalizing depth read with
  | nil => rfl
  | cons c rest ih =>
      have hReadsOn : ∀ depth, delimitedScan opening closing (opening :: (read ++ c :: rest)) (depth + 1)
          (width (opening :: read) + c.utf8Size) rest =
          .ok ((((delimitedBody? opening closing depth rest).map
            fun body => (c :: body.1, body.2)).map (delimitedFrom opening closing read)).getD
              ([], 0)) := by
        intro depth
        have hRest := ih depth (read ++ [c])
        have hWidth : width (opening :: (read ++ [c])) = width (opening :: read) + c.utf8Size := by
          simp [Nat.add_assoc]
        rw [List.append_assoc, List.singleton_append, hWidth] at hRest
        rw [hRest]
        cases delimitedBody? opening closing depth rest with
        | none => rfl
        | some body => simp [delimitedFrom]
      rw [delimitedScan, delimitedBody?.eq_def]
      dsimp only
      split
      · exact hReadsOn (depth + 1)
      · split
        · rw [checkedSub_of_le (Nat.le_add_left ..), Nat.add_sub_cancel, Panic.ok_bind]
          cases depth with
          | zero =>
              have hBetween := sliceBetween_width [opening] read (c :: rest)
              have hStart : width [opening] = opening.utf8Size := by simp
              rw [hStart, ← width_cons, List.append_assoc, List.singleton_append] at hBetween
              have hWidth : width (opening :: (read ++ [] ++ [closing])) =
                  width (opening :: read) + closing.utf8Size := by simp [Nat.add_assoc]
              rw [if_pos rfl, hBetween, Panic.ok_bind, Option.map_some, Option.getD_some,
                delimitedFrom, hWidth, List.append_nil]
              rfl
          | succ depth => exact hReadsOn depth
        · exact hReadsOn depth

/-- The bytes that a delimited piece takes end where the text after it starts. -/
theorem exists_delimitedBytes (opening closing : Char) (s : Text) :
    ∃ taken, s = taken ++ (delimited opening closing s).2 ∧
      delimitedBytes opening closing s = .ok ((delimited opening closing s).1, width taken) := by
  cases s with
  | nil => exact ⟨[], rfl, rfl⟩
  | cons c rest =>
      by_cases hOpening : c = opening
      · subst hOpening
        have hBytes : delimitedBytes c closing (c :: rest) =
            .ok (((delimitedBody? c closing 0 rest).map (delimitedFrom c closing [])).getD ([], 0)) := by
          have hScan := delimitedScan_eq c closing 0 [] rest
          rw [width_cons, width_nil, Nat.add_comm c.utf8Size, List.nil_append] at hScan
          rw [delimitedBytes, List.head?_cons, if_pos rfl, delimitedScan, if_pos rfl]
          exact hScan
        rw [hBytes, delimited, if_pos rfl]
        cases hBody : delimitedBody? c closing 0 rest with
        | none => exact ⟨[], rfl, rfl⟩
        | some body => exact ⟨c :: (body.1 ++ [closing]), by simp [eq_of_delimitedBody? hBody], rfl⟩
      · refine ⟨[], ?_, ?_⟩
        · rw [delimited, if_neg hOpening, List.nil_append]
        · rw [delimited, if_neg hOpening, delimitedBytes, List.head?_cons,
            if_neg fun h => hOpening (Option.some.inj h), width_nil]

/-- The name and arguments of a directive after its colons, and the number of bytes they take. -/
def directiveBodyBytes (s : Text) : Except Panic (Option (DirectiveBody × Nat)) := do
  let nameEnd := (offsetOf? endsDirectiveName s).getD (width s)
  let name ← sliceTo s nameEnd
  if isDirectiveName name then
    let afterName ← sliceFrom s nameEnd
    let label ← delimitedBytes '[' ']' afterName
    let afterLabel ← sliceFrom s (nameEnd + label.2)
    let attributeList ← delimitedBytes '{' '}' afterLabel
    let arguments ← Arguments.readBytes label.1 attributeList.1
    return some (⟨name, arguments⟩, nameEnd + label.2 + attributeList.2)
  else return none

/-- What is read of a directive stands at the start of the text: its name, and the pieces after it. -/
theorem exists_directiveBodyBytes (s : Text) :
    (readDirectiveBody? s = none ∧ directiveBodyBytes s = .ok none) ∨
      ∃ body pieces after, readDirectiveBody? s = some (body, pieces ++ after, after) ∧
        s = body.name ++ (pieces ++ after) ∧
        directiveBodyBytes s = .ok (some (body, width body.name + width pieces)) := by
  have hName := sliceTo_takeWhile (fun c => !endsDirectiveName c) s
  have hAfterName := sliceFrom_takeWhile (fun c => !endsDirectiveName c) s
  have hText := (List.takeWhile_append_dropWhile (p := fun c => !endsDirectiveName c) (l := s)).symm
  rw [readDirectiveBody?, directiveBodyBytes, offsetOf?_getD]
  dsimp only
  rw [hName, Panic.ok_bind, hAfterName, Panic.ok_bind]
  generalize s.takeWhile (fun c => !endsDirectiveName c) = name at *
  generalize s.dropWhile (fun c => !endsDirectiveName c) = afterName at *
  split
  · obtain ⟨label, hLabel, hLabelBytes⟩ := exists_delimitedBytes '[' ']' afterName
    obtain ⟨list, hList, hListBytes⟩ :=
      exists_delimitedBytes '{' '}' (delimited '[' ']' afterName).2
    have hAfterLabel : sliceFrom s (width name + width label) =
        .ok (delimited '[' ']' afterName).2 := by
      have hCut := sliceFrom_width (name ++ label) (delimited '[' ']' afterName).2
      rwa [List.append_assoc, ← hLabel, ← hText, width_append] at hCut
    rw [hLabelBytes, Panic.ok_bind, hAfterLabel, Panic.ok_bind, hListBytes, Panic.ok_bind,
      Arguments.readBytes_eq, Panic.ok_bind]
    generalize delimited '[' ']' afterName = labelRead at *
    generalize delimited '{' '}' labelRead.2 = listRead at *
    have hPieces : afterName = label ++ list ++ listRead.2 := by
      rw [List.append_assoc, ← hList, ← hLabel]
    refine .inr ⟨⟨name, Arguments.read labelRead.1 listRead.1⟩, label ++ list, listRead.2, ?_, ?_, ?_⟩
    · rw [← hPieces]
    · rw [← hPieces, hText]
    · rw [width_append, ← Nat.add_assoc]
      rfl
  · exact .inl ⟨rfl, rfl⟩

def blockLineBytes (line : Text) : Except Panic (Option BlockLine) := do
  let trimmed := line.dropWhile (· == ' ')
  let indent ← checkedSub (width line) (width trimmed)
  if indent > 3 then return none
  let content := trimEnd trimmed
  let colons := (content.takeWhile (· == ':')).length
  if colons < 2 then return none
  let rest ← sliceFrom content colons
  if rest.isEmpty then return if colons ≥ 3 then some (.closing colons) else none
  match ← directiveBodyBytes rest with
  | none => return none
  | some read =>
    let after ← sliceFrom rest read.2
    return if isBlankText after then
      if colons = 2 then some (.leaf read.1) else some (.opening colons read.1)
    else none

/-- No cut of a line fails, and the line is read as its characters are. -/
theorem blockLineBytes_eq (line : Text) : blockLineBytes line = .ok (BlockLine.read? line) := by
  have hColon : ∀ c, (c == ':') = true → c.utf8Size = 1 := fun c h => by rw [eq_of_beq h]; rfl
  rw [blockLineBytes, BlockLine.read?]
  dsimp only
  rw [checkedSub_width_dropWhile, width_takeWhile utf8Size_of_beq_space, drop_length_takeWhile,
    Panic.ok_bind]
  split
  · rfl
  · split
    · rfl
    · rw [sliceFrom_length_takeWhile hColon, Panic.ok_bind, drop_length_takeWhile]
      split
      · rfl
      · obtain ⟨hNone, hBytes⟩ | ⟨body, pieces, after, hSome, hText, hBytes⟩ :=
          exists_directiveBodyBytes ((trimEnd (line.dropWhile (· == ' '))).dropWhile (· == ':'))
        · rw [hBytes, hNone]
          rfl
        · have hAfter := sliceFrom_width (body.name ++ pieces) after
          rw [width_append, List.append_assoc, ← hText] at hAfter
          rw [hBytes, hSome, Panic.ok_bind, Option.bind_some]
          dsimp only
          rw [hAfter]
          rfl

end DirectiveMarkdown
