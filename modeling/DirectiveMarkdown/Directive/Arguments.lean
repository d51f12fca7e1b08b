import DirectiveMarkdown.TextMap

/-! The arguments of a directive: the label in brackets and the attribute list in braces. -/
namespace DirectiveMarkdown

structure Arguments where
  label : Text := []
  id : Option Text := none
  classes : List Text := []
  attributes : TextMap := ∅
deriving DecidableEq

namespace Arguments

inductive Entry where
  | id (value : Text)
  | className (value : Text)
  | attribute (key value : Text)
deriving DecidableEq

def isShorthandChar (c : Char) : Bool := !(isBlank c || c == '.' || c == '#')

def startsKey (c : Char) : Bool := c.isAlpha || c == '_' || c == ':'

def isKeyChar (c : Char) : Bool := !(isBlank c || c == '=')

/-- The text before and after the first place of a quotation mark. -/
def untilQuote? (quote : Char) : Text → Option (Text × Text)
  | [] => none
  | c :: rest =>
    if c = quote then some ([], rest)
    else (untilQuote? quote rest).map fun (value, after) => (c :: value, after)

/-- The value after an equals sign: quoted, or up to white space. A quotation mark that is not
closed makes no entry and takes all of the text. -/
def readValue (key s : Text) : Option Entry × Text :=
  match s with
  | c :: rest =>
    if c = '"' ∨ c = '\'' then
      match untilQuote? c rest with
      | some (value, after) => (some (.attribute key value), after)
      | none => (none, [])
    else
      (some (.attribute key (s.takeWhile fun c => !isBlank c)), s.dropWhile fun c => !isBlank c)
  | [] => (some (.attribute key []), [])

/-- The entry that a text starting with a key makes. A key without a value has the empty one. -/
def readAttribute (s : Text) : Option Entry × Text :=
  let key := s.takeWhile isKeyChar
  let rest := s.dropWhile isKeyChar
  match Text.trimStart rest with
  | '=' :: value => readValue key (Text.trimStart value)
  | _ => (some (.attribute key []), rest)

/-- The entry at the start of a text, given by its first character and the rest, and the text after
it. A character that starts no entry is passed over. -/
def readEntry (c : Char) (rest : Text) : Option Entry × Text :=
  if c = '#' then
    (some (.id (rest.takeWhile isShorthandChar)), rest.dropWhile isShorthandChar)
  else if c = '.' then
    (some (.className (rest.takeWhile isShorthandChar)), rest.dropWhile isShorthandChar)
  else if startsKey c then readAttribute (c :: rest)
  else (none, rest)

theorem isKeyChar_of_startsKey {c : Char} (h : startsKey c = true) : isKeyChar c = true := by
  have hRange : (65 ≤ c.toNat ∧ c.toNat ≤ 90) ∨ (97 ≤ c.toNat ∧ c.toNat ≤ 122) ∨
      c.toNat = 95 ∨ c.toNat = 58 := by
    simp only [startsKey, Bool.or_eq_true, beq_iff_eq] at h
    rcases h with (h | rfl) | rfl
    · have := toNat_of_isAlpha h
      omega
    · decide
    · decide
  have hBlank : isBlank c = false := by
    cases hValue : isBlank c with
    | false => rfl
    | true =>
      have := toNat_of_isBlank hValue
      omega
  have hEquals : c ≠ '=' := by
    rintro rfl
    revert hRange
    decide
  simp [isKeyChar, hBlank, hEquals]

theorem length_dropWhile_le (p : Char → Bool) (s : Text) : (s.dropWhile p).length ≤ s.length :=
  (List.dropWhile_sublist p).length_le

theorem length_untilQuote?_lt {quote : Char} {s value after : Text}
    (h : untilQuote? quote s = some (value, after)) : after.length < s.length := by
  induction s generalizing value with
  | nil => simp [untilQuote?] at h
  | cons c rest ih =>
    unfold untilQuote? at h
    split at h
    · simp_all
    · obtain ⟨⟨read, more⟩, hRead, hEq⟩ := Option.map_eq_some_iff.1 h
      simp only [Prod.mk.injEq] at hEq
      obtain ⟨-, rfl⟩ := hEq
      have := ih hRead
      simp only [List.length_cons]
      omega

/-- Reading a value never makes the text longer. -/
theorem length_readValue_le (key s : Text) : (readValue key s).2.length ≤ s.length := by
  unfold readValue
  split
  · next c rest =>
    split
    · split
      · next h =>
        have := length_untilQuote?_lt h
        simp only [List.length_cons]
        omega
      · simp
    · exact length_dropWhile_le _ _
  · simp

/-- Reading an attribute takes at least the characters of its key. -/
theorem length_readAttribute_le (s : Text) :
    (readAttribute s).2.length ≤ (s.dropWhile isKeyChar).length := by
  unfold readAttribute
  dsimp only
  split
  · next value h =>
    have hValue := length_readValue_le (s.takeWhile isKeyChar) (Text.trimStart value)
    have hTrim : (Text.trimStart value).length ≤ value.length := length_dropWhile_le _ _
    have hRest := length_dropWhile_le isBlank (s.dropWhile isKeyChar)
    rw [Text.trimStart] at h
    rw [h, List.length_cons] at hRest
    omega
  · exact Nat.le_refl _

/-- Reading an entry takes at least one character. -/
theorem length_readEntry_le (c : Char) (rest : Text) :
    (readEntry c rest).2.length ≤ rest.length := by
  unfold readEntry
  split
  · exact length_dropWhile_le _ _
  · split
    · exact length_dropWhile_le _ _
    · split
      · next hKey =>
        refine Nat.le_trans (length_readAttribute_le _) ?_
        have hChar := isKeyChar_of_startsKey hKey
        rw [List.dropWhile_cons_of_pos hChar]
        exact length_dropWhile_le _ _
      · exact Nat.le_refl _

/-- The entries of an attribute list in order. White space between them does not count. -/
def entries (s : Text) : List Entry :=
  match h : Text.trimStart s with
  | [] => []
  | c :: rest =>
    have : (readEntry c rest).2.length < s.length := by
      have hEntry := length_readEntry_le c rest
      have hTrim : (Text.trimStart s).length ≤ s.length := length_dropWhile_le _ _
      rw [h, List.length_cons] at hTrim
      omega
    (readEntry c rest).1.toList ++ entries (readEntry c rest).2
termination_by s.length

/-- The arguments with one more entry. The last identifier and the last value of a key count. -/
def addEntry (arguments : Arguments) : Entry → Arguments
  | .id value => { arguments with id := some value }
  | .className value => { arguments with classes := arguments.classes ++ [value] }
  | .attribute key value => { arguments with attributes := arguments.attributes.insert key value }

/-- The arguments given by a label and an attribute list, both without their delimiters. -/
def read (label attributeList : Text) : Arguments :=
  (entries (Text.trim attributeList)).foldl addEntry { label }

/-- All attributes in one map. The identifier and the classes stand over attributes with the keys
`id` and `class`. -/
def toAttributes (arguments : Arguments) : TextMap :=
  let withId := match arguments.id with
    | some value => arguments.attributes.insert (text "id") value
    | none => arguments.attributes
  if arguments.classes.isEmpty then withId
  else withId.insert (text "class") (Text.join [' '] arguments.classes)

end Arguments

end DirectiveMarkdown
