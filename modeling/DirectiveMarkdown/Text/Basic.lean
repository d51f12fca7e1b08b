import DirectiveMarkdown.Text.Blank

/-! Text as a sequence of characters, with lines, trimming and byte offsets. -/
namespace DirectiveMarkdown

/-- Text is the sequence of its characters. Offsets that a caller sees count bytes of UTF-8 and
are computed from the characters passed over. -/
abbrev Text := List Char

instance : LawfulBEq Text := inferInstance

abbrev text (s : String) : Text := s.toList

namespace Text

/-- Bytes that the text takes in UTF-8. -/
def width : Text → Nat
  | [] => 0
  | c :: rest => c.utf8Size + width rest

@[simp] theorem width_nil : width [] = 0 := rfl

@[simp] theorem width_cons (c : Char) (s : Text) : width (c :: s) = c.utf8Size + width s := rfl

@[simp] theorem width_append (s t : Text) : width (s ++ t) = width s + width t := by
  induction s with
  | nil => simp
  | cons c s ih => simp [ih, Nat.add_assoc]

/-- Cuts a text at a byte offset. An offset inside a character or past the end has no cut. -/
def splitAtByte? : Text → Nat → Option (Text × Text)
  | s, 0 => some ([], s)
  | [], _ + 1 => none
  | c :: s, n + 1 =>
    if c.utf8Size ≤ n + 1 then
      (splitAtByte? s (n + 1 - c.utf8Size)).map fun (before, after) => (c :: before, after)
    else none

/-- Lines, each with the line feed that ends it. Only the last may lack one. -/
def lines : Text → List Text
  | [] => []
  | c :: s =>
    if c = '\n' then [c] :: lines s
    else match lines s with
      | [] => [[c]]
      | line :: more => (c :: line) :: more

/-- The lines of a text are the text. -/
theorem flatten_lines (s : Text) : (lines s).flatten = s := by
  induction s with
  | nil => rfl
  | cons c s ih =>
    unfold lines
    split
    · simp [ih]
    · split
      · next h => rw [h] at ih; simp_all
      · next h => rw [h] at ih; simp_all

def trimStart (s : Text) : Text := s.dropWhile isBlank

def trimEnd (s : Text) : Text := (s.reverse.dropWhile isBlank).reverse

def trim (s : Text) : Text := trimEnd (trimStart s)

def isBlankText (s : Text) : Bool := s.all isBlank

def startsWith (s start : Text) : Bool := start.isPrefixOf s

/-- Two colons stand next to each other somewhere in the text. -/
def hasDoubleColon : Text → Bool
  | [] => false
  | c :: s => (c == ':' && s.head? == some ':') || hasDoubleColon s

/-- The pieces between the separators; a text without one is its only piece. -/
def splitOn (separator : Char) : Text → List Text
  | [] => [[]]
  | c :: s =>
    if c = separator then [] :: splitOn separator s
    else match splitOn separator s with
      | [] => [[c]]
      | piece :: more => (c :: piece) :: more

def join (separator : Text) : List Text → Text
  | [] => []
  | [s] => s
  | s :: more => s ++ separator ++ join separator more

def ofNat (n : Nat) : Text := Nat.toDigits 10 n

end Text

end DirectiveMarkdown
