import DirectiveMarkdown.Text.Digit
import DirectiveMarkdown.Toml.Value

/-! Values that are written without quotation marks: booleans, numbers, dates and times. Each reader
takes the whole of a text or nothing. -/
namespace DirectiveMarkdown.Toml

/-- Digits in groups, with one underscore between each two groups. -/
def digitGroups? (isDigit : Char → Bool) (s : Text) : Option Text :=
  let groups := Text.splitOn '_' s
  if groups.all fun group => !group.isEmpty && group.all isDigit then some groups.flatten else none

def readSign : Text → Option Char × Text
  | '+' :: rest => (some '+', rest)
  | '-' :: rest => (some '-', rest)
  | s => (none, s)

/-- Decimal digits without a zero in front of others. -/
def decimalDigits? (s : Text) : Option Text :=
  match digitGroups? Char.isDigit s with
  | some digits => if digits.head? = some '0' ∧ digits ≠ ['0'] then none else some digits
  | none => none

/-- An integer in base ten, or without a sign in base sixteen, eight or two. -/
def integer? (s : Text) : Option Int :=
  match s with
  | '0' :: 'x' :: digits => (digitGroups? isHexDigit digits).map fun d => ofDigits 16 d
  | '0' :: 'o' :: digits =>
    (digitGroups? (fun c => '0' ≤ c && c ≤ '7') digits).map fun d => ofDigits 8 d
  | '0' :: 'b' :: digits =>
    (digitGroups? (fun c => c == '0' || c == '1') digits).map fun d => ofDigits 2 d
  | _ =>
    let (sign, unsigned) := readSign s
    (decimalDigits? unsigned).map fun digits =>
      if sign = some '-' then -(ofDigits 10 digits : Int) else ofDigits 10 digits

/-- An exponent: digits with or without a sign, with zeros in front or not. -/
def exponent? (s : Text) : Option Int :=
  let (sign, unsigned) := readSign s
  (digitGroups? Char.isDigit unsigned).map fun digits =>
    if sign = some '-' then -(ofDigits 10 digits : Int) else ofDigits 10 digits

/-- The text before the first such character, and the text after it if there is one. -/
def cutAt (isCut : Char → Bool) (s : Text) : Text × Option Text :=
  (s.takeWhile fun c => !isCut c, (s.dropWhile fun c => !isCut c).tail?)

/-- A number with a fraction, an exponent or both, or one of the two that are no numbers. -/
def float? (s : Text) : Option FloatLiteral :=
  let unsigned := (readSign s).2
  if unsigned = text "inf" then some .infinite
  else if unsigned = text "nan" then some .undefined
  else
    let (mantissa, power) := cutAt (fun c => c == 'e' || c == 'E') unsigned
    let (whole, fraction) := cutAt (· == '.') mantissa
    if power.isNone ∧ fraction.isNone then none
    else do
      let whole ← decimalDigits? whole
      let fraction ← match fraction with
        | some digits => digitGroups? Char.isDigit digits
        | none => some []
      let exponent ← match power with
        | some power => exponent? power
        | none => some 0
      return .decimal (ofDigits 10 (whole ++ fraction)) (exponent - fraction.length)

/-- A number of exactly two digits that lies between two others, with its digits and the text after
it. -/
def twoDigits? (least greatest : Nat) : Text → Option (Text × Text)
  | a :: b :: rest =>
    if a.isDigit ∧ b.isDigit ∧ least ≤ ofDigits 10 [a, b] ∧ ofDigits 10 [a, b] ≤ greatest then
      some ([a, b], rest)
    else none
  | _ => none

def daysIn (year month : Nat) : Nat :=
  if month = 2 then
    if year % 4 = 0 ∧ (year % 100 ≠ 0 ∨ year % 400 = 0) then 29 else 28
  else if month ∈ [4, 6, 9, 11] then 30
  else 31

def date? : Text → Option (Text × Text)
  | a :: b :: c :: d :: '-' :: s =>
    if [a, b, c, d].all Char.isDigit then
      match twoDigits? 1 12 s with
      | some (month, '-' :: s) =>
        (twoDigits? 1 (daysIn (ofDigits 10 [a, b, c, d]) (ofDigits 10 month)) s).map
          fun (day, rest) => ([a, b, c, d, '-'] ++ month ++ ['-'] ++ day, rest)
      | _ => none
    else none
  | _ => none

/-- A fraction of a second in its normal spelling: nine digits at most, without zeros at the end,
and one digit at least. -/
def fractionSpelling (digits : Text) : Text :=
  match ((digits.take 9).reverse.dropWhile (· == '0')).reverse with
  | [] => ['0']
  | significant => significant

/-- The seconds of a time, with or without a fraction, at the start of a text. They may be missing.
-/
def seconds? : Text → Option (Text × Text)
  | ':' :: s =>
    match twoDigits? 0 60 s with
    | some (second, '.' :: fraction) =>
      let digits := fraction.takeWhile Char.isDigit
      if digits.isEmpty then none
      else some (':' :: second ++ '.' :: fractionSpelling digits, fraction.dropWhile Char.isDigit)
    | some (second, rest) => some (':' :: second, rest)
    | none => none
  | s => some ([], s)

def time? (s : Text) : Option (Text × Text) := do
  match ← twoDigits? 0 23 s with
  | (hour, ':' :: s) =>
    let (minute, s) ← twoDigits? 0 59 s
    let (seconds, rest) ← seconds? s
    return (hour ++ ':' :: minute ++ seconds, rest)
  | _ => none

/-- The distance from universal time. No distance is always written with a plus sign. -/
def offset? : Text → Option Text
  | ['Z'] | ['z'] => some ['Z']
  | sign :: s =>
    if sign = '+' ∨ sign = '-' then do
      match ← twoDigits? 0 23 s with
      | (hour, ':' :: s) =>
        let (minute, rest) ← twoDigits? 0 59 s
        guard rest.isEmpty
        let isNone := hour = text "00" ∧ minute = text "00"
        return (if isNone then '+' else sign) :: hour ++ ':' :: minute
      | _ => failure
    else none
  | [] => none

/-- A date, a time, or both with or without an offset, in its normal spelling. -/
def dateTime? (s : Text) : Option Text :=
  match date? s with
  | some (date, []) => some date
  | some (date, separator :: s) =>
    if separator = 'T' ∨ separator = 't' ∨ separator = ' ' then
      match time? s with
      | some (time, []) => some (date ++ 'T' :: time)
      | some (time, s) => (offset? s).map fun offset => date ++ 'T' :: time ++ offset
      | none => none
    else none
  | none =>
    match time? s with
    | some (time, []) => some time
    | _ => none

def scalar? (s : Text) : Option Value :=
  if s = text "true" then some (.boolean true)
  else if s = text "false" then some (.boolean false)
  else ((integer? s).map .integer) <|> ((float? s).map .float) <|> ((dateTime? s).map .dateTime)

end DirectiveMarkdown.Toml
