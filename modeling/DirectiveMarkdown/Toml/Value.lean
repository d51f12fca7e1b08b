import DirectiveMarkdown.Text.Basic

/-! Values of TOML documents. -/
namespace DirectiveMarkdown.Toml

/-- What brought a table about. It decides whether later lines may add to the table. -/
inductive TableOrigin where
  | implied
  | dotted
  | header
  | inline
deriving DecidableEq

/-- A number with a fraction or an exponent, as it is written: `digits * 10 ^ exponent` up to the
sign. -/
inductive FloatLiteral where
  | infinite
  | undefined
  | decimal (digits : Nat) (exponent : Int)
deriving DecidableEq

/-- A value. `tables` is an array that headers in double brackets add to. A date-time is kept in its
normal spelling. -/
inductive Value where
  | string (value : Text)
  | integer (value : Int)
  | float (value : FloatLiteral)
  | boolean (value : Bool)
  | dateTime (spelling : Text)
  | array (items : List Value)
  | tables (items : List Value)
  | table (origin : TableOrigin) (entries : List (Text × Value))

/-- Entries of a table, each key once. -/
abbrev Entries := List (Text × Value)

namespace FloatLiteral

/-- The least number that rounds to infinity in binary64: half a unit above the greatest finite
one. -/
def limit : Nat := 1 <<< 1024 - 1 <<< 970

/-- The number rounds to a finite one, or is not meant to. Only a number of about the size of the
limit is written out in full. -/
def isRepresentable : FloatLiteral → Bool
  | .infinite | .undefined => true
  | .decimal 0 _ => true
  | .decimal digits exponent =>
    let magnitude := (Nat.toDigits 10 digits).length + exponent
    if magnitude < 309 then true
    else if 309 < magnitude then false
    else match exponent with
      | .ofNat n => digits * Nat.pow 10 n < limit
      | .negSucc n => digits < limit * Nat.pow 10 (n + 1)

end FloatLiteral

namespace Value

mutual

/-- Every number in the value has a machine representation: integers of 128 bits, signed or not, and
binary64. -/
def isRepresentable : Value → Bool
  | .integer value => -(2 ^ 127) ≤ value && value < 2 ^ 128
  | .float value => value.isRepresentable
  | .array items | .tables items => areRepresentable items
  | .table _ entries => entriesAreRepresentable entries
  | .string _ | .boolean _ | .dateTime _ => true

def areRepresentable : List Value → Bool
  | [] => true
  | item :: rest => item.isRepresentable && areRepresentable rest

def entriesAreRepresentable : List (Text × Value) → Bool
  | [] => true
  | (_, value) :: rest => value.isRepresentable && entriesAreRepresentable rest

end

end Value

end DirectiveMarkdown.Toml
