/-! Character classes given as tables of code point ranges. -/
namespace DirectiveMarkdown

/-- Code point ranges of a character property, both ends included. -/
abbrev CodeRanges := List (Nat × Nat)

def CodeRanges.holds (ranges : CodeRanges) (c : Char) : Bool :=
  ranges.any fun (low, high) => low ≤ c.toNat && c.toNat ≤ high

/-- A character has the property exactly if its code point lies in one of the ranges. -/
theorem CodeRanges.holds_iff (ranges : CodeRanges) (c : Char) :
    ranges.holds c = true ↔ ∃ r ∈ ranges, r.1 ≤ c.toNat ∧ c.toNat ≤ r.2 := by
  simp [CodeRanges.holds]

end DirectiveMarkdown
