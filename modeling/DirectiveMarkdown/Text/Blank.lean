import DirectiveMarkdown.Text.Ranges

/-! The white space property of characters. -/
namespace DirectiveMarkdown

/-- Code points with the Unicode property `White_Space`. -/
def blankRanges : CodeRanges :=
  [(0x9, 0xD), (0x20, 0x20), (0x85, 0x85), (0xA0, 0xA0), (0x1680, 0x1680), (0x2000, 0x200A),
   (0x2028, 0x2029), (0x202F, 0x202F), (0x205F, 0x205F), (0x3000, 0x3000)]

/-- White space of any script: it is trimmed around lines, labels and attribute lists. -/
def isBlank (c : Char) : Bool := blankRanges.holds c

/-- Blanks below U+0080 are five controls and the space. -/
theorem toNat_of_isBlank {c : Char} (h : isBlank c = true) :
    (9 ≤ c.toNat ∧ c.toNat ≤ 13) ∨ c.toNat = 32 ∨ 128 ≤ c.toNat := by
  obtain ⟨r, hMem, hLow, hHigh⟩ := (CodeRanges.holds_iff blankRanges c).1 h
  simp only [blankRanges, List.mem_cons, List.not_mem_nil, or_false] at hMem
  rcases hMem with rfl | rfl | rfl | rfl | rfl | rfl | rfl | rfl | rfl | rfl <;>
    simp only at hLow hHigh <;> omega

/-- ASCII letters stand in two ranges. -/
theorem toNat_of_isAlpha {c : Char} (h : c.isAlpha = true) :
    (65 ≤ c.toNat ∧ c.toNat ≤ 90) ∨ (97 ≤ c.toNat ∧ c.toNat ≤ 122) := by
  have hRanges : (decide (c.val ≥ 65 ∧ c.val ≤ 90) ||
      (decide (c.val ≥ 97) && decide (c.val ≤ 122))) = true := h
  simpa [UInt32.le_iff_toNat_le] using hRanges

/-- A space or a tab, the white space that may stand inside a line of Markdown. -/
def isInlineBlank (c : Char) : Bool := c == ' ' || c == '\t'

/-- White space that Markdown's own grammar knows: ASCII only. -/
def isAsciiBlank (c : Char) : Bool :=
  c == ' ' || c == '\t' || c == '\n' || c == '\r' || c == '\x0c' || c == '\x0b'

end DirectiveMarkdown
