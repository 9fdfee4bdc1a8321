import Concerto.Text.Range

/-!
Blank characters: the characters with the white space property, with and without the four
information separators U+001C to U+001F.
-/

namespace Concerto.Text

/-- The characters with the white space property. -/
def whiteSpaceRanges : CodeTable where
  ranges :=
    [(0x9, 0xD), (0x20, 0x20), (0x85, 0x85), (0xA0, 0xA0), (0x1680, 0x1680), (0x2000, 0x200A),
     (0x2028, 0x2029), (0x202F, 0x202F), (0x205F, 0x205F), (0x3000, 0x3000)]
  ordered := by decide +kernel

/-- A character with the white space property. -/
def isWhiteSpace (c : Char) : Bool := whiteSpaceRanges.contains c

/-- White space or one of the separators U+001C to U+001F. -/
def isBlank (c : Char) : Bool := isWhiteSpace c || (0x1C ≤ c.toNat && c.toNat ≤ 0x1F)

example : isBlank ' ' ∧ isBlank '\n' ∧ isBlank '\u00A0' ∧ ¬ isBlank '\uFEFF' ∧ ¬ isBlank 'x' := by
  decide

end Concerto.Text
