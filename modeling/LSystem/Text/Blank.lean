import LSystem.Text.Range

/-!
The characters with the Unicode property White_Space: 25 code points in ten ranges.
-/

namespace LSystem.Text

def blanks : RangeTable where
  ranges :=
    #[(0x09, 0x0D), (0x20, 0x20), (0x85, 0x85), (0xA0, 0xA0), (0x1680, 0x1680), (0x2000, 0x200A),
      (0x2028, 0x2029), (0x202F, 0x202F), (0x205F, 0x205F), (0x3000, 0x3000)]
  ascending := by decide +kernel

def isBlank (c : Char) : Bool := covered blanks c.toNat

theorem isBlank_iff {c : Char} :
    isBlank c = true ↔ ∃ range ∈ blanks.ranges, range.1 ≤ c.toNat ∧ c.toNat ≤ range.2 :=
  covered_iff

end LSystem.Text
