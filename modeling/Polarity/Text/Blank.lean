/-!
# Blank characters

The twenty-five characters with Unicode's `White_Space` property.  The
information separators U+001C to U+001F, the zero-width space U+200B and the
byte-order mark U+FEFF are not among them.
-/

namespace Polarity.Text

/-- Closed intervals of code points, in ascending order. -/
abbrev Intervals := List (Nat × Nat)

def Intervals.covers (intervals : Intervals) (code : Nat) : Bool :=
  intervals.any fun interval => interval.1 ≤ code && code ≤ interval.2

def blankIntervals : Intervals :=
  [(0x0009, 0x000D), (0x0020, 0x0020), (0x0085, 0x0085), (0x00A0, 0x00A0), (0x1680, 0x1680),
    (0x2000, 0x200A), (0x2028, 0x2029), (0x202F, 0x202F), (0x205F, 0x205F), (0x3000, 0x3000)]

def isBlank (char : Char) : Bool := blankIntervals.covers char.toNat

end Polarity.Text
