/-!
# Doubles as exact numbers

A finite double is a sign and `mantissa * 2 ^ exponent`, read off its bits.  All
decimal text is computed from this form in whole numbers, so no digit depends on
the rounding of an intermediate result.
-/

namespace Polarity.Decimal

structure Binary where
  mantissa : Nat
  exponent : Int
  deriving DecidableEq, Repr

namespace Binary

def numerator (value : Binary) : Nat := value.mantissa * Nat.pow 2 value.exponent.toNat

def denominator (value : Binary) : Nat := Nat.pow 2 (-value.exponent).toNat

end Binary

inductive Reading where
  | notANumber
  | infinite (negative : Bool)
  | finite (negative : Bool) (magnitude : Binary)
  deriving DecidableEq, Repr

namespace Reading

/--
Bits 0 to 51 are the fraction, 52 to 62 the biased exponent and bit 63 the sign.
A biased exponent of zero drops the leading one of the mantissa.
-/
def ofBits (bits : UInt64) : Reading :=
  let pattern : Nat := bits.toNat
  let fraction : Nat := pattern % Nat.pow 2 52
  let biased : Nat := pattern / Nat.pow 2 52 % Nat.pow 2 11
  let negative := pattern / Nat.pow 2 63 == 1
  if biased = 0x7FF then
    if fraction = 0 then .infinite negative else .notANumber
  else if biased = 0 then
    .finite negative ⟨fraction, -1074⟩
  else
    .finite negative ⟨Nat.pow 2 52 + fraction, biased - 1075⟩

def ofFloat (value : Float) : Reading := ofBits value.toBits

end Reading

end Polarity.Decimal
