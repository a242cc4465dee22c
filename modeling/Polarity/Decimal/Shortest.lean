import Polarity.Decimal.Fixed

/-!
# The fewest digits that read back

Every double stands for an interval of real numbers, those that round to it.
`shortest` picks from the decimals of the interval one with as few digits as
possible and, among those, the one nearest to the double.  Decimals of a given
number of digits form a grid, and only the two neighbours of the value on the
grid need to be tried.
-/

namespace Polarity.Decimal

/-- The positive decimal `digits * 10 ^ exponent`. -/
structure Scientific where
  digits : Nat
  exponent : Int
  deriving DecidableEq, Repr

namespace Scientific

def leading (value : Scientific) : Int :=
  value.exponent + (Nat.toDigits 10 value.digits).length - 1

def trimFrom : Nat → Scientific → Scientific
  | 0, value => value
  | fuel + 1, value =>
      if value.digits ≠ 0 ∧ value.digits % 10 = 0 then
        trimFrom fuel ⟨value.digits / 10, value.exponent + 1⟩
      else
        value

def trim (value : Scientific) : Scientific :=
  trimFrom (Nat.toDigits 10 value.digits).length value

end Scientific

namespace Binary

def decimalExponent (value : Binary) : Int :=
  let numerator := value.numerator
  let denominator := value.denominator
  if denominator ≤ numerator then
    ((Nat.toDigits 10 (numerator / denominator)).length : Int) - 1
  else
    -((Nat.toDigits 10 ((denominator - 1) / numerator)).length : Int)

def toDigits (count : Nat) (tie : Tie) (value : Binary) : Scientific :=
  let step := value.decimalExponent - (count : Int) + 1
  ⟨roundDiv (value.numerator * Nat.pow 10 (-step).toNat)
    (value.denominator * Nat.pow 10 step.toNat) tie, step⟩

/-- The gap below a power of two is half the gap above it, but for the smallest exponents. -/
def isNarrowBelow (value : Binary) : Bool :=
  value.mantissa == Nat.pow 2 52 && value.exponent != -1074

/--
Whether `digits * 10 ^ step` lies among the reals that round to the value.  Both
ends of the interval belong to it exactly when the mantissa is even.  Quantities
are compared in quarters of the last place.
-/
def covers (value : Binary) (digits : Nat) (step : Int) : Bool :=
  let unit := Nat.pow 2 value.exponent.toNat * Nat.pow 10 (-step).toNat
  let low := (4 * value.mantissa - if value.isNarrowBelow then 1 else 2) * unit
  let high := (4 * value.mantissa + 2) * unit
  let candidate := 4 * digits * Nat.pow 10 step.toNat * value.denominator
  if value.mantissa % 2 = 0 then
    low ≤ candidate && candidate ≤ high
  else
    low < candidate && candidate < high

/-- The neighbour on the grid of `count` digits that reads back, if there is one. -/
def shortestAt? (count : Nat) (tie : Tie) (value : Binary) : Option Scientific :=
  let step := value.decimalExponent - (count : Int) + 1
  let numerator := value.numerator * Nat.pow 10 (-step).toNat
  let denominator := value.denominator * Nat.pow 10 step.toNat
  let below := numerator / denominator
  match value.covers below step, value.covers (below + 1) step with
  | true, true => some ⟨roundDiv numerator denominator tie, step⟩
  | true, false => some ⟨below, step⟩
  | false, true => some ⟨below + 1, step⟩
  | false, false => none

/-- Seventeen digits always read back, so the search ends there. -/
def shortest (tie : Tie) (value : Binary) : Scientific :=
  match (List.range 17).findSome? fun count => value.shortestAt? (count + 1) tie with
  | some decimal => decimal.trim
  | none => (value.toDigits 17 tie).trim

end Binary

def Scientific.plain (value : Scientific) : String :=
  if 0 ≤ value.exponent then
    pointed 0 (value.digits * Nat.pow 10 value.exponent.toNat)
  else
    pointed (-value.exponent).toNat value.digits

def Reading.plain : Reading → String
  | .notANumber => "NaN"
  | .infinite negative => signText negative ++ "inf"
  | .finite negative magnitude =>
      signText negative ++
        if magnitude.mantissa = 0 then "0" else (magnitude.shortest .awayFromZero).plain

def plain (value : Float) : String := (Reading.ofFloat value).plain

end Polarity.Decimal
