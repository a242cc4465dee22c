import Polarity.Decimal.Literal
import Polarity.Decimal.Shortest

/-!
# Numbers in JSON

A numeral is kept as it is spelled: sign, digits before the point, digits after
it and exponent.  What number it stands for depends on what is asked for: a
whole number must be spelled as one, and a double may be spelled in any way.
-/

namespace Polarity.Json

open Decimal

inductive ExponentSign where
  | none
  | plus
  | minus
  deriving DecidableEq, Repr

structure Exponent where
  sign : ExponentSign
  digits : List Char
  deriving DecidableEq, Repr

/-- `fraction` is empty when there is no point. -/
structure Numeral where
  negative : Bool
  whole : List Char
  fraction : List Char
  exponent : Option Exponent
  deriving DecidableEq, Repr

def ExponentSign.text : ExponentSign → List Char
  | .none => []
  | .plus => ['+']
  | .minus => ['-']

def Exponent.value (exponent : Exponent) : Int :=
  match exponent.sign with
  | .minus => -(digitsValue exponent.digits : Int)
  | _ => digitsValue exponent.digits

namespace Numeral

def text (numeral : Numeral) : List Char :=
  (if numeral.negative then ['-'] else []) ++ numeral.whole ++
    (if numeral.fraction = [] then [] else '.' :: numeral.fraction) ++
    match numeral.exponent with
    | none => []
    | some exponent => 'e' :: exponent.sign.text ++ exponent.digits

/-! ## Whole numbers -/

def ofNat (number : Nat) : Numeral := ⟨false, Nat.toDigits 10 number, [], none⟩

def toNat? (numeral : Numeral) : Option Nat :=
  if numeral.negative ∨ numeral.fraction ≠ [] ∨ numeral.exponent ≠ none then none
  else
    let number := digitsValue numeral.whole
    if number < UInt64.size then some number else none

/-! ## Doubles -/

/-- As many leading digits as fit 64 bits, and how many of the digits after them are dropped. -/
def takeDigits : Nat → List Char → Nat × Nat
  | taken, [] => (taken, 0)
  | taken, digit :: rest =>
      let next := taken * 10 + (digit.toNat - '0'.toNat)
      if next < UInt64.size then takeDigits next rest else (taken, rest.length + 1)

def scaleDown (value : Float) (exponent : Nat) : Float :=
  if exponent ≤ 308 then value / Float.ofScientific 1 false exponent
  else if value == 0.0 then value
  else scaleDown (value / 1e308) (exponent - 308)
termination_by exponent

def scale? (value : Float) (exponent : Int) : Option Float :=
  if exponent < 0 then some (scaleDown value exponent.natAbs)
  else if exponent ≤ 308 then
    let scaled := value * Float.ofScientific 1 false exponent.natAbs
    if scaled == 1.0 / 0.0 then none else some scaled
  else if value == 0.0 then some value
  else none

/--
The leading digits that fit 64 bits, as a double, scaled by a power of ten.  At
most nineteen digits count, and every scaling step rounds.
-/
def toFloat? (numeral : Numeral) : Option Float := do
  let (whole, dropped) := takeDigits 0 numeral.whole
  let (significand, unused) := takeDigits whole numeral.fraction
  let taken := numeral.fraction.length - unused
  let exponent := (numeral.exponent.map Exponent.value).getD 0
  let value ← scale? significand.toUInt64.toFloat (exponent + dropped - taken)
  return if numeral.negative then -value else value

def plain (negative : Bool) (decimal : Scientific) : Numeral :=
  let places := (-decimal.exponent).toNat
  let digits := digitsPadded (places + 1) (decimal.digits * Nat.pow 10 decimal.exponent.toNat)
  let fraction := digits.drop (digits.length - places)
  ⟨negative, digits.take (digits.length - places), if fraction = [] then ['0'] else fraction, none⟩

def scientific (negative : Bool) (decimal : Scientific) : Numeral :=
  let digits := Nat.toDigits 10 decimal.digits
  let sign := if decimal.leading < 0 then ExponentSign.minus else .plus
  ⟨negative, digits.take 1, digits.drop 1,
    some ⟨sign, Nat.toDigits 10 decimal.leading.natAbs⟩⟩

/--
The fewest digits that read back, a tie going to the even neighbour.  Leading
digits from `10 ^ -5` to `10 ^ 15` are written without an exponent.  Infinities
and what is not a number have no numeral.
-/
def ofFloat? (value : Float) : Option Numeral :=
  match Reading.ofFloat value with
  | .notANumber => none
  | .infinite _ => none
  | .finite negative magnitude =>
      if magnitude.mantissa = 0 then some ⟨negative, ['0'], ['0'], none⟩
      else
        let decimal := magnitude.shortest .toEven
        if -5 ≤ decimal.leading ∧ decimal.leading ≤ 15 then some (plain negative decimal)
        else some (scientific negative decimal)

end Numeral

end Polarity.Json
