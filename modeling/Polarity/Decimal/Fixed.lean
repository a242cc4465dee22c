import Polarity.Decimal.Binary

/-!
# A set number of decimal places

The exact value is rounded to the given number of places, a tie going to the
even neighbour.  The sign is kept even where all digits are zero, and no
exponent is ever written.
-/

namespace Polarity.Decimal

inductive Tie where
  | toEven
  | awayFromZero
  deriving DecidableEq, Repr

def roundDiv (numerator denominator : Nat) (tie : Tie) : Nat :=
  let quotient := numerator / denominator
  let twice := 2 * (numerator % denominator)
  if twice < denominator then quotient
  else if denominator < twice then quotient + 1
  else match tie with
    | .toEven => if quotient % 2 = 0 then quotient else quotient + 1
    | .awayFromZero => quotient + 1

def digitsPadded (length value : Nat) : List Char :=
  let digits := Nat.toDigits 10 value
  List.replicate (length - digits.length) '0' ++ digits

def signText (negative : Bool) : String := if negative then "-" else ""

/-- `value / 10 ^ places` written out with that many places. -/
def pointed (places value : Nat) : String :=
  let digits := digitsPadded (places + 1) value
  let whole := String.ofList (digits.take (digits.length - places))
  if places = 0 then whole
  else whole ++ "." ++ String.ofList (digits.drop (digits.length - places))

def Reading.fixed (places : Nat) : Reading → String
  | .notANumber => "NaN"
  | .infinite negative => signText negative ++ "inf"
  | .finite negative magnitude =>
      signText negative ++ pointed places
        (roundDiv (magnitude.numerator * Nat.pow 10 places) magnitude.denominator .toEven)

def fixed (places : Nat) (value : Float) : String := (Reading.ofFloat value).fixed places

end Polarity.Decimal
