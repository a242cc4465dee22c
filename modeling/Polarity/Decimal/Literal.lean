import Polarity.Decimal.Binary

/-!
# Reading decimal literals

A literal is an optional sign, digits with at most one point among them, and an
optional exponent; a digit must stand before or after the point.  The words
`inf`, `infinity` and `nan` are read in any case.  The result is the double
nearest to the literal.
-/

namespace Polarity.Decimal

def isDigit (char : Char) : Bool := '0' ≤ char && char ≤ '9'

def digitsValue (digits : List Char) : Nat := Nat.ofDigitChars 10 digits 0

/--
The double nearest to `significand * 10 ^ exponent`.  Beyond the range of the
doubles the answer is known without computing the power.
-/
def nearest (significand : Nat) (exponent : Int) : Float :=
  let magnitude := exponent + (Nat.toDigits 10 significand).length
  if significand = 0 ∨ magnitude < -330 then 0.0
  else if 310 < magnitude then 1.0 / 0.0
  else Float.ofScientific significand (exponent < 0) exponent.natAbs

def splitSign : List Char → Bool × List Char
  | '-' :: rest => (true, rest)
  | '+' :: rest => (false, rest)
  | rest => (false, rest)

def readExponent? : List Char → Option Int
  | [] => some 0
  | mark :: rest =>
      if mark = 'e' ∨ mark = 'E' then
        let (negative, digits) := splitSign rest
        if digits ≠ [] ∧ digits.all isDigit then
          some (if negative then -(digitsValue digits : Int) else digitsValue digits)
        else
          none
      else
        none

def readMagnitude? (text : List Char) : Option Float := do
  let whole := text.takeWhile isDigit
  let rest := text.dropWhile isDigit
  let (fraction, rest) := match rest with
    | '.' :: after => (after.takeWhile isDigit, after.dropWhile isDigit)
    | _ => ([], rest)
  if whole = [] ∧ fraction = [] then none
  else
    let exponent ← readExponent? rest
    return nearest (digitsValue (whole ++ fraction)) (exponent - fraction.length)

def readNamed? (text : List Char) : Option Float :=
  match String.ofList (text.map Char.toLower) with
  | "inf" => some (1.0 / 0.0)
  | "infinity" => some (1.0 / 0.0)
  | "nan" => some (0.0 / 0.0)
  | _ => none

def read? (text : List Char) : Option Float :=
  let (negative, rest) := splitSign text
  let magnitude := match readNamed? rest with
    | some value => some value
    | none => readMagnitude? rest
  magnitude.map fun value => if negative then -value else value

/-- Digits with an optional plus sign, below `2 ^ 64`. -/
def readUInt64? (text : List Char) : Option UInt64 :=
  let digits := match text with
    | '+' :: rest => rest
    | _ => text
  if digits ≠ [] ∧ digits.all isDigit ∧ digitsValue digits < UInt64.size then
    some (UInt64.ofNat (digitsValue digits))
  else
    none

end Polarity.Decimal
