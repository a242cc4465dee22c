import Polarity.Json.Numeral

/-!
# Words of a JSON text

A text is read into tokens without regard to how they nest.  Blanks between
tokens are spaces, tabs, line feeds and carriage returns.  A string is read
with its escapes resolved; if an escape leaves half of a surrogate pair, the
string has no text but is a token all the same.
-/

namespace Polarity.Json

open Decimal

inductive Token where
  | beginObject
  | endObject
  | beginArray
  | endArray
  | comma
  | colon
  | null
  | bool (value : Bool)
  | number (value : Numeral)
  | string (text : Option String)
  deriving DecidableEq, Repr

/-! ## Strings -/

def hexDigit? (char : Char) : Option Nat :=
  if '0' ≤ char ∧ char ≤ '9' then some (char.toNat - '0'.toNat)
  else if 'a' ≤ char ∧ char ≤ 'f' then some (char.toNat - 'a'.toNat + 10)
  else if 'A' ≤ char ∧ char ≤ 'F' then some (char.toNat - 'A'.toNat + 10)
  else none

def scanUnit : List Char → Option (Nat × List Char)
  | a :: b :: c :: d :: rest => do
      let high := (← hexDigit? a) * 16 + (← hexDigit? b)
      let low := (← hexDigit? c) * 16 + (← hexDigit? d)
      return (high * 256 + low, rest)
  | _ => none

def isHighSurrogate (unit : Nat) : Bool := 0xD800 ≤ unit && unit ≤ 0xDBFF

def isLowSurrogate (unit : Nat) : Bool := 0xDC00 ≤ unit && unit ≤ 0xDFFF

def scanLowSurrogate : List Char → Option (Nat × List Char)
  | '\\' :: 'u' :: rest => (scanUnit rest).filter fun found => isLowSurrogate found.1
  | _ => none

def joinSurrogates (high low : Nat) : Char :=
  Char.ofNat (0x10000 + (high - 0xD800) * 0x400 + (low - 0xDC00))

def escapedChar? : Char → Option Char
  | '"' => some '"'
  | '\\' => some '\\'
  | '/' => some '/'
  | 'b' => some '\x08'
  | 'f' => some '\x0c'
  | 'n' => some '\n'
  | 'r' => some '\r'
  | 't' => some '\t'
  | _ => none

/-- What follows a backslash: a character, or nothing for half of a surrogate pair. -/
def scanEscape : List Char → Option (Option Char × List Char)
  | [] => none
  | 'u' :: rest =>
      match scanUnit rest with
      | none => none
      | some (unit, rest) =>
          if isHighSurrogate unit then
            match scanLowSurrogate rest with
            | some (low, rest) => some (some (joinSurrogates unit low), rest)
            | none => some (none, rest)
          else if isLowSurrogate unit then some (none, rest)
          else some (some (Char.ofNat unit), rest)
  | char :: rest => (escapedChar? char).map fun meant => (some meant, rest)

private theorem scanUnit_length {input rest : List Char} {unit : Nat}
    (hscan : scanUnit input = some (unit, rest)) : rest.length < input.length := by
  unfold scanUnit at hscan
  split at hscan
  · simp only [Option.bind_eq_bind, Option.bind_eq_some_iff, Option.pure_def, Option.some.injEq,
      Prod.mk.injEq] at hscan
    grind
  · contradiction

private theorem scanLowSurrogate_length {input rest : List Char} {unit : Nat}
    (hscan : scanLowSurrogate input = some (unit, rest)) : rest.length < input.length := by
  unfold scanLowSurrogate at hscan
  split at hscan
  · have := scanUnit_length (Option.filter_eq_some_iff.mp hscan).1
    simp only [List.length_cons]
    omega
  · contradiction

private theorem scanEscape_length {input rest : List Char} {piece : Option Char}
    (hscan : scanEscape input = some (piece, rest)) : rest.length < input.length := by
  unfold scanEscape at hscan
  split at hscan
  · contradiction
  · split at hscan
    · contradiction
    · rename_i hunit
      have hafter := scanUnit_length hunit
      split at hscan
      · split at hscan
        · rename_i hlow
          have hrest := scanLowSurrogate_length hlow
          grind
        · grind
      · split at hscan <;> grind
  · obtain ⟨meant, hmeant, hpair⟩ := Option.map_eq_some_iff.mp hscan
    grind

/-- `seen` is the text so far, last character first; `whole` is false once a half pair was met. -/
def scanString (seen : List Char) (whole : Bool) (input : List Char) :
    Option (Option String × List Char) :=
  match input with
  | [] => none
  | '"' :: rest => some (if whole then some (String.ofList seen.reverse) else none, rest)
  | '\\' :: rest =>
      match _hscan : scanEscape rest with
      | none => none
      | some (none, after) => scanString seen false after
      | some (some char, after) => scanString (char :: seen) whole after
  | char :: rest => if char.toNat < 0x20 then none else scanString (char :: seen) whole rest
termination_by input.length
decreasing_by
  · have := scanEscape_length _hscan
    simp only [List.length_cons]
    omega
  · have := scanEscape_length _hscan
    simp only [List.length_cons]
    omega
  · simp

private theorem scanString_length {seen input rest : List Char} {whole : Bool}
    {text : Option String} (hscan : scanString seen whole input = some (text, rest)) :
    rest.length < input.length := by
  fun_induction scanString seen whole input <;> grind [→ scanEscape_length]

/-! ## Numbers -/

def scanFraction : List Char → Option (List Char × List Char)
  | '.' :: rest =>
      let digits := rest.takeWhile isDigit
      if digits = [] then none else some (digits, rest.dropWhile isDigit)
  | rest => some ([], rest)

def scanExponentSign : List Char → ExponentSign × List Char
  | '+' :: rest => (.plus, rest)
  | '-' :: rest => (.minus, rest)
  | rest => (.none, rest)

def scanExponent : List Char → Option (Option Exponent × List Char)
  | [] => some (none, [])
  | mark :: rest =>
      if mark = 'e' ∨ mark = 'E' then
        let (sign, rest) := scanExponentSign rest
        let digits := rest.takeWhile isDigit
        if digits = [] then none else some (some ⟨sign, digits⟩, rest.dropWhile isDigit)
      else
        some (none, mark :: rest)

def isWhole (digits : List Char) : Bool :=
  match digits with
  | [] => false
  | '0' :: rest => rest.isEmpty
  | _ => true

def scanMagnitude (negative : Bool) (input : List Char) : Option (Numeral × List Char) :=
  let whole := input.takeWhile isDigit
  if isWhole whole then
    match scanFraction (input.dropWhile isDigit) with
    | none => none
    | some (fraction, rest) =>
        match scanExponent rest with
        | none => none
        | some (exponent, rest) => some (⟨negative, whole, fraction, exponent⟩, rest)
  else
    none

def scanNumeral : List Char → Option (Numeral × List Char)
  | '-' :: rest => scanMagnitude true rest
  | input => scanMagnitude false input

private theorem length_pos_of_isWhole {digits : List Char} (hwhole : isWhole digits = true) :
    0 < digits.length := by
  cases digits with
  | nil => contradiction
  | cons digit rest => simp

private theorem length_dropWhile_le (input : List Char) :
    (input.dropWhile isDigit).length ≤ input.length :=
  (List.dropWhile_suffix isDigit).length_le

private theorem scanFraction_length {input fraction rest : List Char}
    (hscan : scanFraction input = some (fraction, rest)) : rest.length ≤ input.length := by
  fun_cases scanFraction input <;> grind [scanFraction, length_dropWhile_le]

private theorem scanExponentSign_length (input : List Char) :
    (scanExponentSign input).2.length ≤ input.length := by
  fun_cases scanExponentSign input <;> simp

private theorem scanExponent_length {input rest : List Char} {exponent : Option Exponent}
    (hscan : scanExponent input = some (exponent, rest)) : rest.length ≤ input.length := by
  fun_cases scanExponent input <;>
    grind [scanExponent, length_dropWhile_le, scanExponentSign_length]

private theorem scanMagnitude_length {negative : Bool} {input rest : List Char} {numeral : Numeral}
    (hscan : scanMagnitude negative input = some (numeral, rest)) :
    rest.length < input.length := by
  have hsplit := congrArg List.length (List.takeWhile_append_dropWhile (p := isDigit) (l := input))
  rw [List.length_append] at hsplit
  simp only [scanMagnitude] at hscan
  split at hscan
  · rename_i hwhole
    have hpos := length_pos_of_isWhole hwhole
    split at hscan
    · contradiction
    · rename_i hfraction
      have hafter := scanFraction_length hfraction
      split at hscan
      · contradiction
      · rename_i hexponent
        have hrest := scanExponent_length hexponent
        grind
  · contradiction

private theorem scanNumeral_length {input rest : List Char} {numeral : Numeral}
    (hscan : scanNumeral input = some (numeral, rest)) : rest.length < input.length := by
  unfold scanNumeral at hscan
  split at hscan
  · have := scanMagnitude_length hscan
    simp only [List.length_cons]
    omega
  · exact scanMagnitude_length hscan

/-! ## Texts -/

def Token.ofMark? : Char → Option Token
  | '\x7b' => some .beginObject
  | '\x7d' => some .endObject
  | '[' => some .beginArray
  | ']' => some .endArray
  | ',' => some .comma
  | ':' => some .colon
  | _ => none

def isJsonBlank (char : Char) : Bool :=
  char == ' ' || char == '\t' || char == '\n' || char == '\r'

def scanFixedWord : List Char → Option (Token × List Char)
  | 'n' :: 'u' :: 'l' :: 'l' :: rest => some (.null, rest)
  | 't' :: 'r' :: 'u' :: 'e' :: rest => some (.bool true, rest)
  | 'f' :: 'a' :: 'l' :: 's' :: 'e' :: rest => some (.bool false, rest)
  | _ => none

def scanToken (char : Char) (rest : List Char) : Option (Token × List Char) :=
  if char = '"' then
    match scanString [] true rest with
    | none => none
    | some (text, after) => some (.string text, after)
  else
    match Token.ofMark? char with
    | some token => some (token, rest)
    | none =>
        match scanFixedWord (char :: rest) with
        | some found => some found
        | none =>
            match scanNumeral (char :: rest) with
            | none => none
            | some (numeral, after) => some (.number numeral, after)

private theorem scanFixedWord_length {input rest : List Char} {token : Token}
    (hscan : scanFixedWord input = some (token, rest)) : rest.length < input.length := by
  fun_cases scanFixedWord input <;> grind [scanFixedWord]

private theorem scanToken_length {char : Char} {input rest : List Char} {token : Token}
    (hscan : scanToken char input = some (token, rest)) : rest.length ≤ input.length := by
  unfold scanToken at hscan
  split at hscan
  · split at hscan
    · contradiction
    · rename_i hstring
      have := scanString_length hstring
      grind
  · split at hscan
    · grind
    · split at hscan
      · rename_i hword
        have := scanFixedWord_length (hword.trans hscan)
        grind
      · split at hscan
        · contradiction
        · rename_i hnumeral
          have := scanNumeral_length hnumeral
          grind

/-- Reads all of a text onto `seen`, whose last token stands first. -/
def scanFrom (seen : List Token) (input : List Char) : Option (List Token) :=
  match input with
  | [] => some seen.reverse
  | char :: rest =>
      if isJsonBlank char then scanFrom seen rest
      else
        match _hscan : scanToken char rest with
        | none => none
        | some (token, after) => scanFrom (token :: seen) after
termination_by input.length
decreasing_by
  · simp
  · have := scanToken_length _hscan
    simp only [List.length_cons]
    omega

def scan (text : String) : Option (List Token) := scanFrom [] text.toList

end Polarity.Json
