import Polarity.Json.Token

/-!
# Numerals are read as they are spelled

A numeral that is spelled by the rules is read back from its text, as long as
what follows cannot go on with it.  The numerals that are written for whole
numbers and for doubles are spelled by the rules.
-/

namespace Polarity.Json

open Decimal

/-! ## Digits -/

private theorem isDigit_eq (char : Char) : isDigit char = char.isDigit := rfl

theorem isDigit_of_mem_toDigits {number : Nat} {char : Char}
    (hchar : char ∈ Nat.toDigits 10 number) : isDigit char = true :=
  (isDigit_eq char).trans (Nat.isDigit_of_mem_toDigits (by decide) (by decide) hchar)

private theorem head?_toDigits {number : Nat} (hnumber : number ≠ 0) :
    (Nat.toDigits 10 number).head? ≠ some '0' := by
  induction number using Nat.strongRecOn with
  | _ number ih =>
      rw [Nat.toDigits_eq_if (by decide)]
      split
      · next hsmall =>
          have hdigit : ∀ digit < 10, digit ≠ 0 → digit.digitChar ≠ '0' := by decide
          simpa using hdigit number hsmall hnumber
      · next hlarge =>
          have hrest := ih (number / 10) (by omega) (by omega)
          cases hdigits : Nat.toDigits 10 (number / 10) with
          | nil => exact absurd hdigits Nat.toDigits_ne_nil
          | cons digit digits => simpa [hdigits] using hrest

private theorem isWhole_iff (digits : List Char) :
    isWhole digits = true ↔ digits ≠ [] ∧ (digits.head? = some '0' → digits = ['0']) := by
  cases digits with
  | nil => simp [isWhole]
  | cons digit digits =>
      by_cases hzero : digit = '0'
      · simp [isWhole, hzero]
      · simp [isWhole, hzero]

private theorem isWhole_toDigits (number : Nat) : isWhole (Nat.toDigits 10 number) = true := by
  rw [isWhole_iff]
  refine ⟨Nat.toDigits_ne_nil, fun hhead => ?_⟩
  by_cases hnumber : number = 0
  · rw [hnumber, Nat.toDigits_zero]
  · exact absurd hhead (head?_toDigits hnumber)

private theorem isWhole_take {digits : List Char} {count : Nat} (hdigits : isWhole digits = true)
    (hcount : 0 < count) : isWhole (digits.take count) = true := by
  cases count with
  | zero => contradiction
  | succ count =>
      cases digits with
      | nil => contradiction
      | cons digit digits =>
          rw [isWhole_iff] at hdigits ⊢
          simp_all

private theorem takeWhile_digits {digits rest : List Char}
    (hdigits : ∀ char ∈ digits, isDigit char = true)
    (hrest : ∀ char ∈ rest.head?, isDigit char = false) :
    (digits ++ rest).takeWhile isDigit = digits ∧ (digits ++ rest).dropWhile isDigit = rest := by
  rw [List.takeWhile_append_of_pos hdigits, List.dropWhile_append_of_pos hdigits]
  cases rest with
  | nil => simp
  | cons char rest =>
      have hchar : isDigit char = false := hrest char rfl
      simp [hchar]

/-! ## Reading -/

structure Exponent.WellFormed (exponent : Exponent) : Prop where
  ne_nil : exponent.digits ≠ []
  digits : ∀ char ∈ exponent.digits, isDigit char = true

structure Numeral.WellFormed (numeral : Numeral) : Prop where
  isWhole : isWhole numeral.whole = true
  whole : ∀ char ∈ numeral.whole, isDigit char = true
  fraction : ∀ char ∈ numeral.fraction, isDigit char = true
  exponent : ∀ exponent ∈ numeral.exponent, exponent.WellFormed

/-- No numeral goes on with such a text. -/
def EndsNumeral (rest : List Char) : Prop :=
  ∀ char ∈ rest.head?, isDigit char = false ∧ char ≠ '.' ∧ char ≠ 'e' ∧ char ≠ 'E'

def exponentText : Option Exponent → List Char
  | none => []
  | some exponent => 'e' :: exponent.sign.text ++ exponent.digits

def fractionText (fraction : List Char) : List Char :=
  if fraction = [] then [] else '.' :: fraction

theorem Numeral.text_eq (numeral : Numeral) :
    numeral.text = (if numeral.negative then ['-'] else []) ++
      (numeral.whole ++ (fractionText numeral.fraction ++ exponentText numeral.exponent)) := by
  rw [text, ← List.append_assoc, ← List.append_assoc]
  rfl

private theorem scanExponentSign_text {exponent : Exponent} (hexponent : exponent.WellFormed)
    (rest : List Char) :
    scanExponentSign (exponent.sign.text ++ exponent.digits ++ rest) =
      (exponent.sign, exponent.digits ++ rest) := by
  obtain ⟨sign, digits⟩ := exponent
  obtain ⟨hsome, hdigits⟩ := hexponent
  cases sign with
  | plus => rfl
  | minus => rfl
  | none =>
      cases digits with
      | nil => contradiction
      | cons digit digits =>
          have hdigit : isDigit digit = true := hdigits digit List.mem_cons_self
          simp only [ExponentSign.text, List.nil_append, List.cons_append]
          unfold scanExponentSign
          split <;> simp_all [isDigit]

private theorem scanExponent_text {exponent : Option Exponent} {rest : List Char}
    (hexponent : ∀ spelled ∈ exponent, Exponent.WellFormed spelled) (hrest : EndsNumeral rest) :
    scanExponent (exponentText exponent ++ rest) = some (exponent, rest) := by
  cases exponent with
  | none =>
      cases rest with
      | nil => rfl
      | cons char rest =>
          obtain ⟨-, -, he, hE⟩ := hrest char rfl
          simp [exponentText, scanExponent, he, hE]
  | some exponent =>
      have hexponent := hexponent exponent rfl
      obtain ⟨htake, hdrop⟩ :=
        takeWhile_digits hexponent.digits fun char hchar => (hrest char hchar).1
      simp only [exponentText, List.cons_append, scanExponent, true_or, if_true,
        scanExponentSign_text hexponent, htake, hdrop, hexponent.ne_nil, if_false]

private theorem scanFraction_text {fraction rest : List Char}
    (hfraction : ∀ char ∈ fraction, isDigit char = true)
    (hrest : ∀ char ∈ rest.head?, isDigit char = false ∧ char ≠ '.') :
    scanFraction (fractionText fraction ++ rest) = some (fraction, rest) := by
  unfold fractionText
  split
  · next hempty =>
      cases rest with
      | nil => simp [scanFraction, hempty]
      | cons char rest =>
          obtain ⟨-, hpoint⟩ := hrest char rfl
          simp [scanFraction, hempty, hpoint]
  · next hsome =>
      obtain ⟨htake, hdrop⟩ := takeWhile_digits hfraction fun char hchar => (hrest char hchar).1
      simp only [List.cons_append, scanFraction, htake, hdrop, hsome, if_false]

private theorem head?_exponentText (exponent : Option Exponent) {rest : List Char}
    (hrest : EndsNumeral rest) :
    ∀ char ∈ (exponentText exponent ++ rest).head?, isDigit char = false ∧ char ≠ '.' := by
  intro char hchar
  cases exponent with
  | none => exact ⟨(hrest char hchar).1, (hrest char hchar).2.1⟩
  | some exponent =>
      obtain rfl : 'e' = char := by simpa [exponentText] using hchar
      decide

private theorem head?_fractionText (fraction : List Char) {rest : List Char}
    (hrest : ∀ char ∈ rest.head?, isDigit char = false) :
    ∀ char ∈ (fractionText fraction ++ rest).head?, isDigit char = false := by
  intro char hchar
  unfold fractionText at hchar
  split at hchar
  · exact hrest char hchar
  · obtain rfl : '.' = char := by simpa using hchar
    decide

private theorem scanMagnitude_text {numeral : Numeral} {rest : List Char}
    (hnumeral : numeral.WellFormed) (hrest : EndsNumeral rest) (negative : Bool) :
    scanMagnitude negative (numeral.whole ++
        (fractionText numeral.fraction ++ (exponentText numeral.exponent ++ rest))) =
      some (⟨negative, numeral.whole, numeral.fraction, numeral.exponent⟩, rest) := by
  have hexponent := head?_exponentText numeral.exponent hrest
  obtain ⟨htake, hdrop⟩ := takeWhile_digits hnumeral.whole
    (head?_fractionText numeral.fraction fun char hchar => (hexponent char hchar).1)
  simp only [scanMagnitude, htake, hdrop, hnumeral.isWhole, if_true,
    scanFraction_text hnumeral.fraction hexponent, scanExponent_text hnumeral.exponent hrest]

theorem scanNumeral_text {numeral : Numeral} {rest : List Char} (hnumeral : numeral.WellFormed)
    (hrest : EndsNumeral rest) : scanNumeral (numeral.text ++ rest) = some (numeral, rest) := by
  have hmagnitude := scanMagnitude_text hnumeral hrest
  rw [Numeral.text_eq, List.append_assoc, List.append_assoc, List.append_assoc]
  obtain ⟨negative, whole, fraction, exponent⟩ := numeral
  cases negative with
  | true => exact hmagnitude true
  | false =>
      cases whole with
      | nil => exact absurd hnumeral.isWhole (by simp [isWhole])
      | cons digit whole =>
          have hdigit : isDigit digit = true := hnumeral.whole digit List.mem_cons_self
          have hsign : digit ≠ '-' := by
            rintro rfl
            contradiction
          simpa [scanNumeral, hsign] using hmagnitude false

private theorem isDigit_of_mem_takeWhile {input : List Char} {char : Char}
    (hchar : char ∈ input.takeWhile isDigit) : isDigit char = true :=
  List.all_eq_true.mp List.all_takeWhile char hchar

private theorem isDigit_of_scanFraction {input fraction rest : List Char}
    (hscan : scanFraction input = some (fraction, rest)) :
    ∀ char ∈ fraction, isDigit char = true := by
  unfold scanFraction at hscan
  split at hscan
  · dsimp only at hscan
    split at hscan
    · contradiction
    · obtain ⟨rfl, -⟩ := Prod.mk.inj (Option.some.inj hscan)
      exact fun _ => isDigit_of_mem_takeWhile
  · obtain ⟨rfl, -⟩ := Prod.mk.inj (Option.some.inj hscan)
    simp

private theorem wellFormed_of_scanExponent {input rest : List Char} {exponent : Option Exponent}
    (hscan : scanExponent input = some (exponent, rest)) :
    ∀ spelled ∈ exponent, Exponent.WellFormed spelled := by
  unfold scanExponent at hscan
  split at hscan
  · obtain ⟨rfl, -⟩ := Prod.mk.inj (Option.some.inj hscan)
    simp
  · split at hscan
    · dsimp only at hscan
      split at hscan
      · contradiction
      · next hsome =>
          obtain ⟨rfl, -⟩ := Prod.mk.inj (Option.some.inj hscan)
          simp only [Option.mem_some, forall_eq']
          exact ⟨hsome, fun _ => isDigit_of_mem_takeWhile⟩
    · obtain ⟨rfl, -⟩ := Prod.mk.inj (Option.some.inj hscan)
      simp

private theorem wellFormed_of_scanMagnitude {negative : Bool} {input rest : List Char}
    {numeral : Numeral} (hscan : scanMagnitude negative input = some (numeral, rest)) :
    numeral.WellFormed := by
  simp only [scanMagnitude] at hscan
  split at hscan
  · next hwhole =>
      split at hscan
      · contradiction
      · next hfraction =>
          split at hscan
          · contradiction
          · next hexponent =>
              obtain ⟨rfl, -⟩ := Prod.mk.inj (Option.some.inj hscan)
              exact ⟨hwhole, fun _ => isDigit_of_mem_takeWhile, isDigit_of_scanFraction hfraction,
                wellFormed_of_scanExponent hexponent⟩
  · contradiction

theorem wellFormed_of_scanNumeral {input rest : List Char} {numeral : Numeral}
    (hscan : scanNumeral input = some (numeral, rest)) : numeral.WellFormed := by
  unfold scanNumeral at hscan
  split at hscan <;> exact wellFormed_of_scanMagnitude hscan

/-! ## Writing -/

theorem wellFormed_ofNat (number : Nat) : (Numeral.ofNat number).WellFormed where
  isWhole := isWhole_toDigits number
  whole := fun _ => isDigit_of_mem_toDigits
  fraction := by simp [Numeral.ofNat]
  exponent := by simp [Numeral.ofNat]

theorem isDigit_of_mem_digitsPadded {length number : Nat} {char : Char}
    (hchar : char ∈ digitsPadded length number) : isDigit char = true := by
  rcases List.mem_append.mp hchar with hchar | hchar
  · obtain ⟨-, rfl⟩ := List.mem_replicate.mp hchar
    decide
  · exact isDigit_of_mem_toDigits hchar

private theorem isWhole_take_digitsPadded (places number : Nat) :
    isWhole ((digitsPadded (places + 1) number).take
      ((digitsPadded (places + 1) number).length - places)) = true := by
  have hdigits := isWhole_toDigits number
  by_cases hpadded : (Nat.toDigits 10 number).length < places + 1
  · -- The zeros in front leave exactly one of them before the point.
    have hlength : (digitsPadded (places + 1) number).length - places = 1 := by
      simp [digitsPadded]
      omega
    obtain ⟨zeros, hzeros⟩ : ∃ zeros, places + 1 - (Nat.toDigits 10 number).length = zeros + 1 :=
      ⟨places - (Nat.toDigits 10 number).length, by omega⟩
    rw [hlength, digitsPadded, hzeros, List.replicate_succ]
    rfl
  · have hsame : digitsPadded (places + 1) number = Nat.toDigits 10 number := by
      have hzeros : places + 1 - (Nat.toDigits 10 number).length = 0 := by omega
      simp [digitsPadded, hzeros]
    rw [hsame]
    exact isWhole_take hdigits (by omega)

theorem wellFormed_plain (negative : Bool) (decimal : Scientific) :
    (Numeral.plain negative decimal).WellFormed where
  isWhole := isWhole_take_digitsPadded _ _
  whole := fun _ hchar => isDigit_of_mem_digitsPadded (List.mem_of_mem_take hchar)
  fraction := by
    intro char hchar
    simp only [Numeral.plain] at hchar
    split at hchar
    · obtain rfl := List.mem_singleton.mp hchar
      decide
    · exact isDigit_of_mem_digitsPadded (List.mem_of_mem_drop hchar)
  exponent := by simp [Numeral.plain]

theorem wellFormed_scientific (negative : Bool) (decimal : Scientific) :
    (Numeral.scientific negative decimal).WellFormed where
  isWhole := isWhole_take (isWhole_toDigits decimal.digits) (by decide)
  whole := fun _ hchar => isDigit_of_mem_toDigits (List.mem_of_mem_take hchar)
  fraction := fun _ hchar => isDigit_of_mem_toDigits (List.mem_of_mem_drop hchar)
  exponent := by
    simp only [Numeral.scientific, Option.mem_some, forall_eq']
    exact ⟨Nat.toDigits_ne_nil, fun _ => isDigit_of_mem_toDigits⟩

theorem wellFormed_of_ofFloat? {value : Float} {numeral : Numeral}
    (hnumeral : Numeral.ofFloat? value = some numeral) : numeral.WellFormed := by
  unfold Numeral.ofFloat? at hnumeral
  split at hnumeral
  · contradiction
  · contradiction
  · split at hnumeral
    · obtain rfl := Option.some.inj hnumeral
      exact ⟨rfl, by simp [isDigit], by simp [isDigit], by simp⟩
    · dsimp only at hnumeral
      split at hnumeral
      · exact Option.some.inj hnumeral ▸ wellFormed_plain _ _
      · exact Option.some.inj hnumeral ▸ wellFormed_scientific _ _

/-! ## Whole numbers -/

theorem toNat?_ofNat {number : Nat} (hnumber : number < UInt64.size) :
    (Numeral.ofNat number).toNat? = some number := by
  have hvalue : digitsValue (Nat.toDigits 10 number) = number := Nat.ofDigitChars_ten_toDigits
  simp [Numeral.toNat?, Numeral.ofNat, hvalue, hnumber]

end Polarity.Json
