import Polarity.Json.Printer
import Polarity.Proofs.Json.Numeral

/-!
# Tokens are read as they are written

Every token is read back from its text, and blanks are passed over.  Only a
numeral asks something of what follows it.
-/

namespace Polarity.Json

open Decimal

/-! ## Strings -/

private theorem hexDigit?_hexChar {digit : Nat} (hdigit : digit < 16) :
    hexDigit? (hexChar digit) = some digit := by
  have hall : ∀ digit < 16, hexDigit? (hexChar digit) = some digit := by decide
  exact hall digit hdigit

private theorem scanUnit_control {number : Nat} (hnumber : number < 0x20) (rest : List Char) :
    scanUnit ('0' :: '0' :: hexChar (number / 16) :: hexChar (number % 16) :: rest) =
      some (number, rest) := by
  have hzero : hexDigit? '0' = some 0 := rfl
  have hhigh := hexDigit?_hexChar (show number / 16 < 16 by omega)
  have hlow := hexDigit?_hexChar (show number % 16 < 16 by omega)
  have hjoined : (0 * 16 + 0) * 256 + (number / 16 * 16 + number % 16) = number := by omega
  simp only [scanUnit, hzero, hhigh, hlow, Option.bind_eq_bind, Option.bind_some, Option.pure_def,
    hjoined]

private theorem scanString_backslash {seen rest after : List Char} {whole : Bool} {char : Char}
    (hescape : scanEscape rest = some (some char, after)) :
    scanString seen whole ('\\' :: rest) = scanString (char :: seen) whole after := by
  rw [scanString]
  split
  · simp_all
  · next hhalf => simp [hescape] at hhalf
  · next hchar =>
      simp only [hescape, Option.some.injEq, Prod.mk.injEq] at hchar
      rw [hchar.1, hchar.2]

private theorem scanString_plain {seen rest : List Char} {whole : Bool} {char : Char}
    (hquote : char ≠ '"') (hbackslash : char ≠ '\\') (hcontrol : ¬char.toNat < 0x20) :
    scanString seen whole (char :: rest) = scanString (char :: seen) whole rest := by
  rw [scanString.eq_4 _ _ _ _ hquote hbackslash, if_neg hcontrol]

private theorem scanEscape_control {char : Char} (hchar : char.toNat < 0x20) (rest : List Char) :
    scanEscape
        ('u' :: '0' :: '0' :: hexChar (char.toNat / 16) :: hexChar (char.toNat % 16) :: rest) =
      some (some char, rest) := by
  have hhigh : isHighSurrogate char.toNat = false := by
    simp [isHighSurrogate]
    omega
  have hlow : isLowSurrogate char.toNat = false := by
    simp [isLowSurrogate]
    omega
  simp [scanEscape, scanUnit_control hchar, hhigh, hlow]

private theorem scanString_escape (seen : List Char) (whole : Bool) (char : Char)
    (rest : List Char) :
    scanString seen whole (escape char ++ rest) = scanString (char :: seen) whole rest := by
  fun_cases escape char with
  | case8 _ _ _ _ _ _ _ hcontrol => exact scanString_backslash (scanEscape_control hcontrol rest)
  | case9 hquote hbackslash _ _ _ _ _ hcontrol => exact scanString_plain hquote hbackslash hcontrol
  | _ =>
      -- The characters with an escape of their own.
      subst_vars
      exact scanString_backslash rfl

private theorem scanString_text (text seen rest : List Char) :
    scanString seen true (text.flatMap escape ++ '"' :: rest) =
      some (some (String.ofList (seen.reverse ++ text)), rest) := by
  induction text generalizing seen with
  | nil => simp [scanString]
  | cons char text ih =>
      rw [List.flatMap_cons, List.append_assoc, scanString_escape, ih]
      simp

private theorem scanString_half (rest : List Char) :
    scanString [] true ('\\' :: 'u' :: 'd' :: '8' :: '0' :: '0' :: '"' :: rest) =
      some (none, rest) := by
  have hescape : scanEscape ('u' :: 'd' :: '8' :: '0' :: '0' :: '"' :: rest) =
      some (none, '"' :: rest) := by
    simp [scanEscape, scanUnit, hexDigit?, isHighSurrogate, scanLowSurrogate]
  rw [scanString]
  split
  · simp_all
  · next hhalf =>
      simp only [hescape, Option.some.injEq, Prod.mk.injEq, true_and] at hhalf
      rw [← hhalf, scanString, if_neg Bool.false_ne_true]
  · next hchar => simp [hescape] at hchar

private theorem scanString_quoted (text : Option String) (rest : List Char) :
    ∃ chars, quoted text = '"' :: chars ∧
      scanString [] true (chars ++ rest) = some (text, rest) := by
  cases text with
  | none => exact ⟨_, rfl, scanString_half rest⟩
  | some text =>
      refine ⟨_, rfl, ?_⟩
      simpa using scanString_text text.toList [] rest

/-! ## Texts -/

theorem scanFrom_blank {seen : List Token} {rest : List Char} {char : Char}
    (hblank : isJsonBlank char = true) : scanFrom seen (char :: rest) = scanFrom seen rest := by
  rw [scanFrom, if_pos hblank]

theorem scanFrom_lineBreak (seen : List Token) (depth : Nat) (rest : List Char) :
    scanFrom seen (lineBreak depth ++ rest) = scanFrom seen rest := by
  have hindent : ∀ width,
      scanFrom seen (List.replicate width ' ' ++ rest) = scanFrom seen rest := by
    intro width
    induction width with
    | zero => rfl
    | succ width ih => rw [List.replicate_succ, List.cons_append, scanFrom_blank rfl, ih]
  rw [lineBreak, List.cons_append, scanFrom_blank rfl, hindent]

private theorem scanFrom_token {seen : List Token} {rest after : List Char} {char : Char}
    {token : Token}
    (hblank : isJsonBlank char = false) (hscan : scanToken char rest = some (token, after)) :
    scanFrom seen (char :: rest) = scanFrom (token :: seen) after := by
  rw [scanFrom, if_neg (by simp [hblank])]
  split
  · simp_all
  · next hfound =>
      simp only [hscan, Option.some.injEq, Prod.mk.injEq] at hfound
      rw [hfound.1, hfound.2]

theorem scanFrom_mark {seen : List Token} {rest : List Char} {char : Char} {token : Token}
    (hmark : Token.ofMark? char = some token) :
    scanFrom seen (char :: rest) = scanFrom (token :: seen) rest := by
  have hblank : isJsonBlank char = false := by
    fun_cases Token.ofMark? char <;> simp_all [Token.ofMark?, isJsonBlank]
  have hquote : char ≠ '"' := by
    rintro rfl
    contradiction
  apply scanFrom_token hblank
  simp only [scanToken, if_neg hquote, hmark]

theorem scanFrom_null (seen : List Token) (rest : List Char) :
    scanFrom seen (nullText ++ rest) = scanFrom (.null :: seen) rest :=
  scanFrom_token rfl rfl

theorem scanFrom_bool (seen : List Token) (value : Bool) (rest : List Char) :
    scanFrom seen (boolText value ++ rest) = scanFrom (.bool value :: seen) rest := by
  cases value <;> exact scanFrom_token rfl rfl

theorem scanFrom_quoted (seen : List Token) (text : Option String) (rest : List Char) :
    scanFrom seen (quoted text ++ rest) = scanFrom (.string text :: seen) rest := by
  obtain ⟨chars, hquoted, hscan⟩ := scanString_quoted text rest
  rw [hquoted, List.cons_append]
  apply scanFrom_token rfl
  simp only [scanToken, if_pos, hscan]

private theorem text_eq_cons {numeral : Numeral} (hnumeral : numeral.WellFormed) :
    ∃ char chars, numeral.text = char :: chars ∧ (char = '-' ∨ isDigit char = true) := by
  rw [Numeral.text_eq]
  obtain ⟨negative, whole, fraction, exponent⟩ := numeral
  cases negative with
  | true => exact ⟨'-', _, rfl, .inl rfl⟩
  | false =>
      cases whole with
      | nil => exact absurd hnumeral.isWhole (by simp [isWhole])
      | cons digit whole => exact ⟨digit, _, rfl, .inr (hnumeral.whole digit List.mem_cons_self)⟩

private theorem scanToken_of_opensNumeral {char : Char} (rest : List Char)
    (hchar : char = '-' ∨ isDigit char = true) :
    isJsonBlank char = false ∧
      scanToken char rest =
        (scanNumeral (char :: rest)).map fun found => (.number found.1, found.2) := by
  have hblank : isJsonBlank char = false := by
    rw [Bool.eq_false_iff]
    intro hblank
    simp only [isJsonBlank, Bool.or_eq_true, beq_iff_eq] at hblank
    rcases hblank with ((rfl | rfl) | rfl) | rfl <;> exact absurd hchar (by decide)
  have hquote : char ≠ '"' := by
    rintro rfl
    exact absurd hchar (by decide)
  have hmark : Token.ofMark? char = none := by
    fun_cases Token.ofMark? char <;> first | rfl | exact absurd hchar (by decide)
  have hword : scanFixedWord (char :: rest) = none := by
    unfold scanFixedWord
    split <;> first | rfl | (next hword => cases hword; exact absurd hchar (by decide))
  refine ⟨hblank, ?_⟩
  simp only [scanToken, if_neg hquote, hmark, hword]
  cases scanNumeral (char :: rest) <;> rfl

theorem scanFrom_numeral {seen : List Token} {numeral : Numeral} {rest : List Char}
    (hnumeral : numeral.WellFormed) (hrest : EndsNumeral rest) :
    scanFrom seen (numeral.text ++ rest) = scanFrom (.number numeral :: seen) rest := by
  have hscan := scanNumeral_text hnumeral hrest
  obtain ⟨char, chars, htext, hchar⟩ := text_eq_cons hnumeral
  obtain ⟨hblank, htoken⟩ := scanToken_of_opensNumeral (chars ++ rest) hchar
  rw [htext, List.cons_append] at hscan ⊢
  exact scanFrom_token hblank (by rw [htoken, hscan]; rfl)

end Polarity.Json
