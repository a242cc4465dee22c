import Polarity.Proofs.Json.Value

/-!
# Compact texts are read as they are written

A compact text has no blanks, so a numeral ends where the mark after it begins.
The tokens are the same as those of the indented text.
-/

namespace Polarity.Json

private theorem endsNumeral_mark {char : Char} {token : Token}
    (hmark : Token.ofMark? char = some token) (rest : List Char) : EndsNumeral (char :: rest) := by
  intro other hother
  obtain rfl := Option.some.inj hother
  fun_cases Token.ofMark? char <;> simp_all [Token.ofMark?, Decimal.isDigit]

mutual

private theorem scanFrom_compact (seen : List Token) {rest : List Char} (hrest : EndsNumeral rest) :
    (value : Value) → value.WellFormed →
    scanFrom seen (compactChars value ++ rest) = scanFrom (value.tokens.reverse ++ seen) rest
  | .null, _ => scanFrom_null seen rest
  | .bool value, _ => scanFrom_bool seen value rest
  | .string text, _ => scanFrom_quoted seen text rest
  | .number numeral, hvalue => scanFrom_numeral ((wellFormed_number numeral).mp hvalue) hrest
  | .array items, hvalue => by
      simp only [compactChars, List.cons_append, List.append_assoc, List.nil_append]
      rw [scanFrom_mark rfl,
        scanFrom_compactItems _ (endsNumeral_mark rfl rest) items ((wellFormed_array _).mp hvalue),
        scanFrom_mark rfl]
      simp [Value.tokens]
  | .object fields, hvalue => by
      simp only [compactChars, List.cons_append, List.append_assoc, List.nil_append]
      rw [scanFrom_mark rfl,
        scanFrom_compactFields _ (endsNumeral_mark rfl rest) fields
          ((wellFormed_object _).mp hvalue),
        scanFrom_mark rfl]
      simp [Value.tokens]

private theorem scanFrom_compactItems (seen : List Token) {rest : List Char}
    (hrest : EndsNumeral rest) :
    (items : List Value) → (∀ item ∈ items, item.WellFormed) →
    scanFrom seen (compactItems items ++ rest) = scanFrom ((itemTokens items).reverse ++ seen) rest
  | [], _ => rfl
  | [item], hitems => scanFrom_compact seen hrest item (List.forall_mem_singleton.mp hitems)
  | item :: next :: items, hitems => by
      rw [List.forall_mem_cons] at hitems
      simp only [compactItems, List.cons_append, List.append_assoc]
      rw [scanFrom_compact seen (endsNumeral_mark rfl _) item hitems.1, scanFrom_mark rfl,
        scanFrom_compactItems _ hrest _ hitems.2]
      simp [itemTokens]

private theorem scanFrom_compactFields (seen : List Token) {rest : List Char}
    (hrest : EndsNumeral rest) :
    (fields : List (Option String × Value)) → (∀ field ∈ fields, field.2.WellFormed) →
    scanFrom seen (compactFields fields ++ rest) =
      scanFrom ((fieldTokens fields).reverse ++ seen) rest
  | [], _ => rfl
  | [(name, value)], hfields => by
      rw [List.forall_mem_singleton] at hfields
      simp only [compactFields, List.cons_append, List.append_assoc]
      rw [scanFrom_quoted, scanFrom_mark rfl, scanFrom_compact _ hrest value hfields]
      simp [fieldTokens]
  | (name, value) :: next :: fields, hfields => by
      rw [List.forall_mem_cons] at hfields
      simp only [compactFields, List.cons_append, List.append_assoc]
      rw [scanFrom_quoted, scanFrom_mark rfl,
        scanFrom_compact _ (endsNumeral_mark rfl _) value hfields.1, scanFrom_mark rfl,
        scanFrom_compactFields _ hrest _ hfields.2]
      simp [fieldTokens]

end

theorem scan_compact {value : Value} (hvalue : value.WellFormed) :
    scan value.compact = some value.tokens := by
  have hscan := scanFrom_compact [] endsNumeral_nil value hvalue
  rw [List.append_nil, List.append_nil] at hscan
  rw [scan, Value.compact, String.toList_ofList, hscan, scanFrom, List.reverse_reverse]

theorem parse?_compact {value : Value} (hvalue : value.WellFormed) :
    Value.parse? value.compact = some value := parse?_of_scan (scan_compact hvalue)

namespace Value

theorem wellFormed_ofNat (number : Nat) : (ofNat number).WellFormed :=
  (wellFormed_number _).mpr (Json.wellFormed_ofNat number)

theorem nat?_ofNat {number : Nat} (hnumber : number < UInt64.size) :
    (ofNat number).nat? = some number := by
  simp [ofNat, nat?, toNat?_ofNat hnumber]

end Value

end Polarity.Json
