import Polarity.Proofs.Json.Token

/-!
# Values are read as they are written

The indented text of a value is scanned into the value's tokens, and the
automaton puts those together to the value again.  Fields of a record are found
by their names.
-/

namespace Polarity.Json

mutual

def Value.tokens : Value → List Token
  | .null => [.null]
  | .bool value => [.bool value]
  | .number value => [.number value]
  | .string text => [.string text]
  | .array items => .beginArray :: itemTokens items ++ [.endArray]
  | .object fields => .beginObject :: fieldTokens fields ++ [.endObject]

def itemTokens : List Value → List Token
  | [] => []
  | [item] => item.tokens
  | item :: rest => item.tokens ++ .comma :: itemTokens rest

def fieldTokens : List (Option String × Value) → List Token
  | [] => []
  | [(name, value)] => .string name :: .colon :: value.tokens
  | (name, value) :: rest => .string name :: .colon :: value.tokens ++ .comma :: fieldTokens rest

end

/-! ## Scanning -/

def Spelled (tokens : List Token) : Prop :=
  ∀ numeral, .number numeral ∈ tokens → numeral.WellFormed

/-- All numerals in the value are spelled by the rules. -/
def Value.WellFormed (value : Value) : Prop := Spelled value.tokens

@[simp]
theorem spelled_nil : Spelled [] := by simp [Spelled]

@[simp]
theorem spelled_append (left right : List Token) :
    Spelled (left ++ right) ↔ Spelled left ∧ Spelled right := by
  simp only [Spelled, List.mem_append, or_imp, forall_and]

@[simp]
theorem spelled_cons (token : Token) (tokens : List Token) :
    Spelled (token :: tokens) ↔
      (∀ numeral, token = .number numeral → numeral.WellFormed) ∧ Spelled tokens := by
  simp only [Spelled, List.mem_cons, or_imp, forall_and, eq_comm]

private theorem spelled_itemTokens (items : List Value) :
    Spelled (itemTokens items) ↔ ∀ item ∈ items, item.WellFormed := by
  induction items with
  | nil => simp [itemTokens]
  | cons item items ih =>
      cases items with
      | nil => simp [itemTokens, Value.WellFormed]
      | cons next items => simp_all [itemTokens, Value.WellFormed]

private theorem spelled_fieldTokens (fields : List (Option String × Value)) :
    Spelled (fieldTokens fields) ↔ ∀ field ∈ fields, field.2.WellFormed := by
  induction fields with
  | nil => simp [fieldTokens]
  | cons field fields ih =>
      cases fields with
      | nil => simp [fieldTokens, Value.WellFormed]
      | cons next fields => simp_all [fieldTokens, Value.WellFormed]

theorem wellFormed_number (numeral : Numeral) :
    (Value.number numeral).WellFormed ↔ numeral.WellFormed := by
  simp [Value.WellFormed, Value.tokens]

theorem wellFormed_array (items : List Value) :
    (Value.array items).WellFormed ↔ ∀ item ∈ items, item.WellFormed := by
  simp [Value.WellFormed, Value.tokens, spelled_itemTokens]

theorem wellFormed_object (fields : List (Option String × Value)) :
    (Value.object fields).WellFormed ↔ ∀ field ∈ fields, field.2.WellFormed := by
  simp [Value.WellFormed, Value.tokens, spelled_fieldTokens]

theorem endsNumeral_nil : EndsNumeral [] := by simp [EndsNumeral]

private theorem endsNumeral_comma (rest : List Char) : EndsNumeral (',' :: rest) := by
  simp [EndsNumeral, Decimal.isDigit]

private theorem endsNumeral_lineBreak (depth : Nat) (rest : List Char) :
    EndsNumeral (lineBreak depth ++ rest) := by
  simp [EndsNumeral, lineBreak, Decimal.isDigit]

mutual

theorem scanFrom_pretty (depth : Nat) (seen : List Token) {rest : List Char}
    (hrest : EndsNumeral rest) : (value : Value) → value.WellFormed →
    scanFrom seen (prettyChars depth value ++ rest) = scanFrom (value.tokens.reverse ++ seen) rest
  | .null, _ => scanFrom_null seen rest
  | .bool value, _ => scanFrom_bool seen value rest
  | .string text, _ => scanFrom_quoted seen text rest
  | .number numeral, hvalue => scanFrom_numeral ((wellFormed_number numeral).mp hvalue) hrest
  | .array [], _ => by
      simp only [prettyChars, List.cons_append, List.nil_append]
      rw [scanFrom_mark rfl, scanFrom_mark rfl]
      rfl
  | .array (item :: items), hvalue => by
      have hitems := (wellFormed_array _).mp hvalue
      simp only [prettyChars, List.cons_append, List.append_assoc, List.nil_append]
      rw [scanFrom_mark rfl, scanFrom_lineBreak,
        scanFrom_prettyItems (depth + 1) _ (endsNumeral_lineBreak depth _) _ hitems,
        scanFrom_lineBreak, scanFrom_mark rfl]
      simp [Value.tokens]
  | .object [], _ => by
      simp only [prettyChars, List.cons_append, List.nil_append]
      rw [scanFrom_mark rfl, scanFrom_mark rfl]
      rfl
  | .object (field :: fields), hvalue => by
      have hfields := (wellFormed_object _).mp hvalue
      simp only [prettyChars, List.cons_append, List.append_assoc, List.nil_append]
      rw [scanFrom_mark rfl, scanFrom_lineBreak,
        scanFrom_prettyFields (depth + 1) _ (endsNumeral_lineBreak depth _) _ hfields,
        scanFrom_lineBreak, scanFrom_mark rfl]
      simp [Value.tokens]

private theorem scanFrom_prettyItems (depth : Nat) (seen : List Token) {rest : List Char}
    (hrest : EndsNumeral rest) : (items : List Value) → (∀ item ∈ items, item.WellFormed) →
    scanFrom seen (prettyItems depth items ++ rest) =
      scanFrom ((itemTokens items).reverse ++ seen) rest
  | [], _ => rfl
  | [item], hitems => scanFrom_pretty depth seen hrest item (List.forall_mem_singleton.mp hitems)
  | item :: next :: items, hitems => by
      rw [List.forall_mem_cons] at hitems
      simp only [prettyItems, List.cons_append, List.append_assoc]
      rw [scanFrom_pretty depth seen (endsNumeral_comma _) item hitems.1, scanFrom_mark rfl,
        scanFrom_lineBreak, scanFrom_prettyItems depth _ hrest _ hitems.2]
      simp [itemTokens]

private theorem scanFrom_prettyFields (depth : Nat) (seen : List Token) {rest : List Char}
    (hrest : EndsNumeral rest) : (fields : List (Option String × Value)) →
    (∀ field ∈ fields, field.2.WellFormed) →
    scanFrom seen (prettyFields depth fields ++ rest) =
      scanFrom ((fieldTokens fields).reverse ++ seen) rest
  | [], _ => rfl
  | [(name, value)], hfields => by
      rw [List.forall_mem_singleton] at hfields
      simp only [prettyFields, List.cons_append, List.append_assoc]
      rw [scanFrom_quoted, scanFrom_mark rfl, scanFrom_blank rfl,
        scanFrom_pretty depth _ hrest value hfields]
      simp [fieldTokens]
  | (name, value) :: next :: fields, hfields => by
      rw [List.forall_mem_cons] at hfields
      simp only [prettyFields, List.cons_append, List.append_assoc]
      rw [scanFrom_quoted, scanFrom_mark rfl, scanFrom_blank rfl,
        scanFrom_pretty depth _ (endsNumeral_comma _) value hfields.1, scanFrom_mark rfl,
        scanFrom_lineBreak, scanFrom_prettyFields depth _ hrest _ hfields.2]
      simp [fieldTokens]

end

theorem scan_pretty {value : Value} (hvalue : value.WellFormed) :
    scan value.pretty = some value.tokens := by
  have hscan := scanFrom_pretty 0 [] endsNumeral_nil value hvalue
  rw [List.append_nil, List.append_nil] at hscan
  rw [scan, Value.pretty, String.toList_ofList, hscan, scanFrom, List.reverse_reverse]

/-! ## Putting tokens together -/

private theorem foldlM_arrayBegun (around : List Unclosed) (item : Value) (items : List Value)
    (rest : List Token) :
    (itemTokens (item :: items) ++ rest).foldlM State.step (.arrayBegun around) =
      (itemTokens (item :: items) ++ rest).foldlM State.step (.valueDue (.array [] :: around)) := by
  cases items <;> cases item <;> rfl

private theorem foldlM_objectBegun (around : List Unclosed) (field : Option String × Value)
    (fields : List (Option String × Value)) (rest : List Token) :
    (fieldTokens (field :: fields) ++ rest).foldlM State.step (.objectBegun around) =
      (fieldTokens (field :: fields) ++ rest).foldlM State.step (.nameDue [] around) := by
  cases fields <;> rfl

mutual

theorem foldlM_tokens (around : List Unclosed) : (value : Value) → (rest : List Token) →
    (value.tokens ++ rest).foldlM State.step (.valueDue around) =
      rest.foldlM State.step (.valueRead value around)
  | .null, _ | .bool _, _ | .number _, _ | .string _, _ => rfl
  | .array [], _ | .object [], _ => rfl
  | .array (item :: items), rest => by
      simp only [Value.tokens, List.cons_append, List.append_assoc, List.nil_append]
      rw [← List.nil_append (item :: items), ← List.reverse_nil,
        ← foldlM_itemTokens around [] (item :: items) (List.cons_ne_nil _ _) rest,
        ← foldlM_arrayBegun]
      rfl
  | .object (field :: fields), rest => by
      simp only [Value.tokens, List.cons_append, List.append_assoc, List.nil_append]
      rw [← List.nil_append (field :: fields), ← List.reverse_nil,
        ← foldlM_fieldTokens around [] (field :: fields) (List.cons_ne_nil _ _) rest,
        ← foldlM_objectBegun]
      rfl

private theorem foldlM_itemTokens (around : List Unclosed) (before : List Value) :
    (items : List Value) → items ≠ [] → (rest : List Token) →
    (itemTokens items ++ .endArray :: rest).foldlM State.step
        (.valueDue (.array before :: around)) =
      rest.foldlM State.step (.valueRead (.array (before.reverse ++ items)) around)
  | [], hitems, _ => absurd rfl hitems
  | [item], _, rest => by
      rw [itemTokens, foldlM_tokens, ← List.reverse_cons]
      rfl
  | item :: next :: items, _, rest => by
      simp only [itemTokens, List.append_assoc, List.cons_append]
      rw [foldlM_tokens, List.append_cons before.reverse, ← List.reverse_cons,
        ← foldlM_itemTokens around (item :: before) (next :: items) (List.cons_ne_nil _ _) rest]
      rfl

private theorem foldlM_fieldTokens (around : List Unclosed)
    (before : List (Option String × Value)) :
    (fields : List (Option String × Value)) → fields ≠ [] → (rest : List Token) →
    (fieldTokens fields ++ .endObject :: rest).foldlM State.step (.nameDue before around) =
      rest.foldlM State.step (.valueRead (.object (before.reverse ++ fields)) around)
  | [], hfields, _ => absurd rfl hfields
  | [(name, value)], _, rest => by
      have hvalue := foldlM_tokens (.object before name :: around) value (.endObject :: rest)
      rw [← List.reverse_cons]
      exact hvalue
  | (name, value) :: next :: fields, _, rest => by
      have hvalue := foldlM_tokens (.object before name :: around) value
        (.comma :: fieldTokens (next :: fields) ++ .endObject :: rest)
      simp only [fieldTokens, List.append_assoc, List.cons_append]
      rw [List.append_cons before.reverse, ← List.reverse_cons,
        ← foldlM_fieldTokens around ((name, value) :: before) (next :: fields)
          (List.cons_ne_nil _ _) rest]
      exact hvalue

end

theorem parse?_of_scan {text : String} {value : Value} (hscan : scan text = some value.tokens) :
    Value.parse? text = some value := by
  have hread := foldlM_tokens [] value []
  rw [List.append_nil] at hread
  simp only [Value.parse?, hscan, Value.ofTokens?, Option.bind_eq_bind, Option.bind_some, hread]
  rfl

theorem parse?_pretty {value : Value} (hvalue : value.WellFormed) :
    Value.parse? value.pretty = some value := parse?_of_scan (scan_pretty hvalue)

/-! ## Parts of a value -/

namespace Value

theorem wellFormed_ofText (text : String) : (ofText text).WellFormed := by
  simp [WellFormed, ofText, tokens]

theorem wellFormed_ofUInt64 (number : UInt64) : (ofUInt64 number).WellFormed :=
  (wellFormed_number _).mpr (wellFormed_ofNat _)

theorem wellFormed_ofFloat (value : Float) : (ofFloat value).WellFormed := by
  unfold ofFloat
  split
  · next hnumeral => exact (wellFormed_number _).mpr (wellFormed_of_ofFloat? hnumeral)
  · simp [WellFormed, tokens]

theorem wellFormed_ofList {α : Type} {ofItem : α → Value} (hitem : ∀ item, (ofItem item).WellFormed)
    (items : List α) : (ofList ofItem items).WellFormed := by
  rw [ofList, wellFormed_array, List.forall_mem_map]
  exact fun item _ => hitem item

theorem wellFormed_ofOption {α : Type} {ofItem : α → Value}
    (hitem : ∀ item, (ofItem item).WellFormed) (item : Option α) :
    (ofOption ofItem item).WellFormed := by
  cases item with
  | none => simp [WellFormed, ofOption, tokens]
  | some item => exact hitem item

theorem wellFormed_record {fields : List (String × Value)}
    (hfields : ∀ field ∈ fields, field.2.WellFormed) : (record fields).WellFormed := by
  rw [record, wellFormed_object, List.forall_mem_map]
  exact hfields

theorem text?_ofText (text : String) : (ofText text).text? = some text := rfl

theorem uint64?_ofUInt64 (number : UInt64) : (ofUInt64 number).uint64? = some number := by
  simp [ofUInt64, ofNat, uint64?, nat?, toNat?_ofNat number.toNat_lt]

theorem float?_ofFloat (value : Float) :
    (ofFloat value).float? = (Numeral.ofFloat? value).bind Numeral.toFloat? := by
  unfold ofFloat
  cases Numeral.ofFloat? value <;> rfl

theorem list?_ofList_of_mem {α : Type} {item? : Value → Option α} {ofItem : α → Value}
    {items : List α} (hitems : ∀ item ∈ items, item? (ofItem item) = some item) :
    list? item? (ofList ofItem items) = some items := by
  simp only [ofList, list?]
  induction items with
  | nil => rfl
  | cons item items ih =>
      rw [List.forall_mem_cons] at hitems
      simp [hitems.1, ih hitems.2]

theorem list?_ofList {α : Type} {item? : Value → Option α} {ofItem : α → Value}
    (hitem : ∀ item, item? (ofItem item) = some item) (items : List α) :
    list? item? (ofList ofItem items) = some items :=
  list?_ofList_of_mem fun item _ => hitem item

theorem option?_ofOption {α : Type} {item? : Value → Option α} {ofItem : α → Value}
    (hitem : ∀ item, item? (ofItem item) = some item) (hnull : ∀ item, ofItem item ≠ .null)
    (item : Option α) : option? item? (ofOption ofItem item) = some item := by
  cases item with
  | none => rfl
  | some item => simp [ofOption, option?, hnull, hitem]

theorem fields?_record {fields : List (String × Value)} (hnames : (fields.map Prod.fst).Nodup)
    (names : List String) :
    (record fields).fields? names = some (names.map fun name => fields.lookup name) := by
  have hgiven : (fields.map fun field => (some field.1, field.2)).mapM
      (fun field : Option String × Value => field.1.map fun name => (name, field.2)) =
        some fields := by
    clear hnames
    induction fields with
    | nil => rfl
    | cons field fields ih => simp [ih]
  have honce : ∀ name, fields.countP (·.1 == name) ≤ 1 := by
    intro name
    have hcount := List.nodup_iff_count.mp hnames name
    rwa [List.count, List.countP_map] at hcount
  simp only [record, fields?]
  rw [hgiven]
  simp [honce]

end Value

end Polarity.Json
