import Polarity.Json.Token

/-!
# JSON values

Tokens are put together by an automaton whose state holds the containers that
are still open.  Nesting therefore costs no stack, however deep it is.
-/

namespace Polarity.Json

/-- A string or a field name without a text holds half of a surrogate pair. -/
inductive Value where
  | null
  | bool (value : Bool)
  | number (value : Numeral)
  | string (text : Option String)
  | array (items : List Value)
  | object (fields : List (Option String × Value))
  deriving Inhabited, Repr

inductive Unclosed where
  | array (items : List Value)
  | object (fields : List (Option String × Value)) (name : Option String)

/-- What the automaton has read; `around` are the open containers, innermost first. -/
inductive State where
  | valueDue (around : List Unclosed)
  | arrayBegun (around : List Unclosed)
  | objectBegun (around : List Unclosed)
  | nameDue (fields : List (Option String × Value)) (around : List Unclosed)
  | colonDue (fields : List (Option String × Value)) (name : Option String)
      (around : List Unclosed)
  | valueRead (value : Value) (around : List Unclosed)

namespace State

def beginValue (around : List Unclosed) : Token → Option State
  | .null => some (.valueRead .null around)
  | .bool value => some (.valueRead (.bool value) around)
  | .number value => some (.valueRead (.number value) around)
  | .string text => some (.valueRead (.string text) around)
  | .beginArray => some (.arrayBegun around)
  | .beginObject => some (.objectBegun around)
  | _ => none

def step (state : State) (token : Token) : Option State :=
  match state, token with
  | .valueDue around, token => beginValue around token
  | .arrayBegun around, .endArray => some (.valueRead (.array []) around)
  | .arrayBegun around, token => beginValue (.array [] :: around) token
  | .objectBegun around, .endObject => some (.valueRead (.object []) around)
  | .objectBegun around, .string name => some (.colonDue [] name around)
  | .nameDue fields around, .string name => some (.colonDue fields name around)
  | .colonDue fields name around, .colon => some (.valueDue (.object fields name :: around))
  | .valueRead value (.array items :: around), .comma =>
      some (.valueDue (.array (value :: items) :: around))
  | .valueRead value (.array items :: around), .endArray =>
      some (.valueRead (.array (value :: items).reverse) around)
  | .valueRead value (.object fields name :: around), .comma =>
      some (.nameDue ((name, value) :: fields) around)
  | .valueRead value (.object fields name :: around), .endObject =>
      some (.valueRead (.object ((name, value) :: fields).reverse) around)
  | _, _ => none

def result? : State → Option Value
  | .valueRead value [] => some value
  | _ => none

end State

namespace Value

def ofTokens? (tokens : List Token) : Option Value := do
  let state ← tokens.foldlM State.step (.valueDue [])
  state.result?

def parse? (text : String) : Option Value := do
  let tokens ← scan text
  ofTokens? tokens

/-! ## Reading parts of a value -/

def text? : Value → Option String
  | .string text => text
  | _ => none

def nat? : Value → Option Nat
  | .number numeral => numeral.toNat?
  | _ => none

def uint64? (value : Value) : Option UInt64 := value.nat?.map UInt64.ofNat

def float? : Value → Option Float
  | .number numeral => numeral.toFloat?
  | _ => none

def list? {α : Type} (item? : Value → Option α) : Value → Option (List α)
  | .array items => items.mapM item?
  | _ => none

def option? {α : Type} (item? : Value → Option α) : Value → Option (Option α)
  | .null => some none
  | value => (item? value).map some

/--
The values of the named fields of a record, which is an object or the array of
its fields in order.  An object may have other fields, with any value, but must
give no named field twice.  An array may end early.
-/
def fields? (names : List String) : Value → Option (List (Option Value))
  | .object fields => do
      let given ← fields.mapM fun (name, value) => name.map fun name => (name, value)
      if names.all fun name => given.countP (·.1 == name) ≤ 1 then
        return names.map fun name => given.lookup name
      else
        none
  | .array items =>
      if items.length ≤ names.length then
        some ((List.range names.length).map fun place => items[place]?)
      else
        none
  | _ => none

/-! ## Building values -/

def ofText (text : String) : Value := .string (some text)

def ofNat (number : Nat) : Value := .number (.ofNat number)

def ofUInt64 (number : UInt64) : Value := .ofNat number.toNat

def ofFloat (value : Float) : Value :=
  match Numeral.ofFloat? value with
  | some numeral => .number numeral
  | none => .null

def ofOption {α : Type} (ofItem : α → Value) : Option α → Value
  | none => .null
  | some item => ofItem item

def ofList {α : Type} (ofItem : α → Value) (items : List α) : Value := .array (items.map ofItem)

def record (fields : List (String × Value)) : Value :=
  .object (fields.map fun (name, value) => (some name, value))

end Value

end Polarity.Json
