import Polarity.Json.Value

/-!
# Writing JSON

Two layouts: `compact` has no blanks at all, `pretty` has one item or field per
line, indented by two spaces, with empty containers kept on their line.
-/

namespace Polarity.Json

def hexChar (digit : Nat) : Char := Nat.digitChar digit

def escape (char : Char) : List Char :=
  if char = '"' then ['\\', '"']
  else if char = '\\' then ['\\', '\\']
  else if char = '\x08' then ['\\', 'b']
  else if char = '\x0c' then ['\\', 'f']
  else if char = '\n' then ['\\', 'n']
  else if char = '\r' then ['\\', 'r']
  else if char = '\t' then ['\\', 't']
  else if char.toNat < 0x20 then
    ['\\', 'u', '0', '0', hexChar (char.toNat / 16), hexChar (char.toNat % 16)]
  else [char]

/-- A string without a text is written as half of a surrogate pair. -/
def quoted : Option String → List Char
  | some text => '"' :: text.toList.flatMap escape ++ ['"']
  | none => ['"', '\\', 'u', 'd', '8', '0', '0', '"']

def boolText : Bool → List Char
  | true => ['t', 'r', 'u', 'e']
  | false => ['f', 'a', 'l', 's', 'e']

def nullText : List Char := ['n', 'u', 'l', 'l']

def lineBreak (depth : Nat) : List Char := '\n' :: List.replicate (2 * depth) ' '

mutual

def compactChars : Value → List Char
  | .null => nullText
  | .bool value => boolText value
  | .number value => value.text
  | .string text => quoted text
  | .array items => '[' :: compactItems items ++ [']']
  | .object fields => '\x7b' :: compactFields fields ++ ['\x7d']

def compactItems : List Value → List Char
  | [] => []
  | [item] => compactChars item
  | item :: rest => compactChars item ++ ',' :: compactItems rest

def compactFields : List (Option String × Value) → List Char
  | [] => []
  | [(name, value)] => quoted name ++ ':' :: compactChars value
  | (name, value) :: rest => quoted name ++ ':' :: compactChars value ++ ',' :: compactFields rest

end

mutual

/-- `depth` is the number of containers around the value. -/
def prettyChars (depth : Nat) : Value → List Char
  | .null => nullText
  | .bool value => boolText value
  | .number value => value.text
  | .string text => quoted text
  | .array [] => ['[', ']']
  | .array (item :: rest) =>
      '[' :: lineBreak (depth + 1) ++ prettyItems (depth + 1) (item :: rest) ++
        lineBreak depth ++ [']']
  | .object [] => ['\x7b', '\x7d']
  | .object (field :: rest) =>
      '\x7b' :: lineBreak (depth + 1) ++ prettyFields (depth + 1) (field :: rest) ++
        lineBreak depth ++ ['\x7d']

def prettyItems (depth : Nat) : List Value → List Char
  | [] => []
  | [item] => prettyChars depth item
  | item :: rest => prettyChars depth item ++ ',' :: lineBreak depth ++ prettyItems depth rest

def prettyFields (depth : Nat) : List (Option String × Value) → List Char
  | [] => []
  | [(name, value)] => quoted name ++ ':' :: ' ' :: prettyChars depth value
  | (name, value) :: rest =>
      quoted name ++ ':' :: ' ' :: prettyChars depth value ++ ',' :: lineBreak depth ++
        prettyFields depth rest

end

def Value.compact (value : Value) : String := String.ofList (compactChars value)

def Value.pretty (value : Value) : String := String.ofList (prettyChars 0 value)

end Polarity.Json
