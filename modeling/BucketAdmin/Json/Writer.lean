import BucketAdmin.Json.Value

/-!
# Compact writing

`Value.render` writes a value with no space in it. The functions below build the values that are
written: whole numbers, texts, and maps with literal keys.
-/

namespace BucketAdmin.Json.Value

/-- The string value of a text. -/
def ofText (s : String) : Value := .string (quote s)

/-- The number value of a natural number. -/
def ofNat (n : Nat) : Value := .number (numeral n)

/-- A complete list. -/
def ofList (items : List Value) : Value := .array items true

/-- A complete map. -/
def ofMembers (members : List (String × Value)) : Value :=
  .object (members.map fun (key, v) => (quote key, v)) true

/-- Parts with a comma between any two. -/
def commaSeparated : List Bytes → Bytes
  | [] => []
  | [part] => part
  | part :: rest => part ++ 0x2C :: commaSeparated rest

mutual

/-- The text of a value. A part that could not be read has no text. -/
def render : Value → Bytes
  | .null => [0x6E, 0x75, 0x6C, 0x6C]
  | .bool true => [0x74, 0x72, 0x75, 0x65]
  | .bool false => [0x66, 0x61, 0x6C, 0x73, 0x65]
  | .number raw => raw
  | .string raw => 0x22 :: raw ++ [0x22]
  | .array items _ => 0x5B :: commaSeparated (renderItems items) ++ [0x5D]
  | .object members _ => 0x7B :: commaSeparated (renderMembers members) ++ [0x7D]
  | .broken => []

/-- The texts of the items of a list. -/
def renderItems : List Value → List Bytes
  | [] => []
  | v :: rest => render v :: renderItems rest

/-- The text of a member of a map. -/
def renderMember : Bytes × Value → Bytes
  | (key, v) => 0x22 :: key ++ 0x22 :: 0x3A :: render v

/-- The texts of the members of a map. -/
def renderMembers : List (Bytes × Value) → List Bytes
  | [] => []
  | m :: rest => renderMember m :: renderMembers rest

end

end BucketAdmin.Json.Value
