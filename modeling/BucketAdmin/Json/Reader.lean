import BucketAdmin.Json.Fault

/-!
# Typed reading

A reader takes a value to what it means or to the first fault it meets in document order.
-/

namespace BucketAdmin.Json

/-- A meaning for values. -/
abbrev Reader (α : Type) := Value → Except Fault α

namespace Value

/-- The fault of a value that is not of the expected shape. -/
def mismatch (v : Value) (expected : Expected) : Fault :=
  v.shape?.elim .malformed (.wrongShape · expected)

/-- A text. -/
def text : Reader String
  | .string raw => (unquote? raw).elim (.error .malformed) .ok
  | v => .error (v.mismatch .string)

/-- A truth value. -/
def flag : Reader Bool
  | .bool b => .ok b
  | v => .error (v.mismatch .boolean)

/-- A natural number of the given width, written as an integer. -/
def unsigned (width : Width) : Reader Nat
  | .number raw =>
    match Number.read? raw with
    | none => .error .malformed
    | some (.integer n) =>
      if 0 ≤ n ∧ n.toNat < width.bound then .ok n.toNat
      else .error (.misfit n (.unsigned width))
    | some x => .error (.wrongShape (.number x) (.unsigned width))
  | v => .error (v.mismatch (.unsigned width))

/-- A number of 8 bits. -/
def uint8 : Reader UInt8 := fun v => (v.unsigned .w8).map UInt8.ofNat

/-- A number of 16 bits. -/
def uint16 : Reader UInt16 := fun v => (v.unsigned .w16).map UInt16.ofNat

/-- A number of 32 bits. -/
def uint32 : Reader UInt32 := fun v => (v.unsigned .w32).map UInt32.ofNat

/-- A number of 64 bits. -/
def uint64 : Reader UInt64 := fun v => (v.unsigned .w64).map UInt64.ofNat

/-- The absence of content. -/
def unit : Reader Unit
  | .null => .ok ()
  | v => .error (v.mismatch .unit)

/-- A list, read item by item. -/
def list {α : Type} (item : Reader α) : Reader (List α)
  | .array items closed => do
    let xs ← items.mapM item
    if closed then .ok xs else .error .malformed
  | v => .error (v.mismatch .sequence)

/-- The variant with the given name. -/
def variantNamed {α : Type} (known : List (String × α)) (raw : Bytes) : Except Fault α :=
  match unquote? raw with
  | none => .error .malformed
  | some name =>
    (known.lookup name).elim (.error (.unknownVariant name (known.map (·.1)))) .ok

/-- One of several named variants: its name, or a map from its name to nothing. -/
def variant {α : Type} (known : List (String × α)) : Reader α
  | .string raw => variantNamed known raw
  | .object ((raw, content) :: rest) closed => do
    let a ← variantNamed known raw
    content.unit
    if rest.isEmpty ∧ closed then .ok a else .error .malformed
  | _ => .error .malformed

end Value

/-- Read a text that is one value and nothing else. -/
def read {α : Type} (reader : Reader α) (bs : Bytes) : Except Fault α := do
  let (v, clean) := parse bs
  let a ← reader v
  if clean then .ok a else .error .malformed

end BucketAdmin.Json
