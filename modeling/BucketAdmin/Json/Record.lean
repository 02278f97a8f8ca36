import BucketAdmin.Json.Reader

/-!
# Records

A record has named fields in a fixed order. It is written as a map, in any order and with members of
other names between, or as a list of its fields in order. `Record.read` checks each field's value
where it stands, so that the first fault in document order is the one reported, and returns the
values by name.
-/

namespace BucketAdmin.Json

/-- A field of a record. -/
structure Field where
  key : String
  /-- A field that need not be present has a default. -/
  mandatory : Bool
  check : Reader Unit

/-- A named list of fields. -/
structure Record where
  name : String
  fields : List Field

namespace Record

/-- The values of some fields, by name. -/
abbrev Slots := List (String × Value)

/-- The field with the given name. -/
def field? (r : Record) (key : String) : Option Field := r.fields.find? (·.key == key)

/-- The first required field that has no value. -/
def missing? (r : Record) (seen : Slots) : Option Field :=
  r.fields.find? fun f => f.mandatory && (seen.lookup f.key).isNone

/-- The members of a map. A member of another name is passed over; a second member of one name is
refused when its name is read. -/
def readMembers (r : Record) (seen : Slots) (closed : Bool) :
    List (Bytes × Value) → Except Fault Slots
  | [] =>
    if ¬closed then .error .malformed
    else
      match r.missing? seen with
      | some f => .error (.missingField f.key)
      | none => .ok seen
  | (raw, v) :: rest =>
    match unquote? raw with
    | none => .error .malformed
    | some key =>
      match r.field? key with
      | none => readMembers r seen closed rest
      | some f =>
        if (seen.lookup key).isSome then .error (.duplicateField key)
        else
          match f.check v with
          | .error e => .error e
          | .ok () => readMembers r ((key, v) :: seen) closed rest

/-- The items of a list, the first of them at `position`. Fields past the end take their defaults;
items past the last field are refused. -/
def readItems (r : Record) (closed : Bool) :
    (position : Nat) → List Field → List Value → Except Fault Slots
  | _, [], items => if items.isEmpty ∧ closed then .ok [] else .error .malformed
  | position, f :: fields, [] =>
    if ¬closed then .error .malformed
    else if f.mandatory then .error (.tooShort position r.name r.fields.length)
    else readItems r closed (position + 1) fields []
  | position, f :: fields, v :: items => do
    f.check v
    let rest ← readItems r closed (position + 1) fields items
    .ok ((f.key, v) :: rest)

/-- The values of the fields that are present, each checked. -/
def read (r : Record) : Reader Slots
  | .object members closed => r.readMembers [] closed members
  | .array items closed => r.readItems closed 0 r.fields items
  | v => .error (v.mismatch (.record r.name))

namespace Slots

/-- The value of a required field. -/
def get {α : Type} (slots : Slots) (key : String) (reader : Reader α) : Except Fault α :=
  match slots.lookup key with
  | some v => reader v
  | none => .error (.missingField key)

/-- The value of a field, or its default. -/
def getD {α : Type} (slots : Slots) (key : String) (reader : Reader α) (default : α) :
    Except Fault α :=
  match slots.lookup key with
  | some v => reader v
  | none => .ok default

end Slots

end Record

namespace Field

/-- A field that must be present. -/
def required {α : Type} (key : String) (reader : Reader α) : Field :=
  ⟨key, true, fun v => (reader v).map fun _ => ()⟩

/-- A field with a default. -/
def optional {α : Type} (key : String) (reader : Reader α) : Field :=
  ⟨key, false, fun v => (reader v).map fun _ => ()⟩

end Field

end BucketAdmin.Json
