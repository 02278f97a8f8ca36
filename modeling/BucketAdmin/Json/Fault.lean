import BucketAdmin.Decimal.Shortest
import BucketAdmin.Json.Value
import BucketAdmin.Text.Quoted

/-!
# Faults of a JSON document

Why a document is refused, and the words for it.
-/

namespace BucketAdmin.Json

/-- The width of an unsigned integer. -/
inductive Width where
  | w8
  | w16
  | w32
  | w64
  deriving DecidableEq, Repr

namespace Width

/-- The number of bits. -/
def bits : Width → Nat
  | .w8 => 8
  | .w16 => 16
  | .w32 => 32
  | .w64 => 64

/-- The number of values: an integer fits when it is below. -/
def bound : Width → Nat
  | .w8 => UInt8.size
  | .w16 => UInt16.size
  | .w32 => UInt32.size
  | .w64 => UInt64.size

end Width

/-- What a place in a document has to hold. -/
inductive Expected where
  /-- A natural number of the given width. -/
  | unsigned (width : Width)
  | boolean
  | string
  | sequence
  /-- The absence of content that follows a variant's name. -/
  | unit
  /-- A record, by its name. -/
  | record (name : String)
  deriving DecidableEq, Repr

/-- Why a document is refused. -/
inductive Fault where
  /-- The text is not JSON, or not Unicode where it is used. -/
  | malformed
  | wrongShape (found : Shape) (expected : Expected)
  /-- An integer that its place cannot hold. -/
  | misfit (n : Int) (expected : Expected)
  /-- A record written as a list that ends before a required field. -/
  | tooShort (length : Nat) (record : String) (fields : Nat)
  | missingField (key : String)
  | duplicateField (key : String)
  | unknownVariant (name : String) (known : List String)
  /-- A value refused by a rule of its own, in the words of that rule. -/
  | refused (reason : String)
  deriving DecidableEq, Repr

/-- The words for what was found. -/
def Shape.text : Shape → String
  | .null => "null"
  | .bool b => s!"boolean `{b}`"
  | .number (.integer n) => s!"integer `{n}`"
  | .number (.float negative x) => s!"floating point `{Decimal.text negative x}`"
  | .string s => s!"string {Text.quoted s}"
  | .sequence => "sequence"
  | .map => "map"

/-- The words for what was expected. -/
def Expected.text : Expected → String
  | .unsigned width => s!"u{width.bits}"
  | .boolean => "a boolean"
  | .string => "a string"
  | .sequence => "a sequence"
  | .unit => "unit"
  | .record name => s!"struct {name}"

/-- Alternatives in words: two are joined by "or", more are listed. -/
def alternatives : List String → String
  | [] => "there are no variants"
  | [a] => s!"expected `{a}`"
  | [a, b] => s!"expected `{a}` or `{b}`"
  | names => "expected one of " ++ ", ".intercalate (names.map fun a => s!"`{a}`")

/-- The words for a fault, without the line and the column where it was found. All faults of syntax
are told in the same words. -/
def Fault.message : Fault → String
  | .malformed => "invalid JSON"
  | .wrongShape found expected => s!"invalid type: {found.text}, expected {expected.text}"
  | .misfit n expected => s!"invalid value: integer `{n}`, expected {expected.text}"
  | .tooShort length record fields =>
    let noun := if fields = 1 then "element" else "elements"
    s!"invalid length {length}, expected struct {record} with {fields} {noun}"
  | .missingField key => s!"missing field `{key}`"
  | .duplicateField key => s!"duplicate field `{key}`"
  | .unknownVariant name known => s!"unknown variant `{name}`, {alternatives known}"
  | .refused reason => reason

end BucketAdmin.Json
