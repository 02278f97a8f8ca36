/-!
# Decimal numerals

Unsigned numerals as people write them: one optional plus sign, then one or more ASCII digits,
leading zeros allowed.
-/

namespace BucketAdmin.Numeral

/-- The value of a run of ASCII digits. -/
def value (digits : List Char) : Nat :=
  digits.foldl (fun n c => 10 * n + (c.toNat - '0'.toNat)) 0

/-- A numeral without its optional plus sign. -/
def unsigned (cs : List Char) : List Char :=
  match cs with
  | '+' :: rest => rest
  | _ => cs

/-- Read a numeral below `bound`. -/
def read? (bound : Nat) (cs : List Char) : Option Nat :=
  let digits := unsigned cs
  if digits ≠ [] ∧ digits.all Char.isDigit ∧ value digits < bound then
    some (value digits)
  else none

end BucketAdmin.Numeral
