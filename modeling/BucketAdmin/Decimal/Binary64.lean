import BucketAdmin.Decimal.Power

/-!
# Binary floating point in exact arithmetic

A finite binary64 magnitude is a significand below `2 ^ 53` times a power of two. Every operation
computes the exact rational result and rounds it once, to nearest with ties to even. `none` stands
for a result past the largest finite value.
-/

namespace BucketAdmin

/-- The magnitude `significand * 2 ^ exponent`. -/
structure Binary64 where
  significand : Nat
  exponent : Int
  deriving DecidableEq, Repr

namespace Binary64

/-- Zero. -/
def zero : Binary64 := ⟨0, 0⟩

/-- The leading bit of a significand of full length. -/
def leadingBit : Nat := 1 <<< 52

/-- The quotient `n / d` rounded to nearest, ties to even. -/
def roundQuotient (n d : Nat) : Nat :=
  let q := n / d
  let r := n % d
  if 2 * r < d ∨ (2 * r = d ∧ q % 2 = 0) then q else q + 1

/-- The exponent that leaves 53 significant bits of `num / den`, no less than that of the least
subnormal. -/
def scaleOf (num den : Nat) : Int :=
  let e : Int := (num.log2 : Int) - (den.log2 : Int) - 52
  let short := num <<< (-e).toNat < (den <<< e.toNat) * leadingBit
  max (if short then e - 1 else e) (-1074)

/-- The magnitude nearest to `num / den`. -/
def ofRatio (num den : Nat) : Option Binary64 :=
  if num = 0 then some zero
  else
    let e := scaleOf num den
    let s := roundQuotient (num <<< (-e).toNat) (den <<< e.toNat)
    let x : Binary64 := if s = 2 * leadingBit then ⟨leadingBit, e + 1⟩ else ⟨s, e⟩
    if x.exponent ≤ 971 then some x else none

/-- The rounded product. -/
def mul (x y : Binary64) : Option Binary64 :=
  let e := x.exponent + y.exponent
  ofRatio ((x.significand * y.significand) <<< e.toNat) (1 <<< (-e).toNat)

/-- The rounded quotient by a magnitude other than zero. -/
def div (x y : Binary64) : Option Binary64 :=
  let e := x.exponent - y.exponent
  ofRatio (x.significand <<< e.toNat) (y.significand <<< (-e).toNat)

/-- The magnitude nearest to `10 ^ n`. -/
def tenTo (n : Nat) : Option Binary64 := ofRatio (Decimal.tens n) 1

/-- The exponent of the largest power of ten that is finite. -/
def maxTen : Nat := 308

/-- Divide `times` times by the largest finite power of ten and then by `10 ^ last`, rounding each
quotient. Zero stays zero. -/
def overTen (x : Binary64) (last : Nat) : (times : Nat) → Option Binary64
  | 0 => (tenTo last).bind x.div
  | times + 1 =>
    if x.significand = 0 then some x
    else ((tenTo maxTen).bind x.div).bind fun y => overTen y last times

/-- The reading of `significand * 10 ^ exponent`: the significand, rounded, times or over the power
of ten, rounded. -/
def ofDecimal (significand : Nat) (exponent : Int) : Option Binary64 :=
  match ofRatio significand 1 with
  | none => none
  | some x =>
    if exponent < 0 then
      let times := (exponent.natAbs - 1) / maxTen
      x.overTen (exponent.natAbs - maxTen * times) times
    else if exponent.natAbs ≤ maxTen then (tenTo exponent.natAbs).bind x.mul
    else if x.significand = 0 then some x
    else none

end Binary64

end BucketAdmin
