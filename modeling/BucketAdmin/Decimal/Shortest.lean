import BucketAdmin.Decimal.Binary64

/-!
# Shortest decimal text

The text of a binary64 value is the one with the fewest digits among the decimals that round back to
it, and among those the nearest. It is found on the coarsest grid of multiples of a power of ten
that has a point in the interval of numbers that round to the value.
-/

namespace BucketAdmin.Decimal

/-- The multiple `digits * 10 ^ exponent`. -/
structure Point where
  digits : Nat
  exponent : Int
  deriving DecidableEq, Repr

/-- Sign of `c * 10 ^ k - n * 2 ^ e`. -/
def compareScaled (c : Nat) (k : Int) (n : Nat) (e : Int) : Ordering :=
  compare ((c * tens k.toNat) <<< (-e).toNat) ((n * tens (-k).toNat) <<< e.toNat)

/-- The lower end of the interval that rounds to `x`, in quarters of its last place. Below a power
of two the spacing is half as wide. -/
def lowerQuarters (x : Binary64) : Nat :=
  if x.significand = Binary64.leadingBit ∧ -1074 < x.exponent then 4 * x.significand - 1
  else 4 * x.significand - 2

/-- Does `p` round to `x`? The ends belong to the interval when the significand is even. -/
def roundsTo (p : Point) (x : Binary64) : Bool :=
  let low := compareScaled p.digits p.exponent (lowerQuarters x) (x.exponent - 2)
  let high := compareScaled p.digits p.exponent (4 * x.significand + 2) (x.exponent - 2)
  let ends := x.significand % 2 == 0
  (low == .gt || (ends && low == .eq)) && (high == .lt || (ends && high == .eq))

/-- The multiple of `10 ^ k` at or below `x`. -/
def pointBelow (x : Binary64) (k : Int) : Nat :=
  ((x.significand * tens (-k).toNat) <<< x.exponent.toNat) /
    (tens k.toNat <<< (-x.exponent).toNat)

/-- Is the upper neighbour `(c + 1) * 10 ^ k` the nearer one to `x`? A tie goes to the even
digit. -/
def upperNearer (x : Binary64) (c : Nat) (k : Int) : Bool :=
  match compareScaled (2 * c + 1) k (2 * x.significand) x.exponent with
  | .lt => true
  | .eq => c % 2 == 1
  | .gt => false

/-- The point of the grid `10 ^ k` that stands for `x`, if one rounds to it. -/
def onGrid (x : Binary64) (k : Int) : Option Point :=
  let c := pointBelow x k
  let low : Point := ⟨c, k⟩
  let high : Point := ⟨c + 1, k⟩
  match roundsTo low x, roundsTo high x with
  | true, true => some (if upperNearer x c k then high else low)
  | true, false => some low
  | false, true => some high
  | false, false => none

/-- The first grid with a point for `x` among `10 ^ k`, `10 ^ (k - 1)`, and so on for `steps`
grids. -/
def search (x : Binary64) : Nat → Int → Point
  | 0, k => ⟨pointBelow x k, k⟩
  | steps + 1, k => (onGrid x k).getD (search x steps (k - 1))

/-- The shortest decimal that rounds to `x`, which is not zero. -/
def shortest (x : Binary64) : Point := search x 640 309

/-- Exponents of the first digit that are written without an exponent. -/
def positional (e : Int) : Bool := -5 ≤ e && e ≤ 15

/-- The text of a decimal: positional, with at least one decimal place, from `1e-5` up to `1e16`,
and elsewhere one leading digit and a signed exponent. -/
def Point.text (p : Point) : String :=
  let ds := Nat.toDigits 10 p.digits
  let lead : Int := ds.length + p.exponent - 1
  let zeros (n : Int) : List Char := List.replicate n.toNat '0'
  if positional lead then
    if 0 ≤ p.exponent then String.ofList (ds ++ zeros p.exponent) ++ ".0"
    else if 0 ≤ lead then
      String.ofList (ds.take (lead + 1).toNat) ++ "." ++ String.ofList (ds.drop (lead + 1).toNat)
    else "0." ++ String.ofList (zeros (-lead - 1) ++ ds)
  else
    let mantissa := match ds with
      | d :: rest@(_ :: _) => String.ofList [d] ++ "." ++ String.ofList rest
      | ds => String.ofList ds
    mantissa ++ (if lead < 0 then "e-" else "e+") ++ toString lead.natAbs

/-- The text of a signed value. -/
def text (negative : Bool) (x : Binary64) : String :=
  (if negative then "-" else "") ++
    if x.significand = 0 then "0.0" else (shortest x).text

end BucketAdmin.Decimal
