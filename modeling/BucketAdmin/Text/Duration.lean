import BucketAdmin.Decimal.Power

/-!
# Durations

A duration is a number of nanoseconds. Its text uses the largest unit with a whole part that is not
zero, and as many decimals as the value needs.
-/

namespace BucketAdmin

/-- A span of time, in nanoseconds. -/
structure Duration where
  nanos : Nat
  deriving DecidableEq, Repr

namespace Duration

open Decimal (tens)

/-- A number of milliseconds. -/
def ofMillis (n : Nat) : Duration := ⟨n * 1000000⟩

/-- A number of seconds. -/
def ofSeconds (n : Nat) : Duration := ⟨n * 1000000000⟩

/-- The first `places` decimals of `rest / tens places`, last zeros left out. -/
def decimals (places rest : Nat) : List Char :=
  let digits := Nat.toDigits 10 (tens places + rest)
  ((digits.drop 1).reverse.dropWhile (· == '0')).reverse

/-- `n / tens places` followed by a unit. -/
def inUnit (places n : Nat) (unit : String) : String :=
  let whole := toString (n / tens places)
  match decimals places (n % tens places) with
  | [] => whole ++ unit
  | ds => whole ++ "." ++ String.ofList ds ++ unit

/-- The text of a duration, such as `1.5ms`, `75s` or `0ns`. -/
def text (d : Duration) : String :=
  if tens 9 ≤ d.nanos then inUnit 9 d.nanos "s"
  else if tens 6 ≤ d.nanos then inUnit 6 d.nanos "ms"
  else if tens 3 ≤ d.nanos then inUnit 3 d.nanos "µs"
  else inUnit 0 d.nanos "ns"

end Duration

end BucketAdmin
