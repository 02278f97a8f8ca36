/-!
# Powers of ten
-/

namespace BucketAdmin.Decimal

/-- The power of ten with `n` zeros. -/
def tens (n : Nat) : Nat := Nat.pow 10 n

@[simp] theorem tens_zero : tens 0 = 1 := rfl

theorem tens_succ (n : Nat) : tens (n + 1) = tens n * 10 := rfl

theorem tens_pos (n : Nat) : 0 < tens n := Nat.pow_pos (by decide)

end BucketAdmin.Decimal
