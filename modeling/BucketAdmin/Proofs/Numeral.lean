import Mathlib.Data.List.Induction
import BucketAdmin.Text.Numeral

/-!
# Numerals and what they denote

`Denotes cs n`: the characters `cs` are a numeral, and it denotes `n`. One more digit makes ten
times as much and the digit. `read?` accepts the numerals of numbers below its bound, and nothing
else (`read?_eq_some_iff`). The digits that a number is printed with denote it (`decimal_toDigits`).
-/

namespace BucketAdmin.Numeral

/-- One or more decimal digits, and the number they denote. -/
inductive Decimal : List Char → Nat → Prop
  | digit {d : Nat} (hd : d < 10) : Decimal [Nat.digitChar d] d
  | append {cs : List Char} {n d : Nat} (h : Decimal cs n) (hd : d < 10) :
      Decimal (cs ++ [Nat.digitChar d]) (10 * n + d)

/-- A numeral, and the number it denotes. One plus sign may stand before the digits. -/
inductive Denotes : List Char → Nat → Prop
  | unsigned {cs : List Char} {n : Nat} (h : Decimal cs n) : Denotes cs n
  | signed {cs : List Char} {n : Nat} (h : Decimal cs n) : Denotes ('+' :: cs) n

variable {cs : List Char} {n bound : Nat}

theorem isDigit_digitChar : ∀ d < 10, (Nat.digitChar d).isDigit = true := by
  decide

theorem digitChar_sub : ∀ d < 10, (Nat.digitChar d).toNat - '0'.toNat = d := by
  decide

theorem digitChar_of_isDigit {c : Char} (h : c.isDigit = true) :
    ∃ d < 10, Nat.digitChar d = c := by
  have hrange : 48 ≤ c.toNat ∧ c.toNat ≤ 57 := by
    simpa [Char.isDigit, UInt32.le_iff_toNat_le] using h
  refine ⟨c.toNat - 48, by omega, Char.toNat_inj.mp ?_⟩
  rw [Nat.toNat_digitChar_of_lt_ten (by omega)]
  omega

theorem value_append (cs : List Char) (c : Char) :
    value (cs ++ [c]) = 10 * value cs + (c.toNat - '0'.toNat) := by
  simp [value]

namespace Decimal

theorem ne_nil (h : Decimal cs n) : cs ≠ [] := by
  cases h <;> simp

theorem isDigit (h : Decimal cs n) : ∀ c ∈ cs, c.isDigit = true := by
  induction h with
  | digit hd =>
    intro c hc
    rw [List.mem_singleton.mp hc]
    exact isDigit_digitChar _ hd
  | append _ hd ih =>
    intro c hc
    rcases List.mem_append.mp hc with hc | hc
    · exact ih c hc
    · rw [List.mem_singleton.mp hc]
      exact isDigit_digitChar _ hd

theorem value_eq (h : Decimal cs n) : value cs = n := by
  induction h with
  | digit hd => exact (value_append [] _).trans (by rw [digitChar_sub _ hd]; simp [value])
  | append _ hd ih => rw [value_append, ih, digitChar_sub _ hd]

end Decimal

/-- Any digits denote their value. -/
theorem decimal_value (hne : cs ≠ []) (h : ∀ c ∈ cs, c.isDigit = true) :
    Decimal cs (value cs) := by
  induction cs using List.reverseRecOn with
  | nil => exact absurd rfl hne
  | append_singleton cs c ih =>
    obtain ⟨d, hd, rfl⟩ := digitChar_of_isDigit (h c (by simp))
    rw [value_append, digitChar_sub d hd]
    by_cases hnil : cs = []
    · subst hnil
      simpa [value] using Decimal.digit hd
    · exact (ih hnil fun c hc => h c (by simp [hc])).append hd

/-- The digits that a number is printed with denote it. -/
theorem decimal_toDigits (n : Nat) : Decimal (Nat.toDigits 10 n) n := by
  induction n using Nat.strongRecOn with
  | _ n ih =>
    by_cases hn : n < 10
    · rw [Nat.toDigits_of_lt_base hn]
      exact .digit hn
    · rw [Nat.toDigits_of_base_le (by decide) (by omega)]
      have hlast := (ih (n / 10) (by omega)).append (Nat.mod_lt n (by decide : 0 < 10))
      rwa [Nat.div_add_mod] at hlast

theorem unsigned_of_decimal (h : Decimal cs n) : Numeral.unsigned cs = cs := by
  cases cs with
  | nil => rfl
  | cons c rest =>
    have hc := h.isDigit c List.mem_cons_self
    unfold Numeral.unsigned
    split
    · next heq =>
      obtain ⟨rfl, -⟩ := List.cons.inj heq
      cases hc
    · rfl

theorem read?_of_decimal (h : Decimal cs n) (hn : n < bound) {text : List Char}
    (htext : Numeral.unsigned text = cs) : read? bound text = some n := by
  have hall : cs.all Char.isDigit = true := List.all_eq_true.mpr h.isDigit
  simp [read?, htext, h.ne_nil, hall, h.value_eq, hn]

/-- **What is read is what is denoted,** below the bound. -/
theorem read?_eq_some_iff : read? bound cs = some n ↔ Denotes cs n ∧ n < bound := by
  constructor
  · intro h
    simp only [read?, Option.ite_none_right_eq_some, Option.some.injEq] at h
    obtain ⟨⟨hne, hall, hlt⟩, rfl⟩ := h
    have hdecimal := decimal_value hne (List.all_eq_true.mp hall)
    refine ⟨?_, hlt⟩
    unfold Numeral.unsigned at hdecimal ⊢
    split at hdecimal
    · exact .signed hdecimal
    · exact .unsigned hdecimal
  · rintro ⟨h, hlt⟩
    cases h with
    | unsigned h => exact read?_of_decimal h hlt (unsigned_of_decimal h)
    | signed h => exact read?_of_decimal h hlt rfl

end BucketAdmin.Numeral
