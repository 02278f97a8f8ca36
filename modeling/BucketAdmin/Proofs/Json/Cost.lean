import Mathlib.Algebra.GroupWithZero.Nat
import BucketAdmin.Proofs.Json.Literal

/-!
# What a text costs to write

Every byte of a text takes one byte to write inside a string, or more where it has to be escaped
(`cost`). The scanner lets no byte pass inside a string that would have to be escaped but is not
(`Legal`), and each escape is at least as long as what its character costs. So a text that was read
takes no more bytes to write than its literal had (`length_quote_le`), however it was spelled.
-/

namespace BucketAdmin.Json

/-- The bytes it takes to write a byte of a text inside a string. -/
def cost (b : UInt8) : Nat := if b < 0x80 then (quoteChar (Char.ofNat b.toNat)).length else 1

/-- The bytes it takes to write some bytes of a text. -/
def weight (bs : Bytes) : Nat := (bs.map cost).sum

theorem weight_cons (b : UInt8) (bs : Bytes) : weight (b :: bs) = cost b + weight bs := by
  rw [weight, List.map_cons, List.sum_cons]
  rfl

theorem weight_append (as bs : Bytes) : weight (as ++ bs) = weight as + weight bs := by
  rw [weight, List.map_append, List.sum_append]
  rfl

theorem weight_reverse (bs : Bytes) : weight bs.reverse = weight bs := by
  rw [weight, List.map_reverse, List.sum_reverse]
  rfl

theorem weight_of_high {bs : Bytes} (h : ∀ b ∈ bs, 0x80 ≤ b.toNat) : weight bs = bs.length := by
  induction bs with
  | nil => rfl
  | cons b bs ih =>
    have hb : ¬b < 0x80 := by
      rw [UInt8.lt_iff_toNat_lt]
      exact Nat.not_lt.mpr (h b List.mem_cons_self)
    rw [weight_cons, cost, if_neg hb, ih fun x hx => h x (List.mem_cons_of_mem _ hx),
      List.length_cons, Nat.add_comm]

/-- What is written for a character is what its bytes cost. -/
theorem length_quoteChar (c : Char) : (quoteChar c).length = weight (String.utf8EncodeChar c) := by
  by_cases hascii : c.toNat ≤ 0x7F
  · have hencode : String.utf8EncodeChar c = [UInt8.ofNat c.toNat] := by
      unfold String.utf8EncodeChar
      exact if_pos hascii
    have hn : (UInt8.ofNat c.toNat).toNat = c.toNat := UInt8.toNat_ofNat_of_lt' (by
      simp only [UInt8.size]
      omega)
    have hlow : UInt8.ofNat c.toNat < 0x80 := by
      rw [UInt8.lt_iff_toNat_lt, hn]
      exact Nat.lt_succ_of_le hascii
    rw [hencode, weight_cons, cost, if_pos hlow, hn, Char.ofNat_toNat]
    rfl
  · have hhigh : ∀ b ∈ String.utf8EncodeChar c, 0x80 ≤ b.toNat := by
      intro b hb
      rcases mem_utf8EncodeChar hb with hb | hb <;> omega
    have hne : ∀ {d : Char}, d.toNat ≤ 0x7F → c ≠ d := by
      rintro d hd rfl
      exact hascii hd
    rw [quoteChar_of_plain (hne (by decide)) (hne (by decide)) (by omega), weight_of_high hhigh]

theorem length_quote (s : String) : (quote s).length = weight (Utf8.encode s) := by
  unfold quote Utf8.encode
  induction s.toList with
  | nil => rfl
  | cons c cs ih =>
    rw [List.flatMap_cons, List.flatMap_cons, List.length_append, weight_append, ih,
      length_quoteChar]

theorem length_quoteChar_le (c : Char) : (quoteChar c).length ≤ 6 := by
  have hwritten := written_quoteChar c
  generalize quoteChar c = bs at hwritten
  cases hwritten with
  | short => exact Nat.le_add_left 2 4
  | control => exact Nat.le_refl 6
  | plain =>
    have hsize := Char.utf8Size_le_four c
    rw [String.length_utf8EncodeChar]
    omega

/-- No character costs more than an escape of six bytes. -/
theorem weight_char_le (c : Char) : weight (String.utf8EncodeChar c) ≤ 6 := by
  rw [← length_quoteChar]
  exact length_quoteChar_le c

theorem cost_of_isPlain {b : UInt8} (h : IsPlain b) : cost b = 1 := by
  obtain ⟨hcontrol, hquote, hslash⟩ := h
  unfold cost
  split
  · next hlow =>
    have hlow : b.toNat < 0x80 := UInt8.lt_iff_toNat_lt.mp hlow
    have hn : (Char.ofNat b.toNat).toNat = b.toNat := Utf8.val_ofNat (.inl (by omega))
    have hne : ∀ {d : Char} {x : UInt8}, d.toNat = x.toNat → b ≠ x → Char.ofNat b.toNat ≠ d := by
      rintro d x hd hx rfl
      exact hx (UInt8.toNat_inj.mp (hn.symm.trans hd))
    have hascii : (Char.ofNat b.toNat).val.toNat ≤ 0x7F := by
      change (Char.ofNat b.toNat).toNat ≤ 0x7F
      omega
    rw [quoteChar_of_plain (hne rfl hquote) (hne rfl hslash) (by omega)]
    unfold String.utf8EncodeChar
    exact congrArg List.length (if_pos hascii)
  · rfl

theorem cost_of_shortEscape {e x : UInt8} (h : shortEscape? e = some x) : cost x ≤ 2 := by
  unfold shortEscape? at h
  split at h
  · next he =>
    cases h
    rcases he with rfl | rfl | rfl <;> decide
  · repeat' split at h
    all_goals
      cases h
      try decide

/-! ## Literals -/

/-- The state after a byte inside a string; `none` where it is refused or ends the string. -/
def Escape.step? (e : Escape) (b : UInt8) : Option Escape :=
  if e = .none ∧ b = 0x22 then Option.none else e.next b

/-- The bytes may stand inside a string after others that end in this state, and they leave no
escape open. -/
def Ends (e : Escape) (raw : Bytes) : Prop := raw.foldlM Escape.step? e = some .none

/-- The bytes may stand between quotes. -/
abbrev Legal (raw : Bytes) : Prop := Ends .none raw

variable {b x h₁ h₂ h₃ h₄ : UInt8} {rest : Bytes}

theorem ends_cons {e : Escape} :
    Ends e (b :: rest) ↔ ∃ e', e.step? b = some e' ∧ Ends e' rest := by
  unfold Ends
  rw [List.foldlM_cons]
  exact Option.bind_eq_some_iff

theorem step?_hex {due : Nat} {e : Escape} (h : Escape.step? (.hex due) b = some e) :
    e = if due ≤ 1 then .none else .hex (due - 1) := by
  unfold Escape.step? at h
  rw [if_neg fun hboth => by cases hboth.1] at h
  change (if isHex b then _ else _) = _ at h
  split at h
  · exact (Option.some.inj h).symm
  · cases h

namespace Legal

theorem plain (h : Legal (b :: rest)) (hslash : b ≠ 0x5C) : IsPlain b ∧ Legal rest := by
  obtain ⟨e, hstep, hrest⟩ := ends_cons.mp h
  unfold Escape.step? at hstep
  split at hstep
  · cases hstep
  · next hquote =>
    change (if b = 0x5C then _ else if b < 0x20 then _ else _) = _ at hstep
    rw [if_neg hslash] at hstep
    split at hstep
    · cases hstep
    · next hcontrol =>
      cases hstep
      have hcontrol : 0x20 ≤ b.toNat := UInt8.le_iff_toNat_le.mp (UInt8.not_lt.mp hcontrol)
      exact ⟨⟨hcontrol, fun he => hquote ⟨rfl, he⟩, hslash⟩, hrest⟩

theorem short (h : Legal (0x5C :: x :: rest)) (hx : x ≠ 0x75) : Legal rest := by
  obtain ⟨e, hstep, hrest⟩ := ends_cons.mp h
  obtain rfl : Escape.begun = e := Option.some.inj hstep
  obtain ⟨e, hstep, hrest⟩ := ends_cons.mp hrest
  change (if x = 0x75 then _ else if Escape.isShort x then _ else _) = _ at hstep
  rw [if_neg hx] at hstep
  split at hstep
  · cases hstep
    exact hrest
  · cases hstep

theorem unit (h : Legal (0x5C :: 0x75 :: h₁ :: h₂ :: h₃ :: h₄ :: rest)) : Legal rest := by
  obtain ⟨e, hstep, hrest⟩ := ends_cons.mp h
  obtain rfl : Escape.begun = e := Option.some.inj hstep
  obtain ⟨e, hstep, hrest⟩ := ends_cons.mp hrest
  obtain rfl : Escape.hex 4 = e := Option.some.inj hstep
  obtain ⟨e, hstep, hrest⟩ := ends_cons.mp hrest
  obtain rfl : e = .hex 3 := step?_hex hstep
  obtain ⟨e, hstep, hrest⟩ := ends_cons.mp hrest
  obtain rfl : e = .hex 2 := step?_hex hstep
  obtain ⟨e, hstep, hrest⟩ := ends_cons.mp hrest
  obtain rfl : e = .hex 1 := step?_hex hstep
  obtain ⟨e, hstep, hrest⟩ := ends_cons.mp hrest
  obtain rfl : e = .none := step?_hex hstep
  exact hrest

end Legal

theorem unescape_pair {l₁ l₂ l₃ l₄ : UInt8} {high low : Nat}
    (hunit : hexUnit? h₁ h₂ h₃ h₄ = some high) (hhigh : isHighSurrogate high = true)
    (hlow : isLowSurrogate high = false) (hunit' : hexUnit? l₁ l₂ l₃ l₄ = some low)
    (hlow' : isLowSurrogate low = true) (done rest : Bytes) :
    unescape done (0x5C :: 0x75 :: h₁ :: h₂ :: h₃ :: h₄ ::
        0x5C :: 0x75 :: l₁ :: l₂ :: l₃ :: l₄ :: rest) =
      unescape ((String.utf8EncodeChar (pairChar high low)).reverse ++ done) rest := by
  rw [unescape.eq_def]
  simp [hunit, hhigh, hlow, hunit', hlow']

/-- A character put before what was resolved costs no more than six bytes. -/
theorem weight_char_append_le (c : Char) (done : Bytes) :
    weight ((String.utf8EncodeChar c).reverse ++ done) ≤ weight done + 6 := by
  have hchar := weight_char_le c
  rw [weight_append, weight_reverse]
  omega

/-- What a literal is resolved to costs no more than the literal is long. -/
theorem weight_unescape {done raw out : Bytes} (h : unescape done raw = some out)
    (hraw : Legal raw) : weight out ≤ weight done + raw.length := by
  induction done, raw using unescape.induct with
  | case1 done =>
    cases h
    exact Nat.le_of_eq (weight_reverse done)
  | case2 done b rest hslash ih =>
    obtain ⟨hplain, hrest⟩ := hraw.plain hslash
    rw [unescape_cons_ne hslash] at h
    have hle := ih h hrest
    rw [weight_cons, cost_of_isPlain hplain] at hle
    rw [List.length_cons]
    omega
  | case4 done b hslash x rest hletter y hshort ih =>
    obtain rfl := Decidable.not_not.mp hslash
    rw [unescape_short hshort] at h
    have hle := ih h (hraw.short hletter)
    have hcost := cost_of_shortEscape hshort
    rw [weight_cons] at hle
    simp only [List.length_cons]
    omega
  | case8 done b hslash x hletter h₁ h₂ h₃ h₄ rest n hn hlow hhigh ih =>
    obtain rfl := Decidable.not_not.mp hslash
    obtain rfl := Decidable.not_not.mp hletter
    rw [unescape_unit hn (Bool.eq_false_iff.mpr hhigh) (Bool.eq_false_iff.mpr hlow)] at h
    have hle := ih h hraw.unit
    have hchar := weight_char_append_le (Char.ofNat n) done
    simp only [List.length_cons]
    omega
  | case10 done b hslash x hletter h₁ h₂ h₃ h₄ n hn hlow hhigh l₁ l₂ l₃ l₄ rest m hm hlow' ih =>
    obtain rfl := Decidable.not_not.mp hslash
    obtain rfl := Decidable.not_not.mp hletter
    rw [unescape_pair hn (Decidable.not_not.mp hhigh) (Bool.eq_false_iff.mpr hlow) hm hlow'] at h
    have hle := ih h hraw.unit.unit
    have hchar := weight_char_append_le (pairChar n m) done
    simp only [List.length_cons]
    omega
  | case3 | case5 | case6 | case7 | case9 | case11 | case12 | case13 =>
    -- the other literals are refused
    rw [unescape.eq_def] at h
    simp_all

/-- **A text takes no more bytes to write than its literal has.** -/
theorem length_quote_le {raw : Bytes} {s : String} (h : unquote? raw = some s)
    (hraw : Legal raw) : (quote s).length ≤ raw.length := by
  obtain ⟨out, hout, hdecode⟩ := Option.bind_eq_some_iff.mp h
  have hle := weight_unescape hout hraw
  have hempty : weight [] = 0 := rfl
  rw [length_quote, Utf8.encode_of_decode? hdecode]
  omega

end BucketAdmin.Json
