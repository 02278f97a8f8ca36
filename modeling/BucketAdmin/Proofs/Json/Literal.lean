import BucketAdmin.Json.Literal
import BucketAdmin.Proofs.Utf8

/-!
# Literals read back

The literal of a text is read as that text (`unquote?_quote`): each character is written as itself
or as an escape (`Written`), and `unescape` takes either to the bytes of the character
(`Written.unescape`). The literal of a whole number below `2 ^ 64` is read as that number
(`read?_numeral`).
-/

namespace BucketAdmin.Json

/-! ## Bytes that stand for themselves -/

/-- A byte that stands for itself inside a string: no control character, no quote, no
backslash. -/
def IsPlain (b : UInt8) : Prop := 0x20 ≤ b.toNat ∧ b ≠ 0x22 ∧ b ≠ 0x5C

/-- A character is either the one byte with its own value, or bytes past the ASCII range. -/
theorem mem_utf8EncodeChar {c : Char} {b : UInt8} (h : b ∈ String.utf8EncodeChar c) :
    b.toNat = c.toNat ∨ 0x80 ≤ b.toNat := by
  unfold String.utf8EncodeChar at h
  dsimp only at h
  split at h
  · next hc =>
    left
    rw [List.mem_singleton.mp h]
    exact UInt8.toNat_ofNat_of_lt' (by simp only [UInt8.size]; omega)
  · right
    split at h
    · simp only [List.mem_cons, List.not_mem_nil, or_false] at h
      rcases h with rfl | rfl <;> simp only [UInt8.toNat_ofNat'] <;> omega
    · split at h
      all_goals
        simp only [List.mem_cons, List.not_mem_nil, or_false] at h
        rcases h with rfl | rfl | rfl | rfl <;> simp only [UInt8.toNat_ofNat'] <;> omega

theorem isPlain_of_mem_utf8EncodeChar {c : Char} (hquote : c ≠ '"') (hslash : c ≠ '\\')
    (hcontrol : 0x20 ≤ c.toNat) {b : UInt8} (h : b ∈ String.utf8EncodeChar c) : IsPlain b := by
  rcases mem_utf8EncodeChar h with hb | hb
  · refine ⟨hb ▸ hcontrol, fun he => hquote ?_, fun he => hslash ?_⟩
    · exact Char.toNat_inj.mp (hb.symm.trans (congrArg UInt8.toNat he))
    · exact Char.toNat_inj.mp (hb.symm.trans (congrArg UInt8.toNat he))
  · refine ⟨by omega, ?_, ?_⟩ <;> (rintro rfl; revert hb; decide)

/-! ## Strings -/

theorem unescape_cons_ne {b : UInt8} (h : b ≠ 0x5C) (done rest : Bytes) :
    unescape done (b :: rest) = unescape (b :: done) rest := by
  rw [unescape.eq_def]
  simp only [if_pos h]

theorem unescape_plain {bs : Bytes} (h : ∀ b ∈ bs, b ≠ 0x5C) (done rest : Bytes) :
    unescape done (bs ++ rest) = unescape (bs.reverse ++ done) rest := by
  induction bs generalizing done with
  | nil => rfl
  | cons b bs ih =>
    rw [List.cons_append, unescape_cons_ne (h b List.mem_cons_self),
      ih fun x hx => h x (List.mem_cons_of_mem _ hx)]
    simp

theorem unescape_short {e x : UInt8} (h : shortEscape? e = some x) (done rest : Bytes) :
    unescape done (0x5C :: e :: rest) = unescape (x :: done) rest := by
  have he : e ≠ 0x75 := by
    rintro rfl
    cases h
  rw [unescape.eq_def]
  simp only [ne_eq, not_true_eq_false, if_false, if_pos he, h]

theorem unescape_unit {h₁ h₂ h₃ h₄ : UInt8} {n : Nat} (h : hexUnit? h₁ h₂ h₃ h₄ = some n)
    (hhigh : isHighSurrogate n = false) (hlow : isLowSurrogate n = false) (done rest : Bytes) :
    unescape done (0x5C :: 0x75 :: h₁ :: h₂ :: h₃ :: h₄ :: rest) =
      unescape ((String.utf8EncodeChar (Char.ofNat n)).reverse ++ done) rest := by
  rw [unescape.eq_def]
  simp [h, hhigh, hlow]

/-- The written form of a control character is its code in four hexadecimal digits. -/
theorem hexUnit?_hexByte : ∀ n < 0x20,
    hexUnit? 0x30 0x30 (hexByte (n / 16)) (hexByte (n % 16)) = some n := by
  decide

/-- The ways to write a character inside a string. -/
inductive Written (c : Char) : Bytes → Prop
  | short {e x : UInt8} (h : shortEscape? e = some x) (hletter : Escape.isShort e = true)
      (hbyte : String.utf8EncodeChar c = [x]) : Written c [0x5C, e]
  | control (h : c.toNat < 0x20) :
      Written c [0x5C, 0x75, 0x30, 0x30, hexByte (c.toNat / 16), hexByte (c.toNat % 16)]
  | plain (h : ∀ b ∈ String.utf8EncodeChar c, IsPlain b) : Written c (String.utf8EncodeChar c)

theorem written_quoteChar (c : Char) : Written c (quoteChar c) := by
  by_cases hquote : c = '"'
  · subst hquote
    exact .short rfl rfl rfl
  by_cases hslash : c = '\\'
  · subst hslash
    exact .short rfl rfl rfl
  by_cases h08 : c = '\x08'
  · subst h08
    exact .short rfl rfl rfl
  by_cases h0c : c = '\x0c'
  · subst h0c
    exact .short rfl rfl rfl
  by_cases h0a : c = '\n'
  · subst h0a
    exact .short rfl rfl rfl
  by_cases h0d : c = '\r'
  · subst h0d
    exact .short rfl rfl rfl
  by_cases h09 : c = '\t'
  · subst h09
    exact .short rfl rfl rfl
  unfold quoteChar
  rw [if_neg hquote, if_neg hslash, if_neg h08, if_neg h0c, if_neg h0a, if_neg h0d, if_neg h09]
  by_cases hcontrol : c.toNat < 0x20
  · rw [if_pos hcontrol]
    exact .control hcontrol
  · rw [if_neg hcontrol]
    refine .plain fun b hb => isPlain_of_mem_utf8EncodeChar hquote hslash ?_ hb
    omega

/-- A character that stands for itself is written as its bytes. -/
theorem quoteChar_of_plain {c : Char} (hquote : c ≠ '"') (hslash : c ≠ '\\')
    (hcontrol : 0x20 ≤ c.toNat) : quoteChar c = String.utf8EncodeChar c := by
  have hne : ∀ {d : Char}, d.toNat < 0x20 → c ≠ d := by
    rintro d hd rfl
    omega
  unfold quoteChar
  rw [if_neg hquote, if_neg hslash, if_neg (hne (by decide)), if_neg (hne (by decide)),
    if_neg (hne (by decide)), if_neg (hne (by decide)), if_neg (hne (by decide)),
    if_neg (Nat.not_lt.mpr hcontrol)]

/-- However a character is written, it is read as its own bytes. -/
theorem Written.unescape {c : Char} {bs : Bytes} (h : Written c bs) (done rest : Bytes) :
    unescape done (bs ++ rest) = unescape ((String.utf8EncodeChar c).reverse ++ done) rest := by
  cases h with
  | short h _ hbyte =>
    rw [hbyte]
    exact unescape_short h done rest
  | control h =>
    have hhigh : isHighSurrogate c.toNat = false := by simp [isHighSurrogate]; omega
    have hlow : isLowSurrogate c.toNat = false := by simp [isLowSurrogate]; omega
    have hunit := unescape_unit (hexUnit?_hexByte c.toNat h) hhigh hlow done rest
    rwa [Char.ofNat_toNat] at hunit
  | plain h => exact unescape_plain (fun b hb => (h b hb).2.2) done rest

theorem unescape_quote (cs : List Char) (done : Bytes) :
    unescape done (cs.flatMap quoteChar) =
      some (done.reverse ++ cs.flatMap String.utf8EncodeChar) := by
  induction cs generalizing done with
  | nil => simp [unescape]
  | cons c cs ih =>
    rw [List.flatMap_cons, (written_quoteChar c).unescape, ih]
    simp

/-- **The literal of a text is read as that text.** -/
@[simp] theorem unquote?_quote (s : String) : unquote? (quote s) = some s := by
  have h : unescape [] (quote s) = some (Utf8.encode s) := unescape_quote s.toList []
  rw [unquote?, h]
  exact Utf8.decode?_encode s

/-! ## Whole numbers -/

namespace Number

/-- The value of digits written after `n`. -/
def valueAfter (n : Nat) (ds : Bytes) : Nat := ds.foldl (fun n d => 10 * n + digit d) n

theorem le_valueAfter (n : Nat) (ds : Bytes) : n ≤ valueAfter n ds := by
  induction ds generalizing n with
  | nil => exact Nat.le_refl n
  | cons d ds ih =>
    have h : 10 * n + digit d ≤ valueAfter n (d :: ds) := ih (10 * n + digit d)
    omega

/-- Digits whose value fits 64 bits all count. -/
theorem fitting_of_lt {n : Nat} {ds : Bytes} (h : valueAfter n ds < UInt64.size) :
    fitting n ds = (valueAfter n ds, []) := by
  induction ds generalizing n with
  | nil => rfl
  | cons d ds ih =>
    have hle : 10 * n + digit d ≤ valueAfter n (d :: ds) := le_valueAfter _ ds
    simp only [fitting]
    rw [if_pos (Nat.lt_of_le_of_lt hle h)]
    exact ih h

theorem valueAfter_append (n : Nat) (ds es : Bytes) :
    valueAfter n (ds ++ es) = valueAfter (valueAfter n ds) es := by
  simp [valueAfter]

theorem digit_digitChar : ∀ d < 10, digit (Nat.digitChar d).toNat.toUInt8 = d := by
  decide

theorem numeral_of_lt {n : Nat} (h : n < 10) : numeral n = [(Nat.digitChar n).toNat.toUInt8] := by
  rw [numeral, Nat.toDigits_of_lt_base h]
  rfl

theorem numeral_of_le {n : Nat} (h : 10 ≤ n) :
    numeral n = numeral (n / 10) ++ [(Nat.digitChar (n % 10)).toNat.toUInt8] := by
  rw [numeral, Nat.toDigits_of_base_le (by decide) h, List.map_append]
  rfl

theorem valueAfter_numeral (n : Nat) : valueAfter 0 (numeral n) = n := by
  induction n using Nat.strongRecOn with
  | _ n ih =>
    by_cases h : n < 10
    · rw [numeral_of_lt h]
      change 10 * 0 + digit _ = n
      rw [digit_digitChar n h, Nat.zero_add]
    · rw [numeral_of_le (by omega), valueAfter_append, ih (n / 10) (by omega)]
      change 10 * (n / 10) + digit _ = n
      rw [digit_digitChar _ (Nat.mod_lt n (by decide))]
      omega

theorem isDigit_digitChar : ∀ d < 10, isDigit (Nat.digitChar d).toNat.toUInt8 = true := by
  decide

theorem isDigit_of_mem_numeral {n : Nat} {b : UInt8} (h : b ∈ numeral n) : isDigit b = true := by
  induction n using Nat.strongRecOn with
  | _ n ih =>
    by_cases hn : n < 10
    · rw [numeral_of_lt hn, List.mem_singleton] at h
      exact h ▸ isDigit_digitChar n hn
    · rw [numeral_of_le (by omega), List.mem_append, List.mem_singleton] at h
      rcases h with h | h
      · exact ih (n / 10) (by omega) h
      · exact h ▸ isDigit_digitChar _ (Nat.mod_lt n (by decide))

/-- **The literal of a number of 64 bits is read as that number.** -/
theorem read?_numeral {n : Nat} (h : n < UInt64.size) : read? (numeral n) = some (.integer n) := by
  have hdigits : ∀ b ∈ numeral n, isDigit b = true := fun b hb => isDigit_of_mem_numeral hb
  have hsign : ((numeral n).head? == some 0x2D) = false := by
    cases hb : numeral n with
    | nil => rfl
    | cons b bs =>
      have hd := hdigits b (hb ▸ List.mem_cons_self)
      have hne : b ≠ 0x2D := by
        rintro rfl
        cases hd
      simpa using hne
  have hwhole : (numeral n).takeWhile isDigit = numeral n := by
    rw [← List.append_nil (numeral n), List.takeWhile_append_of_pos hdigits]
    rfl
  have hrest : (numeral n).dropWhile isDigit = [] := by
    rw [← List.append_nil (numeral n), List.dropWhile_append_of_pos hdigits]
    rfl
  have hvalue : fitting 0 (numeral n) = (n, []) := by
    have hlt : valueAfter 0 (numeral n) < UInt64.size := by
      rw [valueAfter_numeral]
      exact h
    rw [fitting_of_lt hlt, valueAfter_numeral]
  simp [read?, hsign, hwhole, hrest, hvalue]

end Number

end BucketAdmin.Json
