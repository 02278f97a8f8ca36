import BucketAdmin.Proofs.Json.Cost
import BucketAdmin.Proofs.Json.Grammar

/-!
# The spellings of a text

A character may stand in a string as it is, or be escaped by a letter, by its code unit, or by the
two units of a surrogate pair, with the hexadecimal digits in either case (`SpellsChar`).
`SpellsText` puts spellings of characters together. A string means a text just if it is a spelling
of the text (`spellsText_iff`).
-/

namespace BucketAdmin.Json

open String (utf8EncodeChar)

/-! ## Hexadecimal digits -/

/-- The values of the hexadecimal digits. -/
inductive HexDigit : UInt8 → Nat → Prop
  | decimal {n : Nat} (h : n < 10) : HexDigit (UInt8.ofNat (0x30 + n)) n
  | upper {n : Nat} (h : n < 6) : HexDigit (UInt8.ofNat (0x41 + n)) (10 + n)
  | lower {n : Nat} (h : n < 6) : HexDigit (UInt8.ofNat (0x61 + n)) (10 + n)

/-- The value of four hexadecimal digits. -/
inductive HexUnit : UInt8 → UInt8 → UInt8 → UInt8 → Nat → Prop
  | mk {h₁ h₂ h₃ h₄ : UInt8} {a b c d : Nat} (ha : HexDigit h₁ a) (hb : HexDigit h₂ b)
      (hc : HexDigit h₃ c) (hd : HexDigit h₄ d) :
      HexUnit h₁ h₂ h₃ h₄ (((a * 16 + b) * 16 + c) * 16 + d)

section Hex

variable {b h₁ h₂ h₃ h₄ : UInt8} {n : Nat}

theorem HexDigit.hexDigit? (h : HexDigit b n) : hexDigit? b = some n := by
  cases h with
  | decimal h =>
    have hall : ∀ n < 10, Json.hexDigit? (UInt8.ofNat (0x30 + n)) = some n := by decide
    exact hall _ h
  | @upper n h =>
    have hall : ∀ n < 6, Json.hexDigit? (UInt8.ofNat (0x41 + n)) = some (10 + n) := by decide
    exact hall _ h
  | @lower n h =>
    have hall : ∀ n < 6, Json.hexDigit? (UInt8.ofNat (0x61 + n)) = some (10 + n) := by decide
    exact hall _ h

theorem ofNat_add_sub {k : Nat} (h : k ≤ b.toNat) : UInt8.ofNat (k + (b.toNat - k)) = b := by
  rw [Nat.add_sub_cancel' h, UInt8.ofNat_toNat]

theorem hexDigit_of_hexDigit? (h : hexDigit? b = some n) : HexDigit b n := by
  unfold hexDigit? at h
  split at h
  · next hdigit =>
    simp only [isDigit, Bool.and_eq_true, decide_eq_true_eq, UInt8.le_iff_toNat_le] at hdigit
    obtain ⟨hlow, hhigh⟩ := hdigit
    change 0x30 ≤ b.toNat at hlow
    change b.toNat ≤ 0x39 at hhigh
    have hdecimal := HexDigit.decimal (n := b.toNat - 0x30) (by omega)
    rw [ofNat_add_sub hlow] at hdecimal
    exact Option.some.inj h ▸ hdecimal
  · split at h
    · next hletter =>
      simp only [UInt8.le_iff_toNat_le] at hletter
      obtain ⟨hlow, hhigh⟩ := hletter
      change 0x41 ≤ b.toNat at hlow
      change b.toNat ≤ 0x46 at hhigh
      have hupper := HexDigit.upper (n := b.toNat - 0x41) (by omega)
      rw [ofNat_add_sub hlow, Nat.add_comm 10] at hupper
      exact Option.some.inj h ▸ hupper
    · split at h
      · next hletter =>
        simp only [UInt8.le_iff_toNat_le] at hletter
        obtain ⟨hlow, hhigh⟩ := hletter
        change 0x61 ≤ b.toNat at hlow
        change b.toNat ≤ 0x66 at hhigh
        have hlower := HexDigit.lower (n := b.toNat - 0x61) (by omega)
        rw [ofNat_add_sub hlow, Nat.add_comm 10] at hlower
        exact Option.some.inj h ▸ hlower
      · cases h

theorem HexDigit.isHex (h : HexDigit b n) : isHex b = true := by
  cases h with
  | decimal h =>
    have hall : ∀ n < 10, Json.isHex (UInt8.ofNat (0x30 + n)) = true := by decide
    exact hall _ h
  | @upper n h =>
    have hall : ∀ n < 6, Json.isHex (UInt8.ofNat (0x41 + n)) = true := by decide
    exact hall _ h
  | @lower n h =>
    have hall : ∀ n < 6, Json.isHex (UInt8.ofNat (0x61 + n)) = true := by decide
    exact hall _ h

theorem hexUnit?_eq_some_iff : hexUnit? h₁ h₂ h₃ h₄ = some n ↔ HexUnit h₁ h₂ h₃ h₄ n := by
  constructor
  · intro h
    obtain ⟨a, ha, h⟩ := Option.bind_eq_some_iff.mp h
    obtain ⟨b, hb, h⟩ := Option.bind_eq_some_iff.mp h
    obtain ⟨c, hc, h⟩ := Option.bind_eq_some_iff.mp h
    obtain ⟨d, hd, h⟩ := Option.bind_eq_some_iff.mp h
    obtain rfl : ((a * 16 + b) * 16 + c) * 16 + d = n := by
      have hn : (a * 16 + b) * 256 + c * 16 + d = n := Option.some.inj h
      omega
    exact ⟨hexDigit_of_hexDigit? ha, hexDigit_of_hexDigit? hb, hexDigit_of_hexDigit? hc,
      hexDigit_of_hexDigit? hd⟩
  · rintro ⟨ha, hb, hc, hd⟩
    simp only [hexUnit?, ha.hexDigit?, hb.hexDigit?, hc.hexDigit?, hd.hexDigit?,
      Option.pure_def, Option.bind_eq_bind, Option.bind_some, Option.some.injEq]
    omega

end Hex

/-! ## Characters -/

/-- The characters that are escaped by a letter. -/
def shortEscapes : List (UInt8 × Char) :=
  [(0x22, '"'), (0x5C, '\\'), (0x2F, '/'), (0x62, '\x08'), (0x66, '\x0c'), (0x6E, '\n'),
    (0x72, '\r'), (0x74, '\t')]

/-- The ways to escape a character. -/
inductive Escapes (c : Char) : Bytes → Prop
  | short {e : UInt8} (h : (e, c) ∈ shortEscapes) : Escapes c [0x5C, e]
  | unit {h₁ h₂ h₃ h₄ : UInt8} (h : HexUnit h₁ h₂ h₃ h₄ c.toNat) :
      Escapes c [0x5C, 0x75, h₁, h₂, h₃, h₄]
  | pair {h₁ h₂ h₃ h₄ l₁ l₂ l₃ l₄ : UInt8} {high low : Nat} (hhigh : HexUnit h₁ h₂ h₃ h₄ high)
      (hlow : HexUnit l₁ l₂ l₃ l₄ low) (hhighs : 0xD800 ≤ high ∧ high ≤ 0xDBFF)
      (hlows : 0xDC00 ≤ low ∧ low ≤ 0xDFFF)
      (hc : c.toNat = 0x10000 + (high - 0xD800) * 0x400 + (low - 0xDC00)) :
      Escapes c [0x5C, 0x75, h₁, h₂, h₃, h₄, 0x5C, 0x75, l₁, l₂, l₃, l₄]

/-- The ways to write a character inside a string. -/
inductive SpellsChar (c : Char) : Bytes → Prop
  | plain (hquote : c ≠ '"') (hslash : c ≠ '\\') (hcontrol : 0x20 ≤ c.toNat) :
      SpellsChar c (utf8EncodeChar c)
  | escaped {bs : Bytes} (h : Escapes c bs) : SpellsChar c bs

/-- The bytes are a spelling of the characters. -/
inductive SpellsText : List Char → Bytes → Prop
  | nil : SpellsText [] []
  | cons {c : Char} {cs : List Char} {bs rest : Bytes} (hc : SpellsChar c bs)
      (h : SpellsText cs rest) : SpellsText (c :: cs) (bs ++ rest)

variable {c : Char} {cs : List Char} {bs raw rest done out : Bytes} {e x : UInt8}

theorem isShort_of_mem (h : (e, c) ∈ shortEscapes) :
    Escape.isShort e = true ∧ ∃ x, shortEscape? e = some x ∧ utf8EncodeChar c = [x] := by
  simp only [shortEscapes, List.mem_cons, List.not_mem_nil, or_false, Prod.mk.injEq] at h
  rcases h with ⟨rfl, rfl⟩ | ⟨rfl, rfl⟩ | ⟨rfl, rfl⟩ | ⟨rfl, rfl⟩ | ⟨rfl, rfl⟩ | ⟨rfl, rfl⟩ |
    ⟨rfl, rfl⟩ | ⟨rfl, rfl⟩ <;> exact ⟨rfl, _, rfl, rfl⟩

theorem mem_of_shortEscape? (h : shortEscape? e = some x) :
    ∃ c, (e, c) ∈ shortEscapes ∧ utf8EncodeChar c = [x] := by
  unfold shortEscape? at h
  split at h
  · next he =>
    cases h
    rcases he with rfl | rfl | rfl
    · exact ⟨'"', by decide, rfl⟩
    · exact ⟨'\\', by decide, rfl⟩
    · exact ⟨'/', by decide, rfl⟩
  split at h
  · next he =>
    cases h
    exact ⟨'\x08', he ▸ by decide, rfl⟩
  split at h
  · next he =>
    cases h
    exact ⟨'\x0c', he ▸ by decide, rfl⟩
  split at h
  · next he =>
    cases h
    exact ⟨'\n', he ▸ by decide, rfl⟩
  split at h
  · next he =>
    cases h
    exact ⟨'\r', he ▸ by decide, rfl⟩
  split at h
  · next he =>
    cases h
    exact ⟨'\t', he ▸ by decide, rfl⟩
  · cases h

theorem surrogate_eq_false {n : Nat} (h : n < 0xD800 ∨ 0xDFFF < n) :
    isHighSurrogate n = false ∧ isLowSurrogate n = false := by
  simp only [isHighSurrogate, isLowSurrogate, Bool.and_eq_false_iff, decide_eq_false_iff_not]
  omega

/-- No character is a surrogate. -/
theorem not_surrogate (c : Char) : c.toNat < 0xD800 ∨ 0xDFFF < c.toNat :=
  c.valid.imp id And.left

/-! ## What is spelled is meant -/

theorem Escapes.unescape (h : Escapes c bs) (done rest : Bytes) :
    unescape done (bs ++ rest) = unescape ((utf8EncodeChar c).reverse ++ done) rest := by
  cases h with
  | short h =>
    obtain ⟨-, x, hx, hc⟩ := isShort_of_mem h
    rw [hc]
    exact unescape_short hx done rest
  | unit h =>
    obtain ⟨hhigh, hlow⟩ := surrogate_eq_false (not_surrogate c)
    have hunit := unescape_unit (hexUnit?_eq_some_iff.mpr h) hhigh hlow done rest
    rwa [Char.ofNat_toNat] at hunit
  | @pair _ _ _ _ _ _ _ _ high low hhigh hlow hhighs hlows hc =>
    have hfirst : isHighSurrogate high = true := by simpa [isHighSurrogate] using hhighs
    have hnot : isLowSurrogate high = false := by
      simp only [isLowSurrogate, Bool.and_eq_false_iff, decide_eq_false_iff_not]
      omega
    have hsecond : isLowSurrogate low = true := by simpa [isLowSurrogate] using hlows
    have hpair := unescape_pair (hexUnit?_eq_some_iff.mpr hhigh) hfirst hnot
      (hexUnit?_eq_some_iff.mpr hlow) hsecond done rest
    rwa [pairChar, ← hc, Char.ofNat_toNat] at hpair

theorem SpellsChar.unescape (h : SpellsChar c bs) (done rest : Bytes) :
    unescape done (bs ++ rest) = unescape ((utf8EncodeChar c).reverse ++ done) rest := by
  cases h with
  | plain hquote hslash hcontrol =>
    refine unescape_plain (fun b hb => ?_) done rest
    exact (isPlain_of_mem_utf8EncodeChar hquote hslash hcontrol hb).2.2
  | escaped h => exact h.unescape done rest

theorem SpellsText.unescape (h : SpellsText cs raw) (done : Bytes) :
    unescape done raw = some (done.reverse ++ cs.flatMap utf8EncodeChar) := by
  induction h generalizing done with
  | nil => simp [Json.unescape]
  | cons hc _ ih =>
    rw [hc.unescape, ih]
    simp

theorem isText_plain (h : ∀ b ∈ bs, IsPlain b) (hrest : IsText rest) : IsText (bs ++ rest) := by
  induction bs with
  | nil => exact hrest
  | cons b bs ih =>
    obtain ⟨hb, hbs⟩ := List.forall_mem_cons.mp h
    exact .plain hb (ih hbs)

theorem HexUnit.isText {h₁ h₂ h₃ h₄ : UInt8} {n : Nat} (h : HexUnit h₁ h₂ h₃ h₄ n)
    (hrest : IsText rest) : IsText (0x5C :: 0x75 :: h₁ :: h₂ :: h₃ :: h₄ :: rest) := by
  obtain ⟨ha, hb, hc, hd⟩ := h
  exact .unit ha.isHex hb.isHex hc.isHex hd.isHex hrest

theorem SpellsChar.isText (h : SpellsChar c bs) (hrest : IsText rest) : IsText (bs ++ rest) := by
  cases h with
  | plain hquote hslash hcontrol =>
    exact isText_plain (fun b => isPlain_of_mem_utf8EncodeChar hquote hslash hcontrol) hrest
  | escaped h =>
    cases h with
    | short h => exact .short (isShort_of_mem h).1 hrest
    | unit h => exact h.isText hrest
    | pair hhigh hlow => exact hhigh.isText (hlow.isText hrest)

theorem SpellsText.isText (h : SpellsText cs raw) : IsText raw := by
  induction h with
  | nil => exact .nil
  | cons hc _ ih => exact hc.isText ih

theorem SpellsText.unquote? {s : String} (h : SpellsText s.toList raw) :
    unquote? raw = some s := by
  have hout : Json.unescape [] raw = some (Utf8.encode s) := h.unescape []
  rw [Json.unquote?, hout]
  exact Utf8.decode?_encode s

/-! ## What is meant is spelled -/

/-- A byte that goes on with a character. -/
def IsTail (b : UInt8) : Prop := 0x80 ≤ b.toNat ∧ b.toNat < 0xC0

/-- One byte begins a character, and the others go on with it. -/
theorem exists_utf8EncodeChar (c : Char) :
    ∃ b tail, utf8EncodeChar c = b :: tail ∧ ¬IsTail b ∧ ∀ t ∈ tail, IsTail t := by
  have hlow : ∀ n, n ≤ 0x7F → ¬IsTail (UInt8.ofNat n) := by
    intro n hn
    simp only [IsTail, UInt8.toNat_ofNat']
    omega
  have hhigh : ∀ n, 0xC0 ≤ n → n < 0x100 → ¬IsTail (UInt8.ofNat n) := by
    intro n hn hn'
    simp only [IsTail, UInt8.toNat_ofNat']
    omega
  have htail : ∀ n, IsTail (UInt8.ofNat (n % 64 + 0x80)) := by
    intro n
    simp only [IsTail, UInt8.toNat_ofNat']
    omega
  have hval : c.val.toNat < 0x110000 := by
    rcases c.valid with h | h <;> omega
  unfold utf8EncodeChar
  dsimp only
  split
  · next h => exact ⟨_, _, rfl, hlow _ h, nofun⟩
  split
  · refine ⟨_, _, rfl, hhigh _ (by omega) (by omega), ?_⟩
    exact List.forall_mem_singleton.mpr (htail _)
  split
  · refine ⟨_, _, rfl, hhigh _ (by omega) (by omega), ?_⟩
    exact List.forall_mem_cons.mpr ⟨htail _, List.forall_mem_singleton.mpr (htail _)⟩
  · refine ⟨_, _, rfl, hhigh _ (by omega) (by omega), ?_⟩
    refine List.forall_mem_cons.mpr ⟨htail _, List.forall_mem_cons.mpr ⟨htail _, ?_⟩⟩
    exact List.forall_mem_singleton.mpr (htail _)

/-- The bytes of two characters are the same or part before they end. -/
theorem utf8EncodeChar_append_inj {d : Char}
    (h : utf8EncodeChar c ++ out = utf8EncodeChar d ++ rest) :
    c = d ∧ out = rest := by
  have hdecode : ∀ (c : Char) (bs : Bytes),
      (utf8EncodeChar c ++ bs).toByteArray.utf8DecodeChar? 0 = some c := by
    intro c bs
    rw [List.toByteArray_append]
    exact ByteArray.utf8DecodeChar?_utf8EncodeChar_append
  have hc := hdecode c out
  rw [h, hdecode d rest] at hc
  obtain rfl := Option.some.inj hc
  exact ⟨rfl, List.append_cancel_left h⟩

theorem spellsChar_of_isPlain {b : UInt8} {tail : Bytes} (hc : utf8EncodeChar c = b :: tail)
    (hb : IsPlain b) : SpellsChar c (utf8EncodeChar c) := by
  obtain ⟨hcontrol, hquote, hslash⟩ := hb
  refine .plain ?_ ?_ ?_
  · rintro rfl
    exact hquote (List.cons.inj hc).1.symm
  · rintro rfl
    exact hslash (List.cons.inj hc).1.symm
  · refine Nat.not_lt.mp fun hlow => ?_
    have hone : utf8EncodeChar c = [UInt8.ofNat c.toNat] := by
      unfold utf8EncodeChar
      exact if_pos (show c.toNat ≤ 0x7F by omega)
    rw [hone] at hc
    obtain ⟨rfl, -⟩ := List.cons.inj hc
    rw [UInt8.toNat_ofNat'] at hcontrol
    omega

/-- A string in pieces: bytes that stand for themselves, and characters that are escaped. -/
inductive Pieces : Bytes → Bytes → Prop
  | nil : Pieces [] []
  | plain {b : UInt8} {raw out : Bytes} (hb : IsPlain b) (h : Pieces raw out) :
      Pieces (b :: raw) (b :: out)
  | escaped {c : Char} {bs raw out : Bytes} (hc : Escapes c bs) (h : Pieces raw out) :
      Pieces (bs ++ raw) (utf8EncodeChar c ++ out)

theorem HexDigit.lt {b : UInt8} {n : Nat} (h : HexDigit b n) : n < 16 := by
  cases h <;> omega

theorem HexUnit.lt {h₁ h₂ h₃ h₄ : UInt8} {n : Nat} (h : HexUnit h₁ h₂ h₃ h₄ n) : n < 0x10000 := by
  obtain ⟨ha, hb, hc, hd⟩ := h
  have ha := ha.lt
  have hb := hb.lt
  have hc := hc.lt
  have hd := hd.lt
  omega

theorem isValidChar_unit {h₁ h₂ h₃ h₄ : UInt8} {n : Nat} (h : HexUnit h₁ h₂ h₃ h₄ n)
    (hhigh : ¬isHighSurrogate n = true) (hlow : ¬isLowSurrogate n = true) : n.isValidChar := by
  have hlt := h.lt
  simp only [isHighSurrogate, isLowSurrogate, Bool.and_eq_true, decide_eq_true_eq] at hhigh hlow
  rcases Nat.lt_or_ge n 0xD800 with hn | hn
  · exact .inl hn
  · exact .inr ⟨by omega, by omega⟩

theorem exists_pieces (hraw : Legal raw) (h : unescape done raw = some out) :
    ∃ rest, out = done.reverse ++ rest ∧ Pieces raw rest := by
  induction done, raw using unescape.induct with
  | case1 done =>
    cases h
    exact ⟨[], (List.append_nil _).symm, .nil⟩
  | case2 done b raw hslash ih =>
    obtain ⟨hplain, hlegal⟩ := hraw.plain hslash
    rw [unescape_cons_ne hslash] at h
    obtain ⟨rest, rfl, hpieces⟩ := ih hlegal h
    exact ⟨b :: rest, by simp, .plain hplain hpieces⟩
  | case4 done b hslash x raw hletter y hshort ih =>
    obtain rfl := Decidable.not_not.mp hslash
    rw [unescape_short hshort] at h
    obtain ⟨rest, rfl, hpieces⟩ := ih (hraw.short hletter) h
    obtain ⟨c, hmem, hc⟩ := mem_of_shortEscape? hshort
    exact ⟨utf8EncodeChar c ++ rest, by simp [hc], .escaped (.short hmem) hpieces⟩
  | case8 done b hslash x hletter h₁ h₂ h₃ h₄ raw n hn hlow hhigh ih =>
    obtain rfl := Decidable.not_not.mp hslash
    obtain rfl := Decidable.not_not.mp hletter
    rw [unescape_unit hn (Bool.eq_false_iff.mpr hhigh) (Bool.eq_false_iff.mpr hlow)] at h
    obtain ⟨rest, rfl, hpieces⟩ := ih hraw.unit h
    have hunit := hexUnit?_eq_some_iff.mp hn
    have hchar : (Char.ofNat n).toNat = n := Utf8.val_ofNat (isValidChar_unit hunit hhigh hlow)
    rw [← hchar] at hunit
    exact ⟨utf8EncodeChar (Char.ofNat n) ++ rest, by simp, .escaped (.unit hunit) hpieces⟩
  | case10 done b hslash x hletter h₁ h₂ h₃ h₄ n hn hlow hhigh l₁ l₂ l₃ l₄ raw m hm hlow' ih =>
    obtain rfl := Decidable.not_not.mp hslash
    obtain rfl := Decidable.not_not.mp hletter
    rw [unescape_pair hn (Decidable.not_not.mp hhigh) (Bool.eq_false_iff.mpr hlow) hm hlow'] at h
    obtain ⟨rest, hrest, hpieces⟩ := ih hraw.unit.unit h
    have hhighs : 0xD800 ≤ n ∧ n ≤ 0xDBFF := by
      simpa [isHighSurrogate] using Decidable.not_not.mp hhigh
    have hlows : 0xDC00 ≤ m ∧ m ≤ 0xDFFF := by simpa [isLowSurrogate] using hlow'
    have hchar : (pairChar n m).toNat = 0x10000 + (n - 0xD800) * 0x400 + (m - 0xDC00) :=
      Utf8.val_ofNat (.inr ⟨by omega, by omega⟩)
    have hpair := Escapes.pair (hexUnit?_eq_some_iff.mp hn) (hexUnit?_eq_some_iff.mp hm) hhighs
      hlows hchar
    refine ⟨utf8EncodeChar (pairChar n m) ++ rest, ?_, .escaped hpair hpieces⟩
    rw [hrest, List.reverse_append, List.reverse_reverse, List.append_assoc]
  | case3 | case5 | case6 | case7 | case9 | case11 | case12 | case13 =>
    -- the other literals are refused
    rw [unescape.eq_def] at h
    simp_all

/-- Pieces that give the bytes of a text, after the rest of a character, begin with that rest and go
on with a spelling of the text. -/
theorem Pieces.exists_spellsText (h : Pieces raw out) {tail : Bytes} (htail : ∀ t ∈ tail, IsTail t)
    (hout : out = tail ++ cs.flatMap utf8EncodeChar) :
    ∃ rest, raw = tail ++ rest ∧ SpellsText cs rest := by
  induction h generalizing tail cs with
  | nil =>
    obtain ⟨rfl, hcs⟩ := List.append_eq_nil_iff.mp hout.symm
    cases cs with
    | nil => exact ⟨[], rfl, .nil⟩
    | cons c cs =>
      obtain ⟨b, t, hc, -⟩ := exists_utf8EncodeChar c
      simp [hc] at hcs
  | @plain b raw out hb _ ih =>
    cases tail with
    | cons t tail =>
      obtain ⟨rfl, hmore⟩ := List.cons.inj hout
      obtain ⟨-, htail⟩ := List.forall_mem_cons.mp htail
      obtain ⟨rest, rfl, hrest⟩ := ih htail hmore
      exact ⟨rest, rfl, hrest⟩
    | nil =>
      cases cs with
      | nil => cases hout
      | cons c cs =>
        obtain ⟨first, tail, hc, -, htail⟩ := exists_utf8EncodeChar c
        rw [List.nil_append, List.flatMap_cons, hc] at hout
        obtain ⟨rfl, hmore⟩ := List.cons.inj hout
        obtain ⟨rest, rfl, hrest⟩ := ih htail hmore
        have hchar := spellsChar_of_isPlain hc hb
        rw [hc] at hchar
        exact ⟨b :: (tail ++ rest), rfl, .cons hchar hrest⟩
  | @escaped c bs raw out hc _ ih =>
    cases tail with
    | cons t tail =>
      obtain ⟨first, after, hfirst, hnot, -⟩ := exists_utf8EncodeChar c
      rw [hfirst] at hout
      obtain ⟨rfl, -⟩ := List.cons.inj hout
      exact absurd (htail _ List.mem_cons_self) hnot
    | nil =>
      cases cs with
      | nil =>
        obtain ⟨first, after, hfirst, -⟩ := exists_utf8EncodeChar c
        rw [hfirst] at hout
        cases hout
      | cons d cs =>
        obtain ⟨rfl, hmore⟩ := utf8EncodeChar_append_inj hout
        obtain ⟨rest, hraw, hrest⟩ := ih htail hmore
        rw [hraw]
        exact ⟨bs ++ rest, rfl, .cons (.escaped hc) hrest⟩

theorem IsText.legal (h : IsText raw) : Legal raw := by
  induction h with
  | nil => rfl
  | @plain b raw hb _ ih =>
    obtain ⟨hcontrol, hquote, hslash⟩ := hb
    have hlow : ¬b < 0x20 := by
      rw [UInt8.lt_iff_toNat_lt]
      exact Nat.not_lt.mpr hcontrol
    refine ends_cons.mpr ⟨.none, ?_, ih⟩
    simp [Escape.step?, Escape.next, hquote, hslash, hlow]
  | @short e raw he _ ih =>
    have hu : e ≠ 0x75 := by
      rintro rfl
      cases he
    refine ends_cons.mpr ⟨.begun, rfl, ends_cons.mpr ⟨.none, ?_, ih⟩⟩
    simp [Escape.step?, Escape.next, hu, he]
  | unit i₁ i₂ i₃ i₄ _ ih =>
    refine ends_cons.mpr ⟨.begun, rfl, ends_cons.mpr ⟨.hex 4, rfl, ?_⟩⟩
    refine ends_cons.mpr ⟨.hex 3, by simp [Escape.step?, Escape.next, i₁], ?_⟩
    refine ends_cons.mpr ⟨.hex 2, by simp [Escape.step?, Escape.next, i₂], ?_⟩
    refine ends_cons.mpr ⟨.hex 1, by simp [Escape.step?, Escape.next, i₃], ?_⟩
    exact ends_cons.mpr ⟨.none, by simp [Escape.step?, Escape.next, i₄], ih⟩

/-- **A string means a text just if it is a spelling of the text.** -/
theorem spellsText_iff {s : String} :
    SpellsText s.toList raw ↔ IsText raw ∧ unquote? raw = some s := by
  constructor
  · intro h
    exact ⟨h.isText, h.unquote?⟩
  · rintro ⟨htext, h⟩
    obtain ⟨out, hout, hdecode⟩ := Option.bind_eq_some_iff.mp h
    obtain ⟨bytes, hbytes, hpieces⟩ := exists_pieces htext.legal hout
    have hnone : ∀ t ∈ ([] : Bytes), IsTail t := nofun
    have htail : bytes = [] ++ s.toList.flatMap utf8EncodeChar :=
      hbytes.symm.trans (Utf8.encode_of_decode? hdecode).symm
    obtain ⟨spelling, hraw, hspells⟩ := hpieces.exists_spellsText hnone htail
    exact hraw ▸ hspells

theorem Written.isText (h : Written c bs) (hrest : IsText rest) : IsText (bs ++ rest) := by
  cases h with
  | short _ hletter _ => exact .short hletter hrest
  | control h =>
    exact .unit rfl rfl (Token.isHex_hexByte _ (by omega)) (Token.isHex_hexByte _ (by omega)) hrest
  | plain h => exact isText_plain h hrest

/-- What the writer makes of a text is a spelling of it. -/
theorem spellsText_quote (s : String) : SpellsText s.toList (quote s) := by
  refine spellsText_iff.mpr ⟨?_, unquote?_quote s⟩
  unfold quote
  induction s.toList with
  | nil => exact .nil
  | cons c cs ih => exact (written_quoteChar c).isText ih

end BucketAdmin.Json
