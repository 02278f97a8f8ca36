import BucketAdmin.Text.Utf8

/-!
# Encoded text reads back

The reader of UTF-8 is a fold over bytes. From between two characters, the bytes of one character
take it to between two characters again, with that character added (`foldl_push_encodeChar`).
So the strict reading undoes the writing (`decode?_encode`), whatever the text. Conversely, as long
as all is read as characters, the bytes read are those of the characters and of one begun
(`Retraces`), so the writing undoes the strict reading (`encode_of_decode?`).
-/

namespace BucketAdmin.Utf8

namespace Reading

variable {done : List (Option Char)} {n : Nat}

/-- The first byte of a character, by its value. -/
theorem lead_ofNat (h : n < 256) :
    lead done (UInt8.ofNat n) =
      if n ≤ 0x7F then ⟨some (Char.ofNat n) :: done, .between⟩
      else if n < 0xC2 then ⟨none :: done, .between⟩
      else if n ≤ 0xDF then ⟨done, .within 1 0x80 0xBF (n - 0xC0)⟩
      else if n = 0xE0 then ⟨done, .within 2 0xA0 0xBF 0⟩
      else if n = 0xED then ⟨done, .within 2 0x80 0x9F 0xD⟩
      else if n ≤ 0xEF then ⟨done, .within 2 0x80 0xBF (n - 0xE0)⟩
      else if n = 0xF0 then ⟨done, .within 3 0x90 0xBF 0⟩
      else if n ≤ 0xF3 then ⟨done, .within 3 0x80 0xBF (n - 0xF0)⟩
      else if n = 0xF4 then ⟨done, .within 3 0x80 0x8F 4⟩
      else ⟨none :: done, .between⟩ := by
  have hn : (UInt8.ofNat n).toNat = n := UInt8.toNat_ofNat_of_lt' h
  simp [lead, UInt8.le_iff_toNat_le, UInt8.lt_iff_toNat_lt, ← UInt8.toNat_inj, hn]

/-- A byte that continues a character adds its six bits. -/
theorem push_ofNat {owed value : Nat} {low high : UInt8} (h : n < 64)
    (hlow : low.toNat ≤ n + 0x80) (hhigh : n + 0x80 ≤ high.toNat) :
    push ⟨done, .within owed low high value⟩ (UInt8.ofNat (n + 0x80)) =
      if owed ≤ 1 then ⟨some (Char.ofNat (value * 64 + n)) :: done, .between⟩
      else ⟨done, .within (owed - 1) 0x80 0xBF (value * 64 + n)⟩ := by
  have hn : (UInt8.ofNat (n + 0x80)).toNat = n + 0x80 := UInt8.toNat_ofNat_of_lt' (by
    simp only [UInt8.size]
    omega)
  have hin : low ≤ UInt8.ofNat (n + 0x80) ∧ UInt8.ofNat (n + 0x80) ≤ high := by
    simp only [UInt8.le_iff_toNat_le, hn]
    exact ⟨hlow, hhigh⟩
  simp only [push, if_pos hin, hn, Nat.add_sub_cancel]

/-- A byte that continues a character that owes more bytes than one. -/
theorem push_more {owed value : Nat} {low high : UInt8} (h : n < 64)
    (hlow : low.toNat ≤ n + 0x80) (hhigh : n + 0x80 ≤ high.toNat) :
    push ⟨done, .within (owed + 2) low high value⟩ (UInt8.ofNat (n + 0x80)) =
      ⟨done, .within (owed + 1) 0x80 0xBF (value * 64 + n)⟩ := by
  rw [push_ofNat h hlow hhigh, if_neg (by omega)]
  rfl

/-- The last byte of a character. -/
theorem push_last {value : Nat} (h : n < 64) :
    push ⟨done, .within 1 0x80 0xBF value⟩ (UInt8.ofNat (n + 0x80)) =
      ⟨some (Char.ofNat (value * 64 + n)) :: done, .between⟩ := by
  have hlow : (0x80 : UInt8).toNat ≤ n + 0x80 := Nat.le_add_left ..
  have hhigh : n + 0x80 ≤ (0xBF : UInt8).toNat := by
    change n + 0x80 ≤ 0xBF
    omega
  rw [push_ofNat h hlow hhigh, if_pos (Nat.le_refl 1)]

/-- The bytes of a character of two bytes, from its eleven bits. -/
theorem foldl_push_two {a b : Nat} (ha : a < 32) (hb : b < 64) (hlong : 2 ≤ a) :
    [UInt8.ofNat (a + 0xC0), UInt8.ofNat (b + 0x80)].foldl push ⟨done, .between⟩ =
      ⟨some (Char.ofNat (a * 64 + b)) :: done, .between⟩ := by
  have hlead : lead done (UInt8.ofNat (a + 0xC0)) = ⟨done, .within 1 0x80 0xBF a⟩ := by
    rw [lead_ofNat (by omega), if_neg (by omega), if_neg (by omega), if_pos (by omega),
      Nat.add_sub_cancel]
  simp only [List.foldl_cons, List.foldl_nil]
  rw [show push ⟨done, .between⟩ _ = _ from hlead, push_last hb]

/-- The bytes of a character of three bytes, from its sixteen bits. The second byte is bounded
more closely where the text would be overlong or a surrogate. -/
theorem foldl_push_three {a b c : Nat} (ha : a < 16) (hb : b < 64) (hc : c < 64)
    (hlong : 0x800 ≤ (a * 64 + b) * 64 + c)
    (hvalid : (a * 64 + b) * 64 + c < 0xD800 ∨ 0xDFFF < (a * 64 + b) * 64 + c) :
    [UInt8.ofNat (a + 0xE0), UInt8.ofNat (b + 0x80), UInt8.ofNat (c + 0x80)].foldl push
        ⟨done, .between⟩ =
      ⟨some (Char.ofNat ((a * 64 + b) * 64 + c)) :: done, .between⟩ := by
  have hlead : ∃ low high : UInt8,
      lead done (UInt8.ofNat (a + 0xE0)) = ⟨done, .within 2 low high a⟩ ∧
        low.toNat ≤ b + 0x80 ∧ b + 0x80 ≤ high.toNat := by
    rw [lead_ofNat (by omega), if_neg (by omega), if_neg (by omega), if_neg (by omega)]
    by_cases h0 : a = 0
    · refine ⟨0xA0, 0xBF, ?_, ?_, ?_⟩
      · rw [if_pos (by omega), h0]
      · change 0xA0 ≤ b + 0x80
        omega
      · change b + 0x80 ≤ 0xBF
        omega
    · by_cases hD : a = 0xD
      · refine ⟨0x80, 0x9F, ?_, Nat.le_add_left .., ?_⟩
        · rw [if_neg (by omega), if_pos (by omega), hD]
        · change b + 0x80 ≤ 0x9F
          omega
      · refine ⟨0x80, 0xBF, ?_, Nat.le_add_left .., ?_⟩
        · rw [if_neg (by omega), if_neg (by omega), if_pos (by omega), Nat.add_sub_cancel]
        · change b + 0x80 ≤ 0xBF
          omega
  obtain ⟨low, high, hlead, hlow, hhigh⟩ := hlead
  simp only [List.foldl_cons, List.foldl_nil]
  rw [show push ⟨done, .between⟩ _ = _ from hlead, push_more hb hlow hhigh, push_last hc]

/-- The bytes of a character of four bytes, from its twenty-one bits. -/
theorem foldl_push_four {a b c d : Nat} (ha : a < 8) (hb : b < 64) (hc : c < 64) (hd : d < 64)
    (hlong : 0x10000 ≤ ((a * 64 + b) * 64 + c) * 64 + d)
    (hvalid : ((a * 64 + b) * 64 + c) * 64 + d < 0x110000) :
    [UInt8.ofNat (a + 0xF0), UInt8.ofNat (b + 0x80), UInt8.ofNat (c + 0x80),
        UInt8.ofNat (d + 0x80)].foldl push ⟨done, .between⟩ =
      ⟨some (Char.ofNat (((a * 64 + b) * 64 + c) * 64 + d)) :: done, .between⟩ := by
  have hlead : ∃ low high : UInt8,
      lead done (UInt8.ofNat (a + 0xF0)) = ⟨done, .within 3 low high a⟩ ∧
        low.toNat ≤ b + 0x80 ∧ b + 0x80 ≤ high.toNat := by
    rw [lead_ofNat (by omega), if_neg (by omega), if_neg (by omega), if_neg (by omega),
      if_neg (by omega), if_neg (by omega), if_neg (by omega)]
    by_cases h0 : a = 0
    · refine ⟨0x90, 0xBF, ?_, ?_, ?_⟩
      · rw [if_pos (by omega), h0]
      · change 0x90 ≤ b + 0x80
        omega
      · change b + 0x80 ≤ 0xBF
        omega
    · by_cases h4 : a = 4
      · refine ⟨0x80, 0x8F, ?_, Nat.le_add_left .., ?_⟩
        · rw [if_neg (by omega), if_neg (by omega), if_pos (by omega), h4]
        · change b + 0x80 ≤ 0x8F
          omega
      · refine ⟨0x80, 0xBF, ?_, Nat.le_add_left .., ?_⟩
        · rw [if_neg (by omega), if_pos (by omega), Nat.add_sub_cancel]
        · change b + 0x80 ≤ 0xBF
          omega
  obtain ⟨low, high, hlead, hlow, hhigh⟩ := hlead
  simp only [List.foldl_cons, List.foldl_nil]
  rw [show push ⟨done, .between⟩ _ = _ from hlead, push_more hb hlow hhigh,
    push_more hc (Nat.le_add_left ..) (by show c + 0x80 ≤ 0xBF; omega), push_last hd]

end Reading

open Reading

/-- The bytes of one character are read as that character. -/
theorem foldl_push_encodeChar (c : Char) (done : List (Option Char)) :
    (String.utf8EncodeChar c).foldl push ⟨done, .between⟩ = ⟨some c :: done, .between⟩ := by
  have hc : Char.ofNat c.val.toNat = c := Char.ofNat_toNat c
  have hvalid : c.val.toNat < 0xD800 ∨ 0xDFFF < c.val.toNat ∧ c.val.toNat < 0x110000 := c.valid
  unfold String.utf8EncodeChar
  generalize c.val.toNat = v at hc hvalid
  dsimp only
  -- one case for each length; in each the value is put together from its six-bit groups
  split
  · next h =>
    change lead done (UInt8.ofNat v) = _
    rw [lead_ofNat (by omega), if_pos h, hc]
  · split
    · have hv : v / 64 % 32 * 64 + v % 64 = v := by omega
      rw [foldl_push_two (by omega) (by omega) (by omega), hv, hc]
    · split
      · have hv : (v / 4096 % 16 * 64 + v / 64 % 64) * 64 + v % 64 = v := by omega
        rw [foldl_push_three (by omega) (by omega) (by omega) (by omega) (by omega), hv, hc]
      · have hv : ((v / 262144 % 8 * 64 + v / 4096 % 64) * 64 + v / 64 % 64) * 64 + v % 64 = v := by
          omega
        rw [foldl_push_four (by omega) (by omega) (by omega) (by omega) (by omega) (by omega), hv,
          hc]

/-- The bytes of several characters are read as those characters. -/
theorem foldl_push_encode (cs : List Char) (done : List (Option Char)) :
    (cs.flatMap String.utf8EncodeChar).foldl push ⟨done, .between⟩ =
      ⟨(cs.map some).reverse ++ done, .between⟩ := by
  induction cs generalizing done with
  | nil => rfl
  | cons c cs ih =>
    rw [List.flatMap_cons, List.foldl_append, foldl_push_encodeChar, ih]
    simp

theorem segments_encode (s : String) : segments (encode s) = s.toList.map some := by
  have h := foldl_push_encode s.toList []
  simp only [segments, encode, Reading.start, h, Reading.finish, List.append_nil,
    List.reverse_reverse]

/-- **The strict reading undoes the writing.** -/
theorem decode?_encode (s : String) : decode? (encode s) = some s := by
  have hall : (s.toList.map some).all Option.isSome = true := by simp
  have hback : (s.toList.map some).filterMap id = s.toList := by simp [List.filterMap_map]
  simp only [decode?, segments_encode, if_pos hall, hback, String.ofList_toList]

/-! ## The writing undoes the strict reading -/

theorem val_ofNat {n : Nat} (h : n.isValidChar) : (Char.ofNat n).val.toNat = n := by
  rw [Char.ofNat, dif_pos h]
  rfl

/-- The character of two bytes, from its eleven bits. -/
theorem utf8EncodeChar_two {a b : Nat} (ha : a < 32) (hb : b < 64) (hlong : 2 ≤ a) :
    String.utf8EncodeChar (Char.ofNat (a * 64 + b)) =
      [UInt8.ofNat (a + 0xC0), UInt8.ofNat (b + 0x80)] := by
  have hv := val_ofNat (n := a * 64 + b) (.inl (by omega))
  have ha : (a * 64 + b) / 64 % 32 = a := by omega
  have hb : (a * 64 + b) % 64 = b := by omega
  simp only [String.utf8EncodeChar, hv]
  rw [if_neg (by omega), if_pos (by omega), ha, hb]

/-- The character of three bytes, from its sixteen bits. -/
theorem utf8EncodeChar_three {a b c : Nat} (ha : a < 16) (hb : b < 64) (hc : c < 64)
    (hlong : 0x800 ≤ (a * 64 + b) * 64 + c)
    (hvalid : (a * 64 + b) * 64 + c < 0xD800 ∨ 0xDFFF < (a * 64 + b) * 64 + c) :
    String.utf8EncodeChar (Char.ofNat ((a * 64 + b) * 64 + c)) =
      [UInt8.ofNat (a + 0xE0), UInt8.ofNat (b + 0x80), UInt8.ofNat (c + 0x80)] := by
  have hv := val_ofNat (n := (a * 64 + b) * 64 + c) (hvalid.imp id fun h => ⟨h, by omega⟩)
  have ha : ((a * 64 + b) * 64 + c) / 4096 % 16 = a := by omega
  have hb : ((a * 64 + b) * 64 + c) / 64 % 64 = b := by omega
  have hc : ((a * 64 + b) * 64 + c) % 64 = c := by omega
  simp only [String.utf8EncodeChar, hv]
  rw [if_neg (by omega), if_neg (by omega), if_pos (by omega), ha, hb, hc]

/-- The character of four bytes, from its twenty-one bits. -/
theorem utf8EncodeChar_four {a b c d : Nat} (hb : b < 64) (hc : c < 64) (hd : d < 64)
    (hlong : 0x10000 ≤ ((a * 64 + b) * 64 + c) * 64 + d)
    (hvalid : ((a * 64 + b) * 64 + c) * 64 + d < 0x110000) :
    String.utf8EncodeChar (Char.ofNat (((a * 64 + b) * 64 + c) * 64 + d)) =
      [UInt8.ofNat (a + 0xF0), UInt8.ofNat (b + 0x80), UInt8.ofNat (c + 0x80),
        UInt8.ofNat (d + 0x80)] := by
  have hv := val_ofNat (n := ((a * 64 + b) * 64 + c) * 64 + d) (.inr ⟨by omega, hvalid⟩)
  have ha : (((a * 64 + b) * 64 + c) * 64 + d) / 262144 % 8 = a := by omega
  have hb : (((a * 64 + b) * 64 + c) * 64 + d) / 4096 % 64 = b := by omega
  have hc : (((a * 64 + b) * 64 + c) * 64 + d) / 64 % 64 = c := by omega
  have hd : (((a * 64 + b) * 64 + c) * 64 + d) % 64 = d := by omega
  simp only [String.utf8EncodeChar, hv]
  rw [if_neg (by omega), if_neg (by omega), if_neg (by omega), ha, hb, hc, hd]

/-- However the bytes still owed come out, they make a character that is written as the bytes
begun and those. -/
def Completes : (owed : Nat) → (begun : Bytes) → (low high : UInt8) → (value : Nat) → Prop
  | 0, _, _, _, _ => False
  | 1, begun, low, high, value => ∀ b, low ≤ b → b ≤ high →
    String.utf8EncodeChar (Char.ofNat (value * 64 + (b.toNat - 0x80))) = begun ++ [b]
  | owed + 2, begun, low, high, value => ∀ b, low ≤ b → b ≤ high →
    Completes (owed + 1) (begun ++ [b]) 0x80 0xBF (value * 64 + (b.toNat - 0x80))

theorem ofNat_sub_add {b : UInt8} {n : Nat} (h : n ≤ b.toNat) :
    UInt8.ofNat (b.toNat - n + n) = b := by
  rw [Nat.sub_add_cancel h, UInt8.ofNat_toNat]

theorem toNat_sub_lt {b : UInt8} (h : b ≤ 0xBF) : b.toNat - 0x80 < 64 := by
  have h : b.toNat ≤ 0xBF := UInt8.le_iff_toNat_le.mp h
  omega

theorem completes_two {a : UInt8} (hlow : 0xC2 ≤ a.toNat) (hhigh : a.toNat ≤ 0xDF) :
    Completes 1 [a] 0x80 0xBF (a.toNat - 0xC0) := by
  intro b hb hb'
  have hb : 0x80 ≤ b.toNat := UInt8.le_iff_toNat_le.mp hb
  rw [utf8EncodeChar_two (by omega) (toNat_sub_lt hb') (by omega), ofNat_sub_add (by omega),
    ofNat_sub_add hb]
  rfl

/-- The bounds on the second byte of three keep the text from being overlong or a surrogate. -/
theorem completes_three {a low high : UInt8} {value : Nat} (ha : a.toNat = value + 0xE0)
    (hsize : value < 16) (hlow : 0x80 ≤ low.toNat) (hhigh : high.toNat ≤ 0xBF)
    (hlong : value = 0 → 0xA0 ≤ low.toNat) (hvalid : value = 0xD → high.toNat ≤ 0x9F) :
    Completes 2 [a] low high value := by
  intro b hb hb' c hc hc'
  have hb := UInt8.le_iff_toNat_le.mp hb
  have hb' := UInt8.le_iff_toNat_le.mp hb'
  have hc : 0x80 ≤ c.toNat := UInt8.le_iff_toNat_le.mp hc
  have hcsize := toNat_sub_lt hc'
  rw [utf8EncodeChar_three hsize (by omega) hcsize (by omega) (by omega), ← ha,
    UInt8.ofNat_toNat, ofNat_sub_add (by omega), ofNat_sub_add hc]
  rfl

/-- The bounds on the second byte of four keep the text from being overlong or past Unicode. -/
theorem completes_four {a low high : UInt8} {value : Nat} (ha : a.toNat = value + 0xF0)
    (hsize : value < 5) (hlow : 0x80 ≤ low.toNat) (hhigh : high.toNat ≤ 0xBF)
    (hlong : value = 0 → 0x90 ≤ low.toNat) (hvalid : value = 4 → high.toNat ≤ 0x8F) :
    Completes 3 [a] low high value := by
  intro b hb hb' c hc hc' d hd hd'
  have hb := UInt8.le_iff_toNat_le.mp hb
  have hb' := UInt8.le_iff_toNat_le.mp hb'
  have hc : 0x80 ≤ c.toNat := UInt8.le_iff_toNat_le.mp hc
  have hd : 0x80 ≤ d.toNat := UInt8.le_iff_toNat_le.mp hd
  have hcsize := toNat_sub_lt hc'
  have hdsize := toNat_sub_lt hd'
  rw [utf8EncodeChar_four (by omega) hcsize hdsize (by omega) (by omega), ← ha,
    UInt8.ofNat_toNat, ofNat_sub_add (by omega), ofNat_sub_add hc, ofNat_sub_add hd]
  rfl

/-- While all is read as characters, the bytes read are those of the characters, latest first, and
of one that is begun. -/
def Retraces (r : Reading) (bs : Bytes) : Prop :=
  ∀ cs : List Char, r.segments = cs.map some →
    match r.state with
    | .between => bs = cs.reverse.flatMap String.utf8EncodeChar
    | .within owed low high value => ∃ begun,
      bs = cs.reverse.flatMap String.utf8EncodeChar ++ begun ∧ Completes owed begun low high value

theorem retraces_ill {done : List (Option Char)} {state : State} {bs : Bytes} :
    Retraces ⟨none :: done, state⟩ bs := by
  intro cs hcs
  cases cs <;> cases hcs

/-- A character comes to its end. -/
theorem retraces_ended {done : List (Option Char)} {c : Char} {bs : Bytes}
    (h : ∀ cs : List Char, done = cs.map some →
      bs = cs.reverse.flatMap String.utf8EncodeChar ++ String.utf8EncodeChar c) :
    Retraces ⟨some c :: done, .between⟩ bs := by
  intro cs hcs
  cases cs with
  | nil => cases hcs
  | cons d cs =>
    have hparts : some c = some d ∧ done = cs.map some := List.cons.inj hcs
    obtain ⟨hd, hdone⟩ := hparts
    obtain rfl := Option.some.inj hd
    change bs = _
    rw [List.reverse_cons, List.flatMap_append, List.flatMap_singleton]
    exact h cs hdone

theorem retraces_lead {done : List (Option Char)} {bs : Bytes}
    (h : Retraces ⟨done, .between⟩ bs) (b : UInt8) : Retraces (lead done b) (bs ++ [b]) := by
  have hbegin : ∀ {owed low high value}, Completes owed [b] low high value →
      Retraces ⟨done, .within owed low high value⟩ (bs ++ [b]) := by
    intro owed low high value hcompletes cs hcs
    exact ⟨[b], congrArg (· ++ [b]) (h cs hcs), hcompletes⟩
  -- the bounds that the tests before have not ruled out
  have hge : ∀ {n : UInt8}, ¬b < n → n.toNat ≤ b.toNat := fun h =>
    UInt8.le_iff_toNat_le.mp (UInt8.not_lt.mp h)
  have hgt : ∀ {n : UInt8}, ¬b ≤ n → n.toNat < b.toNat := fun h =>
    UInt8.lt_iff_toNat_lt.mp (UInt8.not_le.mp h)
  have hle : ∀ {n : UInt8}, b ≤ n → b.toNat ≤ n.toNat := UInt8.le_iff_toNat_le.mp
  unfold lead
  split
  · next hascii =>
    refine retraces_ended fun cs hcs => ?_
    have hle : b.toNat ≤ 0x7F := hle hascii
    have hval := val_ofNat (n := b.toNat) (.inl (by omega))
    have hchar : String.utf8EncodeChar (Char.ofNat b.toNat) = [b] := by
      simp only [String.utf8EncodeChar, hval, if_pos hle, UInt8.ofNat_toNat]
    rw [hchar]
    exact congrArg (· ++ [b]) (h cs hcs)
  split
  · exact retraces_ill
  · next hlow =>
    have hlow : 0xC2 ≤ b.toNat := hge hlow
    split
    · next hhigh => exact hbegin (completes_two hlow (hle hhigh))
    · next hthree =>
      have hthree : 0xDF < b.toNat := hgt hthree
      split
      · next heq =>
        subst heq
        exact hbegin (completes_three rfl (by decide) (by decide) (by decide) (by decide) nofun)
      split
      · next heq =>
        subst heq
        exact hbegin (completes_three rfl (by decide) (by decide) (by decide) nofun (by decide))
      split
      · next hne0 hneD hhigh =>
        have hhigh : b.toNat ≤ 0xEF := hle hhigh
        have hne0 : b.toNat ≠ 0xE0 := fun he => hne0 (UInt8.toNat_inj.mp he)
        have hneD : b.toNat ≠ 0xED := fun he => hneD (UInt8.toNat_inj.mp he)
        exact hbegin (completes_three (by omega) (by omega) (by decide) (by decide) (by omega)
          (by omega))
      · next hfour =>
        have hfour : 0xEF < b.toNat := hgt hfour
        split
        · next heq =>
          subst heq
          exact hbegin (completes_four rfl (by decide) (by decide) (by decide) (by decide) nofun)
        split
        · next hne0 hhigh =>
          have hhigh : b.toNat ≤ 0xF3 := hle hhigh
          have hne0 : b.toNat ≠ 0xF0 := fun he => hne0 (UInt8.toNat_inj.mp he)
          exact hbegin (completes_four (by omega) (by omega) (by decide) (by decide) (by omega)
            (by omega))
        split
        · next heq =>
          subst heq
          exact hbegin (completes_four rfl (by decide) (by decide) (by decide) nofun (by decide))
        · exact retraces_ill

theorem retraces_push {r : Reading} {bs : Bytes} (h : Retraces r bs) (b : UInt8) :
    Retraces (r.push b) (bs ++ [b]) := by
  obtain ⟨done, state⟩ := r
  cases state with
  | between => exact retraces_lead h b
  | within owed low high value =>
    unfold push
    dsimp only
    split
    · next hin =>
      split
      · next howed =>
        refine retraces_ended fun cs hcs => ?_
        obtain ⟨begun, hbs, hcompletes⟩ := h cs hcs
        match owed, hcompletes with
        | 1, hcompletes => rw [hcompletes b hin.1 hin.2, hbs, List.append_assoc]
      · next howed =>
        intro cs hcs
        obtain ⟨begun, hbs, hcompletes⟩ := h cs hcs
        match owed, hcompletes with
        | owed + 2, hcompletes =>
          exact ⟨begun ++ [b], by rw [hbs, List.append_assoc], hcompletes b hin.1 hin.2⟩
    · exact retraces_lead retraces_ill b

theorem retraces_foldl {r : Reading} {bs : Bytes} (h : Retraces r bs) (more : Bytes) :
    Retraces (more.foldl push r) (bs ++ more) := by
  induction more generalizing r bs with
  | nil => rwa [List.append_nil]
  | cons b more ih =>
    rw [List.foldl_cons, List.append_cons]
    exact ih (retraces_push h b)

theorem eq_map_some {parts : List (Option Char)} (h : parts.all Option.isSome = true) :
    parts = (parts.filterMap id).map some := by
  induction parts with
  | nil => rfl
  | cons part rest ih =>
    rw [List.all_cons, Bool.and_eq_true] at h
    obtain ⟨hpart, hrest⟩ := h
    obtain ⟨c, rfl⟩ := Option.isSome_iff_exists.mp hpart
    change some c :: rest = some c :: (rest.filterMap id).map some
    rw [← ih hrest]

/-- **The writing undoes the strict reading.** -/
theorem encode_of_decode? {bs : Bytes} {s : String} (h : decode? bs = some s) : encode s = bs := by
  have hstart : Retraces .start [] := by
    intro cs hcs
    obtain rfl : cs = [] := List.map_eq_nil_iff.mp hcs.symm
    rfl
  have hread : Retraces (bs.foldl push Reading.start) bs := retraces_foldl hstart bs
  unfold decode? segments at h
  dsimp only at h
  split at h
  · next hall =>
    obtain rfl := Option.some.inj h
    generalize bs.foldl push Reading.start = r at hread hall
    obtain ⟨done, state⟩ := r
    cases state with
    | between =>
      change done.reverse.all Option.isSome = true at hall
      change encode (String.ofList (done.reverse.filterMap id)) = bs
      have hparts := eq_map_some hall
      generalize done.reverse.filterMap id = cs at hparts
      have hdone : done = cs.reverse.map some := by
        rw [List.map_reverse, ← hparts, List.reverse_reverse]
      have hbs : bs = cs.reverse.reverse.flatMap String.utf8EncodeChar := hread cs.reverse hdone
      rw [encode, String.toList_ofList, hbs, List.reverse_reverse]
    | within owed low high value =>
      -- a character that is cut off is not read
      change (none :: done).reverse.all Option.isSome = true at hall
      have hnone := List.all_eq_true.mp hall none (List.mem_reverse.mpr List.mem_cons_self)
      cases hnone
  · cases h

end BucketAdmin.Utf8
