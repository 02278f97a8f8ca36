import Mathlib.Algebra.GroupWithZero.Nat
import BucketAdmin.Proofs.RoundTrip
import BucketAdmin.Proofs.Registry.Operations

/-!
# Sizes of written bodies

How many bytes the writer takes. A body with settings is as long as its nine keys and what their
values take (`length_encodeSettings`), and only the password has no bound of its own
(`length_encodeSettings_le`). Settings as a server stores them take the same number of bytes as
before, or one more where a cache gives up an index of its replicas
(`length_encodeSettings_normal`). A listing is as long as its buckets and what separates them
(`length_encodeBucketList`).
-/

namespace BucketAdmin

namespace Json

open Value (commaSeparated render)

theorem length_commaSeparated (parts : List Bytes) :
    (commaSeparated parts).length = (parts.map List.length).sum + (parts.length - 1) := by
  induction parts with
  | nil => rfl
  | cons part rest ih =>
    cases rest with
    | nil => simp [commaSeparated]
    | cons next rest =>
      simp only [commaSeparated, List.length_append, List.length_cons, ih, List.map_cons,
        List.sum_cons]
      omega

theorem length_ofText (s : String) : (Value.ofText s).render.length = (quote s).length + 2 := by
  simp [Value.ofText, render]

theorem length_ofNat (n : Nat) : (Value.ofNat n).render.length = (numeral n).length := by
  simp only [Value.ofNat, render]

/-- Every member of a map takes its key, its value, and four bytes around them. -/
theorem length_ofMembers {members : List (String × Value)} (h : members ≠ []) :
    (Value.ofMembers members).render.length =
      1 + (members.map fun m => (quote m.1).length + m.2.render.length + 4).sum := by
  have hone : ∀ m : String × Value, (memberText (quote m.1, m.2, m.2.render)).length + 1 =
      (quote m.1).length + m.2.render.length + 4 := by
    intro m
    simp only [memberText, List.length_append, List.length_cons]
    omega
  have hsum : (members.map fun m => (memberText (quote m.1, m.2, m.2.render)).length).sum +
      members.length = (members.map fun m => (quote m.1).length + m.2.render.length + 4).sum := by
    clear h
    induction members with
    | nil => rfl
    | cons m rest ih =>
      have hm := hone m
      simp only [List.map_cons, List.sum_cons, List.length_cons] at ih ⊢
      omega
  have hpos : 0 < members.length := List.length_pos_iff.mpr h
  simp only [Value.ofMembers, render, renderMembers_eq_map, List.map_map, Function.comp_def,
    List.length_append, List.length_cons, List.length_nil, length_commaSeparated, List.length_map]
  omega

/-- A number below a power of ten takes no more digits than the power. -/
theorem length_numeral_le {n k : Nat} (h : n < 10 ^ (k + 1)) : (numeral n).length ≤ k + 1 := by
  induction k generalizing n with
  | zero =>
    rw [Number.numeral_of_lt (by omega)]
    exact Nat.le_refl 1
  | succ k ih =>
    by_cases hn : n < 10
    · rw [Number.numeral_of_lt hn]
      exact Nat.le_add_left 1 _
    · have hdiv : n / 10 < 10 ^ (k + 1) := Nat.div_lt_of_lt_mul (by omega)
      have hle := ih hdiv
      rw [Number.numeral_of_le (by omega), List.length_append, List.length_singleton]
      omega

end Json

namespace Bucket

open Json

theorem quoteChar_of_isNameChar {c : Char} (h : isNameChar c = true) :
    quoteChar c = String.utf8EncodeChar c := by
  have hne : ∀ {d : Char}, isNameChar d = false → c ≠ d := by
    rintro d hd rfl
    rw [h] at hd
    cases hd
  have hcontrol : 0x20 ≤ c.toNat := by
    refine Nat.le_of_not_lt fun hlt => ?_
    have hall : ∀ n < 0x20, isNameChar (Char.ofNat n) = false := by decide
    have hc := hall c.toNat hlt
    rw [Char.ofNat_toNat, h] at hc
    cases hc
  exact quoteChar_of_plain (hne rfl) (hne rfl) hcontrol

theorem flatMap_quoteChar {cs : List Char} (h : ∀ c ∈ cs, isNameChar c = true) :
    cs.flatMap quoteChar = cs.flatMap String.utf8EncodeChar := by
  induction cs with
  | nil => rfl
  | cons c cs ih =>
    rw [List.flatMap_cons, List.flatMap_cons, quoteChar_of_isNameChar (h c List.mem_cons_self),
      ih fun d hd => h d (List.mem_cons_of_mem _ hd)]

/-- No character of a name is escaped. -/
theorem quote_name (n : Name) : quote n.text = n.bytes :=
  flatMap_quoteChar (List.all_eq_true.mp n.valid.chars)

theorem length_quote_kind (k : Kind) : (quote k.text).length ≤ 9 := by
  cases k <;> decide

theorem length_quote_auth (a : Auth) : (quote a.text).length = 4 := by
  cases a <;> decide

end Bucket

namespace Api

open Bucket (Name Settings Document)
open Json (Value quote numeral)

variable {s : Settings}

/-- The bytes of a truth value. -/
def flagSize (b : Bool) : Nat := (Value.bool b).render.length

theorem flagSize_le (b : Bool) : flagSize b ≤ 5 := by
  cases b <;> decide

/-- The keys and what stands between them take 139 bytes, with the four of the way to authenticate;
the others depend on the settings. -/
theorem length_encodeSettings (s : Settings) :
    (encodeSettings s).length = 139 + s.name.bytes.length + (quote s.kind.text).length +
      (numeral s.quotaMb.toNat).length + (numeral s.replicas.toNat).length +
      flagSize s.indexReplicas + (quote s.password).length + (numeral s.port.toNat).length +
      flagSize s.flushEnabled := by
  have hkeys : (quote "name").length + (quote "bucketType").length + (quote "ramQuotaMB").length +
      (quote "replicaNumber").length + (quote "replicaIndex").length + (quote "authType").length +
      (quote "saslPassword").length + (quote "proxyPort").length +
      (quote "flushEnabled").length = 90 := by
    decide
  rw [encodeSettings, Document.json, Json.length_ofMembers (by simp)]
  simp only [Document.ofSettings, List.map_cons, List.map_nil, List.sum_cons, List.sum_nil,
    Json.length_ofText, Json.length_ofNat, Bucket.quote_name, Bucket.length_quote_auth, flagSize]
  omega

/-- The most bytes that settings within bounds take beside their password. -/
def maxBesidePassword : Nat := 284

theorem length_encodeSettings_le (hs : s.Valid) :
    (encodeSettings s).length ≤ maxBesidePassword + (quote s.password).length := by
  have hname : s.name.bytes.length ≤ 100 := s.name.valid.length_le
  have hkind := Bucket.length_quote_kind s.kind
  have hquota : (numeral s.quotaMb.toNat).length ≤ 20 :=
    Json.length_numeral_le (Nat.lt_trans s.quotaMb.toNat_lt_size (by decide))
  have hreplicas : (numeral s.replicas.toNat).length ≤ 1 := by
    have hle : s.replicas.toNat ≤ 3 := UInt8.le_iff_toNat_le.mp hs.replicas
    exact Json.length_numeral_le (by omega)
  have hport : (numeral s.port.toNat).length ≤ 5 :=
    Json.length_numeral_le (Nat.lt_trans s.port.toNat_lt_size (by decide))
  have hindex := flagSize_le s.indexReplicas
  have hflush := flagSize_le s.flushEnabled
  rw [length_encodeSettings, maxBesidePassword]
  omega

/-- What a server stores takes the bytes of what it was sent, and one more where a cache asks for an
index of its replicas. -/
theorem length_encodeSettings_normal (hs : s.Valid) :
    (encodeSettings s.normal).length =
      (encodeSettings s).length + if s.kind = .memcached ∧ s.indexReplicas then 1 else 0 := by
  have hreplicas : ∀ {r : UInt8}, r ≤ Bucket.maxReplicas → (numeral r.toNat).length = 1 := by
    intro r hr
    have hle : r.toNat ≤ 3 := UInt8.le_iff_toNat_le.mp hr
    rw [Json.Number.numeral_of_lt (by omega), List.length_singleton]
  by_cases hkind : s.kind = .memcached
  · have hnormal : s.normal = { s with replicas := 0, indexReplicas := false } := by
      simp only [Settings.normal, hkind]
    have htrue : flagSize true = 4 := rfl
    have hfalse : flagSize false = 5 := rfl
    have hzero : (numeral (0 : UInt8).toNat).length = 1 := rfl
    rw [hnormal, length_encodeSettings, length_encodeSettings]
    dsimp only
    rw [hreplicas hs.replicas, hzero]
    cases s.indexReplicas with
    | true =>
      rw [if_pos ⟨hkind, rfl⟩]
      omega
    | false =>
      rw [if_neg fun h => Bool.false_ne_true h.2]
      omega
  · have hnormal : s.normal = s := by
      unfold Settings.normal
      split
      · next h => exact absurd h hkind
      · rfl
      · rfl
    rw [hnormal, if_neg fun h => hkind h.1, Nat.add_zero]

/-- A listing takes the bytes of its buckets, commas between them and brackets around them. -/
theorem length_encodeBucketList (buckets : List Settings) :
    (encodeBucketList buckets).length =
      2 + (buckets.map fun s => (encodeSettings s).length).sum + (buckets.length - 1) := by
  simp only [encodeBucketList, Value.ofList, Value.render, Json.renderItems_eq_map, List.map_map,
    List.length_append, List.length_cons, List.length_nil, Json.length_commaSeparated,
    List.length_map]
  simp only [Function.comp_def, encodeSettings]
  omega

/-! ## Bodies of a given size -/

/-- A password of so many letters. -/
def padding (k : Nat) : String := String.ofList (List.replicate k 'x')

theorem length_quote_padding (k : Nat) : (quote (padding k)).length = k := by
  rw [padding, quote, String.toList_ofList]
  induction k with
  | zero => rfl
  | succ k ih =>
    rw [List.replicate_succ, List.flatMap_cons, List.length_append, ih, Nat.add_comm]
    rfl

/-- A cache with an index of its replicas, and a password of so many letters. -/
def padded (n : Name) (k : Nat) : Settings where
  name := n
  kind := .memcached
  quotaMb := 100
  port := 0
  password := padding k
  replicas := 0
  indexReplicas := true
  flushEnabled := false

theorem valid_padded (n : Name) (k : Nat) : (padded n k).Valid :=
  ⟨UInt64.le_refl 100, UInt8.zero_le⟩

theorem length_encodeSettings_padded (n : Name) (k : Nat) :
    (encodeSettings (padded n k)).length = 162 + n.bytes.length + k := by
  have hkind : (quote (padded n k).kind.text).length = 9 :=
    (by decide : (quote Bucket.Kind.memcached.text).length = 9)
  have hquota : (numeral (padded n k).quotaMb.toNat).length = 3 :=
    (by decide : (numeral (100 : UInt64).toNat).length = 3)
  have hreplicas : (numeral (padded n k).replicas.toNat).length = 1 :=
    (by decide : (numeral (0 : UInt8).toNat).length = 1)
  have hport : (numeral (padded n k).port.toNat).length = 1 :=
    (by decide : (numeral (0 : UInt16).toNat).length = 1)
  have hindex : flagSize (padded n k).indexReplicas = 4 := (by decide : flagSize true = 4)
  have hflush : flagSize (padded n k).flushEnabled = 5 := (by decide : flagSize false = 5)
  have hpassword : (quote (padded n k).password).length = k := length_quote_padding k
  have hname : (padded n k).name = n := rfl
  rw [length_encodeSettings, hkind, hquota, hreplicas, hport, hindex, hflush, hpassword, hname]
  omega

/-- It takes one byte more as it is stored. -/
theorem length_encodeSettings_padded_normal (n : Name) (k : Nat) :
    (encodeSettings (padded n k).normal).length = 163 + n.bytes.length + k := by
  rw [length_encodeSettings_normal (valid_padded n k), if_pos ⟨rfl, rfl⟩,
    length_encodeSettings_padded]
  omega

end Api

end BucketAdmin
