import BucketAdmin.Bucket.Kind
import BucketAdmin.Bucket.Name

/-!
# Bucket settings

Settings are plain values. `validate` lets through those whose quota and number of replicas are
within bounds; `normalize` applies what the server decides for the settings it stores.
-/

namespace BucketAdmin.Bucket

/-- The least RAM quota of a bucket, in megabytes. -/
def minQuotaMb : UInt64 := 100

/-- The most replicas of a bucket. -/
def maxReplicas : UInt8 := 3

/-- The configuration of one bucket. -/
structure Settings where
  name : Name
  kind : Kind
  quotaMb : UInt64
  port : UInt16
  password : String
  replicas : UInt8
  indexReplicas : Bool
  flushEnabled : Bool
  deriving DecidableEq

/-- Why settings are refused, by themselves or next to what is stored. -/
inductive SettingsFault where
  | quotaTooSmall (quotaMb : UInt64)
  | tooManyReplicas (replicas : UInt8)
  | kindChange (name : Name) (old new : Kind)
  /-- The quota is more than what is left of the capacity. -/
  | overCapacity (quotaMb : UInt64) (leftMb : Nat)
  /-- The quotas stored add up to more than 64 bits. -/
  | totalTooLarge
  /-- An amount that does not fit 64 bits as bytes. -/
  | bytesTooLarge (mb : UInt64)
  deriving DecidableEq

/-- The words for a fault of settings. -/
def SettingsFault.message (f : SettingsFault) : String :=
  "Invalid bucket settings: " ++
    match f with
    | .quotaTooSmall q => s!"quota of {q} MB is below the minimum of {minQuotaMb} MB"
    | .tooManyReplicas r => s!"{r} replicas requested, at most {maxReplicas} supported"
    | .kindChange n old new =>
      s!"bucket type of {n.text} cannot change from {old.text} to {new.text}"
    | .overCapacity q left => s!"quota of {q} MB exceeds the {left} MB left in the cluster"
    | .totalTooLarge => "total bucket quota overflows"
    | .bytesTooLarge mb => s!"{mb} MB does not fit in a byte count"

namespace Settings

/-- The settings of a bucket for which nothing but the name is asked. -/
def blank (name : Name) : Settings where
  name := name
  kind := .default
  quotaMb := minQuotaMb
  port := 0
  password := ""
  replicas := 0
  indexReplicas := false
  flushEnabled := false

/-- The bounds that settings have to keep. -/
structure Valid (s : Settings) : Prop where
  quota : minQuotaMb ≤ s.quotaMb
  replicas : s.replicas ≤ maxReplicas

/-- The settings, if they keep the bounds. -/
def validate (s : Settings) : Except SettingsFault Settings :=
  if s.quotaMb < minQuotaMb then .error (.quotaTooSmall s.quotaMb)
  else if maxReplicas < s.replicas then .error (.tooManyReplicas s.replicas)
  else .ok s

/-- SASL exactly when a password is set. -/
def auth (s : Settings) : Auth :=
  if s.password = "" then .none else .sasl

/-- What the server stores for settings: a cache has no replicas. -/
def normalize (s : Settings) : Except SettingsFault Settings :=
  match s.kind with
  | .memcached => { s with replicas := 0, indexReplicas := false }.validate
  | .couchbase | .ephemeral => .ok s

theorem validate_eq_ok_iff {s t : Settings} : s.validate = .ok t ↔ s.Valid ∧ t = s := by
  unfold validate
  split
  · next h => exact ⟨nofun, fun ⟨v, _⟩ => absurd v.quota (UInt64.not_le.mpr h)⟩
  · next hq =>
    split
    · next h => exact ⟨nofun, fun ⟨v, _⟩ => absurd v.replicas (UInt8.not_le.mpr h)⟩
    · next hr =>
      constructor
      · intro h
        cases h
        exact ⟨⟨UInt64.not_lt.mp hq, UInt8.not_lt.mp hr⟩, rfl⟩
      · rintro ⟨_, rfl⟩
        rfl

end Settings

end BucketAdmin.Bucket
