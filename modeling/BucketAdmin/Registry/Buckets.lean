import BucketAdmin.Refusal
import BucketAdmin.Bucket.Stored
import BucketAdmin.Registry.Store

/-!
# The bucket registry

Buckets are records of a store under the key `bucket:` and their name. A registry may have a
capacity, which bounds the sum of all quotas. An operation that is refused gives no new store.

The store is taken not to fail, so no operation is refused for its sake. Those that write are let in
one at a time, by a lock that is taken never to be poisoned: each is one step here, from its first
check to its write.
-/

namespace BucketAdmin.Registry

open Bucket (Name Settings)

/-- What every key of a bucket starts with. -/
def keyLead : Bytes := Utf8.encode "bucket:"

/-- The key of a bucket. -/
def key (n : Name) : Bytes := keyLead ++ n.bytes

/-- The settings a record keeps. -/
def decode (record : Bytes) : Except Refusal Settings :=
  (Settings.ofRecord record).mapError .undecodable

/-- The settings of a bucket, if it is registered. -/
def get (st : Store) (n : Name) : Except Refusal (Option Settings) :=
  match st.get? (key n) with
  | none => .ok none
  | some record => (decode record).map some

/-- All buckets, in the order of their keys. -/
def list (st : Store) : Except Refusal (List Settings) :=
  (st.withLead keyLead).mapM decode

/-- The sum of the quotas of some buckets, in megabytes. -/
def totalMb : List Settings → Nat
  | [] => 0
  | s :: rest => s.quotaMb.toNat + totalMb rest

/-- The sum of all quotas, in megabytes, if it fits 64 bits. -/
def quotaUsedMb (st : Store) : Except Refusal Nat := do
  let total := totalMb (← list st)
  if total < UInt64.size then .ok total else .error (.settings .totalTooLarge)

/-- Refuse settings whose quota is more than the capacity leaves once `releasedMb` is given back. -/
def checkCapacity (capacityMb : Option UInt64) (st : Store) (s : Settings) (releasedMb : Nat) :
    Except Refusal Unit :=
  match capacityMb with
  | none => .ok ()
  | some capacity => do
    let used := (← quotaUsedMb st) - releasedMb
    if used + s.quotaMb.toNat ≤ capacity.toNat then .ok ()
    else .error (.settings (.overCapacity s.quotaMb (capacity.toNat - used)))

/-- The store with the settings under their own name. -/
def write (st : Store) (s : Settings) : Store := st.insert (key s.name) s.toRecord

/-- What is stored for settings. -/
def normalize (s : Settings) : Except Refusal Settings := s.normalize.mapError .settings

/-- Register a bucket. The result is what is stored, and the new store. -/
def insert (capacityMb : Option UInt64) (st : Store) (s : Settings) :
    Except Refusal (Settings × Store) := do
  if (← get st s.name).isSome then .error (.bucketExists s.name)
  else
    let stored ← normalize s
    checkCapacity capacityMb st stored 0
    .ok (stored, write st stored)

/-- Replace the settings of a registered bucket, whose kind stays. -/
def update (capacityMb : Option UInt64) (st : Store) (s : Settings) :
    Except Refusal (Settings × Store) := do
  match ← get st s.name with
  | none => .error (.bucketMissing s.name)
  | some previous =>
    if previous.kind ≠ s.kind then
      .error (.settings (.kindChange s.name previous.kind s.kind))
    else
      let stored ← normalize s
      checkCapacity capacityMb st stored previous.quotaMb.toNat
      .ok (stored, write st stored)

/-- Remove a bucket. The result tells whether it was registered. -/
def remove (st : Store) (n : Name) : Except Refusal (Bool × Store) := do
  match ← get st n with
  | none => .ok (false, st)
  | some _ => .ok (true, st.erase (key n))

end BucketAdmin.Registry
