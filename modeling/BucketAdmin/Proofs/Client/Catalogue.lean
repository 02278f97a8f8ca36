import Mathlib.Data.Finmap
import Mathlib.Data.Finset.Sort
import BucketAdmin.Client.Call
import BucketAdmin.Proofs.Registry.Operations

/-!
# The catalogue of buckets

What a cluster is to its clients: a finite map from names to settings. `Catalogue.step` says what
each call on buckets is answered and what the map is afterwards, and `Catalogue.run` what a sequence
of calls is answered. Nothing here knows of records, bodies or statuses; only `Admissible` does,
which bounds the bodies that a sequence of calls makes for.
-/

namespace BucketAdmin

/-- Names in the order of their bytes. -/
def Bucket.Name.Le (a b : Bucket.Name) : Prop := ¬b < a

namespace Bucket.Name

instance : DecidableRel Le := fun a b => inferInstanceAs (Decidable (¬b < a))

instance : Std.Antisymm Le where
  antisymm _ _ hab hba := eq_of_not_lt hba hab

instance : IsTrans Name Le where
  trans a b c hab hbc hca := by
    by_cases hlt : b < c
    · exact hab (lt_trans hlt hca)
    · exact hab (eq_of_not_lt hlt hbc ▸ hca)

instance : Std.Total Le where
  total a b := by
    by_cases h : b < a
    · exact .inr fun hab => lt_irrefl a (lt_trans hab h)
    · exact .inl h

end Bucket.Name

namespace Client

open Bucket (Name Settings)

/-- The settings of each bucket there is. -/
abbrev Catalogue := Finmap fun _ : Name => Settings

/-- A call on buckets. -/
inductive Op where
  | list
  | get (n : Name)
  | has (n : Name)
  | insert (s : Settings)
  | update (s : Settings)
  | remove (n : Name)

/-- The call that a client makes. -/
def Op.call : Op → Call
  | .list => .buckets
  | .get n => .bucket n
  | .has n => .hasBucket n
  | .insert s => .insertBucket s
  | .update s => .updateBucket s
  | .remove n => .removeBucket n

namespace Catalogue

/-- All settings, in the order of their names. -/
def values (m : Catalogue) : List Settings := (m.keys.sort Name.Le).filterMap fun n => m.lookup n

/-- The sum of all quotas. -/
def totalMb (m : Catalogue) : Nat := Registry.totalMb m.values

/-- What a call is answered, and the catalogue after it. -/
def step (capacityMb : Nat) (m : Catalogue) : Op → Except Failure.Kind Answer × Catalogue
  | .list => (.ok (.buckets m.values), m)
  | .get n => (.ok (.lookup (m.lookup n)), m)
  | .has n => (.ok (.flag (n ∈ m)), m)
  | .insert s =>
    if s.name ∈ m then (.error .alreadyExists, m)
    else if capacityMb < m.totalMb + s.quotaMb.toNat then (.error .transport, m)
    else (.ok (.settings s.normal), m.insert s.name s.normal)
  | .update s =>
    match m.lookup s.name with
    | none => (.error .notFound, m)
    | some t =>
      if t.kind ≠ s.kind then (.error .transport, m)
      else if capacityMb < m.totalMb - t.quotaMb.toNat + s.quotaMb.toNat then (.error .transport, m)
      else (.ok (.settings s.normal), m.insert s.name s.normal)
  | .remove n => (.ok (.flag (n ∈ m)), m.erase n)

/-- What calls are answered one after another. -/
def run (capacityMb : Nat) : Catalogue → List Op → List (Except Failure.Kind Answer)
  | _, [] => []
  | m, op :: ops => (step capacityMb m op).1 :: run capacityMb (step capacityMb m op).2 ops

/-- The bodies that a call makes for are within the limit: its settings as they are sent and as they
are stored, and the listing it asks for. -/
def Fits (m : Catalogue) : Op → Prop
  | .list => (Api.encodeBucketList m.values).length ≤ Api.maxBodySize
  | .insert s | .update s => s.Valid ∧ (Api.encodeSettings s).length ≤ Api.maxBodySize ∧
    (Api.encodeSettings s.normal).length ≤ Api.maxBodySize
  | .get _ | .has _ | .remove _ => True

/-- Each call fits when its turn comes. -/
def Admissible (capacityMb : Nat) : Catalogue → List Op → Prop
  | _, [] => True
  | m, op :: ops => Fits m op ∧ Admissible capacityMb (step capacityMb m op).2 ops

end Catalogue

end Client

end BucketAdmin
