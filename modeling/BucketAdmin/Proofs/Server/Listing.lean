import BucketAdmin.Proofs.Api.Listing
import BucketAdmin.Proofs.Registry.Admission
import BucketAdmin.Proofs.Server.Invariant

/-!
# Listing, lookup and accounting agree

A bucket is looked up under a key made of its name, but listed by a scan of all keys that trusts the
name in each record, and its quota is counted from what is listed. After any run of changes the
store keeps some list of settings (`Keeps.run`), and that one list is what is listed, what is found
name by name, and what is counted; a server on such a store shows it bucket by bucket or at once
(`listing_agrees`).
-/

namespace BucketAdmin

namespace Registry

open Bucket (Name Settings)

/-! ## Counting in 64-bit words -/

/-- The sum of all quotas, each added in 64 bits to the sum of those before it. -/
def quotaUsedWords (st : Store) : Except Refusal UInt64 := do
  match checkedTotalMb (← list st) with
  | some total => .ok total
  | none => .error (.settings .totalTooLarge)

theorem quotaUsedMb_eq_quotaUsedWords (st : Store) :
    quotaUsedMb st = (quotaUsedWords st).map UInt64.toNat := by
  unfold quotaUsedMb quotaUsedWords
  cases list st with
  | error refusal => rfl
  | ok buckets =>
    simp only [ok_bind, checkedTotalMb_eq]
    by_cases hfit : totalMb buckets < UInt64.size
    · rw [if_pos hfit, if_pos hfit]
      exact congrArg Except.ok (UInt64.toNat_ofNat_of_lt' hfit).symm
    · rw [if_neg hfit, if_neg hfit]
      rfl

/-! ## One list for all -/

namespace Keeps

variable {st : Store} {buckets : List Settings}

theorem nodup_names (h : Keeps st buckets) : (buckets.map (·.name)).Nodup := by
  refine List.pairwise_map.mpr (h.ordered.imp ?_)
  intro s t hlt heq
  exact Name.lt_irrefl t.name (heq ▸ hlt)

theorem mem_iff_get (h : Keeps st buckets) (s : Settings) :
    s ∈ buckets ↔ Registry.get st s.name = .ok (some s) := by
  rw [h.get]
  constructor
  · intro hs
    rw [found_of_mem h.ordered hs]
  · intro hget
    exact mem_of_found (Except.ok.inj hget)

theorem quotaUsedMb_eq (h : Keeps st buckets) :
    Registry.quotaUsedMb st =
      if totalMb buckets < UInt64.size then .ok (totalMb buckets)
      else .error (.settings .totalTooLarge) := by
  rw [Registry.quotaUsedMb, h.list, ok_bind]

end Keeps

end Registry

namespace Server

open Api (encodeSettings)
open Bucket (Name Settings)
open Json (listText)
open Registry (Keeps Handle Change quotaUsedMb quotaUsedWords totalMb overflowing hugeBucket
  smallBucket)

variable {sv : Server} {buckets : List Settings}

/-- What a listing shows is the list of what each bucket of it shows. -/
theorem dispatch_listBuckets_eq (h : Keeps sv.store buckets) (body : Bytes) :
    sv.dispatch .listBuckets body = (⟨.ok,
      listText (buckets.map fun s => (sv.dispatch (.getBucket s.name) body).1.body)⟩, sv) := by
  have hbodies : buckets.map (fun s => (sv.dispatch (.getBucket s.name) body).1.body) =
      buckets.map encodeSettings := by
    refine List.map_congr_left fun s hs => ?_
    rw [dispatch_getBucket h (Registry.found_of_mem h.ordered hs)]
  rw [dispatch_listBuckets h, hbodies, Api.encodeBucketList_eq]

/-- **Listing, lookup and accounting agree after any changes through any registries on a store.**
What is listed has strictly ascending names, and is what is found under those names. The sum of the
quotas is counted exactly where it fits 64 bits, and refused where it does not. A server on that
store answers each of these names with its bucket, and a listing with those answers, in order. -/
theorem listing_agrees (steps : List (Handle × Change)) :
    ∃ buckets, Registry.list (Registry.run .empty steps) = .ok buckets ∧
      buckets.Pairwise (fun s t => s.name.bytes < t.name.bytes) ∧ (buckets.map (·.name)).Nodup ∧
      (∀ s, s ∈ buckets ↔ Registry.get (Registry.run .empty steps) s.name = .ok (some s)) ∧
      quotaUsedMb (Registry.run .empty steps) =
        (quotaUsedWords (Registry.run .empty steps)).map UInt64.toNat ∧
      quotaUsedMb (Registry.run .empty steps) =
        (if totalMb buckets < UInt64.size then .ok (totalMb buckets)
          else .error (.settings .totalTooLarge)) ∧
      ∀ (profile : Profile) (diskSpace : UInt64) (body : Bytes),
        let sv : Server := ⟨profile, Registry.run .empty steps, diskSpace⟩
        (∀ s ∈ buckets, sv.dispatch (.getBucket s.name) body = (⟨.ok, encodeSettings s⟩, sv)) ∧
        sv.dispatch .listBuckets body = (⟨.ok, listText
          (buckets.map fun s => (sv.dispatch (.getBucket s.name) body).1.body)⟩, sv) := by
  obtain ⟨buckets, hkeeps, -⟩ := Registry.keeps_empty.run steps
  refine ⟨buckets, hkeeps.list, hkeeps.ordered, hkeeps.nodup_names, hkeeps.mem_iff_get,
    Registry.quotaUsedMb_eq_quotaUsedWords _, hkeeps.quotaUsedMb_eq, ?_⟩
  intro profile diskSpace body sv
  have hstore : Keeps sv.store buckets := hkeeps
  refine ⟨fun s hs => ?_, dispatch_listBuckets_eq hstore body⟩
  exact dispatch_getBucket hstore (Registry.found_of_mem hkeeps.ordered hs) body

/-- Two buckets whose quotas do not add up in 64 bits are shown all the same. -/
theorem listing_agrees_overflowing :
    quotaUsedMb (Registry.run .empty overflowing) = .error (.settings .totalTooLarge) ∧
    ∀ body, ((⟨{}, Registry.run .empty overflowing, 0⟩ : Server).dispatch .listBuckets body).1 =
      ⟨.ok, listText [encodeSettings hugeBucket, encodeSettings smallBucket]⟩ := by
  obtain ⟨buckets, hlist, -, -, -, -, hquota, hanswers⟩ := listing_agrees overflowing
  have hbuckets : buckets = [hugeBucket, smallBucket] := by
    rw [Registry.keeps_overflowing.list] at hlist
    exact (Except.ok.inj hlist).symm
  subst hbuckets
  refine ⟨hquota.trans (if_neg (by decide)), fun body => ?_⟩
  obtain ⟨hshown, hlisting⟩ := hanswers {} 0 body
  have hbodies := List.forall_mem_cons.mp hshown
  rw [hlisting, List.map_cons, List.map_cons, List.map_nil, hbodies.1,
    hbodies.2 smallBucket List.mem_cons_self]

/-- Buckets with the given names, registered one after another. -/
def registering (names : List Name) : List (Handle × Change) :=
  names.map fun n => (⟨none⟩, .insert (.blank n))

/-- Capitals and punctuation come before the other letters, and a name before those it begins. -/
example :
    (Registry.list (Registry.run .empty (registering [⟨"ab", by decide, by decide, by decide⟩,
        ⟨"a", by decide, by decide, by decide⟩, ⟨"B", by decide, by decide, by decide⟩,
        ⟨"a-b", by decide, by decide, by decide⟩]))).toOption.map
      (fun buckets => buckets.map (·.name.text)) = some ["B", "a", "a-b", "ab"] := by
  decide +kernel

end Server

end BucketAdmin
