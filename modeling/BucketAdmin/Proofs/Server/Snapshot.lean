import BucketAdmin.Proofs.Server.Invariant

/-!
# The snapshot of a node and its registry

A snapshot takes a sum of quotas and turns three amounts of megabytes into bytes, and any of these
may not fit 64 bits. In a state that a server reaches the sum is within the memory of the node
(`Holds.fits`), so it fits, and it fits as bytes wherever the memory does. Hence what is stored
never decides whether there is a snapshot: the profile of the node does (`Holds.isOk_snapshot_iff`).
What the snapshot tells is told by the profile, by what is listed, and by what the storage engine
says of the disk, whatever that is (`snapshot_consistent`).
-/

namespace BucketAdmin.Server

open Api (decodeInfo encodeBucketList encodeInfo encodeSettings withinLimit)
open Bucket (Settings)
open Cluster (Info)
open Registry (Keeps entryOf totalMb)

/-! ## Megabytes as bytes -/

section Bytes

variable {mb bytes : UInt64}

theorem toBytes_eq_ok_iff : toBytes mb = .ok bytes ↔ bytes.toNat = bytesPerMb * mb.toNat := by
  rw [toBytes, Nat.mul_comm bytesPerMb]
  constructor
  · intro h
    split at h
    · next hfit =>
      cases h
      exact UInt64.toNat_ofNat_of_lt' hfit
    · cases h
  · intro h
    rw [← h, if_pos bytes.toNat_lt_size, UInt64.ofNat_toNat]

theorem exists_toBytes (h : mb.toNat * bytesPerMb < UInt64.size) :
    ∃ bytes, toBytes mb = .ok bytes := ⟨_, if_pos h⟩

/-- What has a number of bytes fits as bytes. -/
theorem fits_of_toBytes (h : toBytes mb = .ok bytes) : mb.toNat * bytesPerMb < UInt64.size := by
  rw [Nat.mul_comm, ← toBytes_eq_ok_iff.mp h]
  exact bytes.toNat_lt_size

end Bytes

/-! ## Snapshots -/

/-- The snapshot tells of one healthy node with that profile, on which these settings are stored,
and whose storage engine takes that much disk space. -/
structure Depicts (p : Profile) (diskSpace : UInt64) (buckets : List Settings) (i : Info) :
    Prop where
  nodes : i.nodes = [⟨p.hostname, p.version, .healthy, p.services⟩]
  ramTotal : i.storage.ramTotal.toNat = bytesPerMb * p.ramTotalMb.toNat
  ramQuotaTotal : i.storage.ramQuotaTotal.toNat = bytesPerMb * p.ramTotalMb.toNat
  diskTotal : i.storage.diskTotal.toNat = bytesPerMb * p.diskTotalMb.toNat
  ramUsed : i.storage.ramUsed.toNat = bytesPerMb * totalMb buckets
  ramQuotaUsed : i.storage.ramQuotaUsed.toNat = bytesPerMb * totalMb buckets
  within : i.storage.ramUsed ≤ i.storage.ramQuotaTotal
  diskUsed : i.storage.diskUsed = diskSpace

variable {p : Profile} {sv : Server} {buckets : List Settings} {i : Info}

namespace Holds

/-- A snapshot comes of three conversions. -/
theorem snapshot_eq_ok (h : Holds sv buckets)
    (hi : sv.profile.snapshot sv.diskSpace sv.store = .ok i) :
    toBytes (UInt64.ofNat (totalMb buckets)) = .ok i.storage.ramUsed ∧
      toBytes sv.profile.ramTotalMb = .ok i.storage.ramTotal ∧
      toBytes sv.profile.diskTotalMb = .ok i.storage.diskTotal ∧
      i.storage.ramQuotaTotal = i.storage.ramTotal ∧ i.storage.ramQuotaUsed = i.storage.ramUsed ∧
      i.storage.diskUsed = sv.diskSpace ∧
      i.nodes = [⟨sv.profile.hostname, sv.profile.version, .healthy, sv.profile.services⟩] := by
  rw [Profile.snapshot, h.keeps.quotaUsedMb h.total_lt, ok_bind] at hi
  obtain ⟨used, hused, hi⟩ := bind_eq_ok.mp hi
  obtain ⟨ramTotal, hram, hi⟩ := bind_eq_ok.mp hi
  obtain ⟨diskTotal, hdisk, hi⟩ := bind_eq_ok.mp hi
  cases hi
  exact ⟨hused, hram, hdisk, rfl, rfl, rfl, rfl⟩

theorem depicts (h : Holds sv buckets) (hi : sv.profile.snapshot sv.diskSpace sv.store = .ok i) :
    Depicts sv.profile sv.diskSpace buckets i := by
  obtain ⟨hused, hram, hdisk, hquotaTotal, hquotaUsed, hdiskUsed, hnodes⟩ := h.snapshot_eq_ok hi
  have hramUsed : i.storage.ramUsed.toNat = bytesPerMb * totalMb buckets := by
    rw [toBytes_eq_ok_iff.mp hused, h.toNat_total]
  have hramTotal := toBytes_eq_ok_iff.mp hram
  refine ⟨hnodes, hramTotal, hquotaTotal ▸ hramTotal, toBytes_eq_ok_iff.mp hdisk, hramUsed,
    hquotaUsed ▸ hramUsed, ?_, hdiskUsed⟩
  rw [UInt64.le_iff_toNat_le, hquotaTotal, hramUsed, hramTotal]
  exact Nat.mul_le_mul_left bytesPerMb h.fits

/-- Whether there is a snapshot is decided by the profile alone. -/
theorem isOk_snapshot_iff (h : Holds sv buckets) :
    (sv.profile.snapshot sv.diskSpace sv.store).isOk = true ↔
      sv.profile.ramTotalMb.toNat * bytesPerMb < UInt64.size ∧
        sv.profile.diskTotalMb.toNat * bytesPerMb < UInt64.size := by
  constructor
  · intro hok
    cases hi : sv.profile.snapshot sv.diskSpace sv.store with
    | error refusal =>
      rw [hi] at hok
      cases hok
    | ok i =>
      obtain ⟨-, hram, hdisk, -⟩ := h.snapshot_eq_ok hi
      exact ⟨fits_of_toBytes hram, fits_of_toBytes hdisk⟩
  · rintro ⟨hramFits, hdiskFits⟩
    -- what is used fits because the memory does
    have husedFits : (UInt64.ofNat (totalMb buckets)).toNat * bytesPerMb < UInt64.size := by
      rw [h.toNat_total]
      exact Nat.lt_of_le_of_lt (Nat.mul_le_mul_right bytesPerMb h.fits) hramFits
    obtain ⟨used, hused⟩ := exists_toBytes husedFits
    obtain ⟨ramTotal, hram⟩ := exists_toBytes hramFits
    obtain ⟨diskTotal, hdisk⟩ := exists_toBytes hdiskFits
    rw [Profile.snapshot, h.keeps.quotaUsedMb h.total_lt, ok_bind, hused, ok_bind, hram, ok_bind,
      hdisk, ok_bind]
    rfl

end Holds

theorem dispatch_clusterInfo (hi : sv.profile.snapshot sv.diskSpace sv.store = .ok i)
    (body : Bytes) :
    sv.dispatch .clusterInfo body = (⟨.ok, encodeInfo i⟩, sv) := by
  have hperform : sv.perform .clusterInfo body = .ok (⟨.ok, encodeInfo i⟩, sv.store) := by
    simp only [perform, hi, mapError_ok, ok_bind]
  exact dispatch_ok hperform

theorem dispatch_clusterInfo_error {refusal : Refusal}
    (herror : sv.profile.snapshot sv.diskSpace sv.store = .error refusal) (body : Bytes) :
    sv.dispatch .clusterInfo body = ((Rejection.registry refusal).response, sv) := by
  have hperform : sv.perform .clusterInfo body = .error (.registry refusal) := by
    simp only [perform, herror, mapError_error, error_bind]
  exact dispatch_error hperform

/-- **The snapshot is consistent with the registry and fails only for oversized nodes.** In every
state that a server reaches there is a snapshot exactly if the memory and the disk space of the node
fit 64 bits as bytes. It tells of the node, of the sum of the quotas that are listed, and of the
disk space as the storage engine has it. A request for it is answered with it, in a body that reads
back as it. Otherwise the request is refused as a bad one, with an amount that does not fit. -/
theorem snapshot_consistent (h : Reachable p sv) :
    ∃ buckets, (∀ body, sv.dispatch .listBuckets body = (⟨.ok, encodeBucketList buckets⟩, sv)) ∧
      Registry.list sv.store = .ok buckets ∧
      ((p.snapshot sv.diskSpace sv.store).isOk = true ↔
        p.ramTotalMb.toNat * bytesPerMb < UInt64.size ∧
          p.diskTotalMb.toNat * bytesPerMb < UInt64.size) ∧
      (∀ i, p.snapshot sv.diskSpace sv.store = .ok i → Depicts p sv.diskSpace buckets i ∧
        decodeInfo (encodeInfo i) = withinLimit (encodeInfo i) i ∧
        ∀ body, sv.dispatch .clusterInfo body = (⟨.ok, encodeInfo i⟩, sv)) ∧
      ∀ refusal, p.snapshot sv.diskSpace sv.store = .error refusal →
        (∃ mb, refusal = .settings (.bytesTooLarge mb) ∧ Oversized p buckets mb) ∧
        ∀ body, sv.dispatch .clusterInfo body = (.error .badRequest refusal.message, sv) := by
  obtain ⟨rfl, buckets, hheld⟩ := h.holds
  refine ⟨buckets, hheld.dispatch_listBuckets, hheld.keeps.list, hheld.isOk_snapshot_iff, ?_, ?_⟩
  · intro i hi
    exact ⟨hheld.depicts hi, Api.decodeInfo_encodeInfo i, dispatch_clusterInfo hi⟩
  · intro refusal herror
    obtain ⟨mb, rfl, hlarge⟩ := hheld.snapshot_error herror
    exact ⟨⟨mb, rfl, hlarge⟩, dispatch_clusterInfo_error herror⟩

/-- The most memory that fits 64 bits as bytes, as the quota of one bucket. -/
def widestBucket : Settings :=
  { Settings.blank ⟨"wide", by decide, by decide, by decide⟩ with quotaMb := 17592186044415 }

/-- A node with so much memory, all of it taken, and one page of its disk. -/
def widestNode : Server :=
  let sv := start { ramTotalMb := 17592186044415 }
  { (sv.dispatch .createBucket (encodeSettings widestBucket)).2 with diskSpace := 4096 }

/-- A node with one megabyte more. -/
def tooWideNode : Server := start { ramTotalMb := 17592186044416 }

/-- A snapshot tells that all memory is taken; of a node that is too wide there is none. -/
theorem snapshot_consistent_widestNode :
    (∃ i, widestNode.profile.snapshot 4096 widestNode.store = .ok i ∧
      i.storage.ramUsed = i.storage.ramQuotaTotal ∧ i.storage.diskUsed = 4096 ∧
      widestNode.dispatch .clusterInfo [] = (⟨.ok, encodeInfo i⟩, widestNode)) ∧
    (tooWideNode.dispatch .clusterInfo []).1 = .error .badRequest
      "Invalid bucket settings: 17592186044416 MB does not fit in a byte count" := by
  constructor
  · have hreach : Reachable { ramTotalMb := 17592186044415 } widestNode :=
      .engine (.dispatch .start .createBucket _) 4096
    have hprofile : widestNode.profile = { ramTotalMb := 17592186044415 } := hreach.holds.1
    have hentries : widestNode.store.entries = [entryOf widestBucket] := by decide +kernel
    have hkeeps : Keeps widestNode.store [widestBucket] := hentries
    obtain ⟨buckets, -, hlist, hiff, hdepicts, -⟩ := snapshot_consistent hreach
    have hbuckets : buckets = [widestBucket] := Except.ok.inj (hlist.symm.trans hkeeps.list)
    subst hbuckets
    have hok := hiff.mpr (by decide)
    cases hi : Profile.snapshot { ramTotalMb := 17592186044415 } widestNode.diskSpace
        widestNode.store with
    | error refusal =>
      rw [hi] at hok
      cases hok
    | ok i =>
      obtain ⟨hinfo, -, hanswer⟩ := hdepicts i hi
      refine ⟨i, hprofile ▸ hi, UInt64.toNat_inj.mp ?_, hinfo.diskUsed, hanswer []⟩
      rw [hinfo.ramUsed, hinfo.ramQuotaTotal]
      decide
  · have hreach : Reachable { ramTotalMb := 17592186044416 } tooWideNode := .start
    obtain ⟨buckets, -, hlist, hiff, -, herror⟩ := snapshot_consistent hreach
    have hbuckets : buckets = [] := Except.ok.inj (hlist.symm.trans Registry.keeps_empty.list)
    subst hbuckets
    cases hi : Profile.snapshot { ramTotalMb := 17592186044416 } tooWideNode.diskSpace
        tooWideNode.store with
    | ok i =>
      have hfits := (hiff.mp (by rw [hi]; rfl)).1
      exact absurd hfits (by decide)
    | error refusal =>
      obtain ⟨⟨mb, rfl, hmb⟩, hanswer⟩ := herror refusal hi
      have hlarge := hmb.large
      rcases hmb.amount with hnone | rfl | rfl
      · rw [hnone] at hlarge
        exact absurd hlarge (by decide)
      · rw [hanswer]
        rfl
      · exact absurd hlarge (by decide)

end BucketAdmin.Server
