import BucketAdmin.Proofs.Registry.Contents

/-!
# What the operations of a registry do

Two views of each operation. On any store, whatever its records, an operation that succeeds has
passed its checks and writes one entry at most (`insert_eq_ok`, `update_eq_ok`, `remove_eq_ok`).
On a store that keeps a list of settings, the list alone decides whether it succeeds and with what
(`Keeps.insert`, `Keeps.update`, `Keeps.remove`); `normal` is what is stored then.
-/

namespace BucketAdmin

namespace Bucket.Settings

/-- What is stored for settings within bounds: a cache has no replicas. -/
def normal (s : Settings) : Settings :=
  match s.kind with
  | .memcached => { s with replicas := 0, indexReplicas := false }
  | .couchbase | .ephemeral => s

/-- Settings as a server stores them. -/
structure Storable (s : Settings) : Prop where
  valid : s.Valid
  cache : s.kind = .memcached → s.replicas = 0 ∧ s.indexReplicas = false

variable {s t : Settings}

@[simp] theorem normal_name (s : Settings) : s.normal.name = s.name := by
  unfold normal
  split <;> rfl

@[simp] theorem normal_quotaMb (s : Settings) : s.normal.quotaMb = s.quotaMb := by
  unfold normal
  split <;> rfl

@[simp] theorem normal_kind (s : Settings) : s.normal.kind = s.kind := by
  unfold normal
  split <;> rfl

theorem Valid.storable_normal (h : s.Valid) : s.normal.Storable := by
  unfold normal
  split
  · exact ⟨⟨h.quota, UInt8.zero_le⟩, fun _ => ⟨rfl, rfl⟩⟩
  · next hk => exact ⟨h, fun hm => nomatch hk.symm.trans hm⟩
  · next hk => exact ⟨h, fun hm => nomatch hk.symm.trans hm⟩

theorem normalize_eq_normal (h : s.Valid) : s.normalize = .ok s.normal := by
  cases hk : s.kind with
  | memcached =>
    simp only [normalize, normal, hk]
    exact validate_eq_ok_iff.mpr ⟨⟨h.quota, UInt8.zero_le⟩, rfl⟩
  | couchbase => simp only [normalize, normal, hk]
  | ephemeral => simp only [normalize, normal, hk]

/-- Nothing else is ever stored, whatever the bounds. -/
theorem eq_normal_of_normalize (h : s.normalize = .ok t) : t = s.normal := by
  cases hk : s.kind with
  | memcached =>
    simp only [normalize, normal, hk] at h ⊢
    exact (validate_eq_ok_iff.mp h).2
  | couchbase | ephemeral =>
    simp only [normalize, normal, hk] at h ⊢
    exact (Except.ok.inj h).symm

theorem name_of_normalize (h : s.normalize = .ok t) : t.name = s.name := by
  rw [eq_normal_of_normalize h, normal_name]

end Bucket.Settings

namespace Registry

open Bucket (Name Settings)

/-! ## On any store -/

section Any

variable {capacityMb : Option UInt64} {st st' : Store} {s t : Settings} {n : Name}

theorem get_eq_none (h : get st n = .ok none) : st.get? (key n) = none := by
  unfold get at h
  split at h
  · assumption
  · obtain ⟨s, -, hs⟩ := map_eq_ok.mp h
    cases hs

theorem get_eq_some (h : get st n = .ok (some s)) :
    ∃ record, st.get? (key n) = some record ∧ decode record = .ok s := by
  unfold get at h
  split at h
  · cases h
  · next record hrecord =>
    obtain ⟨t, ht, hs⟩ := map_eq_ok.mp h
    cases hs
    exact ⟨record, hrecord, ht⟩

theorem eq_normal_of_normalize (h : normalize s = .ok t) : t = s.normal :=
  Settings.eq_normal_of_normalize (mapError_eq_ok.mp h)

theorem name_of_normalize (h : normalize s = .ok t) : t.name = s.name :=
  Settings.name_of_normalize (mapError_eq_ok.mp h)

/-- A bucket that is registered was not there, and one entry is written. -/
theorem insert_eq_ok (h : insert capacityMb st s = .ok (t, st')) :
    get st s.name = .ok none ∧ normalize s = .ok t ∧
      checkCapacity capacityMb st t 0 = .ok () ∧ st' = write st t := by
  unfold insert at h
  obtain ⟨found, hget, h⟩ := bind_eq_ok.mp h
  cases found with
  | some u => cases h
  | none =>
    simp only [Option.isSome_none, Bool.false_eq_true, if_false] at h
    obtain ⟨stored, hnormal, h⟩ := bind_eq_ok.mp h
    obtain ⟨⟨⟩, hcheck, h⟩ := bind_eq_ok.mp h
    cases h
    exact ⟨hget, hnormal, hcheck, rfl⟩

/-- A bucket that is updated was there with the same kind, and one entry is written. -/
theorem update_eq_ok (h : update capacityMb st s = .ok (t, st')) :
    ∃ previous, get st s.name = .ok (some previous) ∧ previous.kind = s.kind ∧
      normalize s = .ok t ∧
      checkCapacity capacityMb st t previous.quotaMb.toNat = .ok () ∧ st' = write st t := by
  unfold update at h
  obtain ⟨found, hget, h⟩ := bind_eq_ok.mp h
  cases found with
  | none => cases h
  | some previous =>
    by_cases hkind : previous.kind = s.kind
    · simp only [hkind, ne_eq, not_true_eq_false, if_false] at h
      obtain ⟨stored, hnormal, h⟩ := bind_eq_ok.mp h
      obtain ⟨⟨⟩, hcheck, h⟩ := bind_eq_ok.mp h
      cases h
      exact ⟨previous, hget, hkind, hnormal, hcheck, rfl⟩
    · simp only [ne_eq, hkind, not_false_eq_true, if_true] at h
      cases h

/-- A removal drops the entry of a bucket that was there, and nothing else. -/
theorem remove_eq_ok {b : Bool} (h : remove st n = .ok (b, st')) :
    (b = false ∧ get st n = .ok none ∧ st' = st) ∨
      (b = true ∧ (∃ s, get st n = .ok (some s)) ∧ st' = st.erase (key n)) := by
  unfold remove at h
  obtain ⟨found, hget, h⟩ := bind_eq_ok.mp h
  cases found with
  | none =>
    cases h
    exact .inl ⟨rfl, hget, rfl⟩
  | some s =>
    cases h
    exact .inr ⟨rfl, ⟨s, hget⟩, rfl⟩

end Any

/-! ## On a store that keeps a list of settings -/

theorem found_put_normal (s : Settings) (buckets : List Settings) :
    found (put s.normal buckets) s.name = some s.normal := by
  rw [found_put, Settings.normal_name, if_pos rfl]

namespace Keeps

variable {st : Store} {buckets : List Settings} {s : Settings} {capacity : UInt64}

/-- What was stored last is found. -/
theorem get_put_normal (h : Keeps st (put s.normal buckets)) :
    Registry.get st s.name = .ok (some s.normal) := by
  rw [h.get, found_put_normal]

theorem checkCapacity (h : Keeps st buckets) (hfit : totalMb buckets < UInt64.size)
    (capacity : UInt64) (s : Settings) (releasedMb : Nat) :
    checkCapacity (some capacity) st s releasedMb =
      if totalMb buckets - releasedMb + s.quotaMb.toNat ≤ capacity.toNat then .ok ()
      else .error (.settings (.overCapacity s.quotaMb
        (capacity.toNat - (totalMb buckets - releasedMb)))) := by
  simp only [Registry.checkCapacity, h.quotaUsedMb hfit, ok_bind]

theorem insert (h : Keeps st buckets) (hfit : totalMb buckets < UInt64.size) (hs : s.Valid) :
    insert (some capacity) st s =
      if (found buckets s.name).isSome then .error (.bucketExists s.name)
      else if totalMb buckets + s.quotaMb.toNat ≤ capacity.toNat then
        .ok (s.normal, Registry.write st s.normal)
      else .error (.settings (.overCapacity s.quotaMb (capacity.toNat - totalMb buckets))) := by
  rw [Registry.insert, h.get, ok_bind]
  refine ite_congr rfl (fun _ => rfl) fun _ => ?_
  rw [normalize, Settings.normalize_eq_normal hs, mapError_ok, ok_bind, h.checkCapacity hfit,
    Nat.sub_zero, Settings.normal_quotaMb]
  split <;> rfl

theorem update (h : Keeps st buckets) (hfit : totalMb buckets < UInt64.size) (hs : s.Valid) :
    update (some capacity) st s =
      match found buckets s.name with
      | none => .error (.bucketMissing s.name)
      | some previous =>
        if previous.kind ≠ s.kind then
          .error (.settings (.kindChange s.name previous.kind s.kind))
        else if totalMb buckets - previous.quotaMb.toNat + s.quotaMb.toNat ≤ capacity.toNat then
          .ok (s.normal, Registry.write st s.normal)
        else .error (.settings (.overCapacity s.quotaMb
          (capacity.toNat - (totalMb buckets - previous.quotaMb.toNat)))) := by
  rw [Registry.update, h.get, ok_bind]
  cases found buckets s.name with
  | none => rfl
  | some previous =>
    refine ite_congr rfl (fun _ => rfl) fun _ => ?_
    rw [normalize, Settings.normalize_eq_normal hs, mapError_ok, ok_bind, h.checkCapacity hfit,
      Settings.normal_quotaMb]
    split <;> rfl

theorem remove (h : Keeps st buckets) (n : Name) :
    remove st n =
      if (found buckets n).isSome then .ok (true, st.erase (key n)) else .ok (false, st) := by
  rw [Registry.remove, h.get, ok_bind]
  cases found buckets n <;> rfl

end Keeps

end Registry

end BucketAdmin
