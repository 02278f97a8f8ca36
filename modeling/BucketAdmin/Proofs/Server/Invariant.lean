import BucketAdmin.Proofs.Registry.Operations
import BucketAdmin.Proofs.RoundTrip
import BucketAdmin.Server.Dispatch

/-!
# The invariant of the server

`Holds sv buckets`: the store of the server keeps the settings `buckets`, each as a server stores
settings, and their quotas fit the memory of the node. In such a state the list `buckets` alone
decides what a request is answered (`perform_listBuckets`, `perform_getBucket` and so on), no record
fails to decode, and whatever comes of the request is held again (`Holds.endsWell`). It holds at the
start, hence in every state that a server can reach, whoever sends what (`Reachable.holds`).
-/

namespace BucketAdmin

theorem Api.Status.code_ne_of_isSuccess {s : Api.Status} (h : s.isSuccess = true) :
    s.code ≠ 500 := by
  cases s with
  | other c =>
    rintro rfl
    revert h
    decide
  | _ => decide

namespace Server

open Api (Endpoint Response Status decodeSettings encodeSettings encodeBucketList)
open Bucket (Name Settings)
open Registry (Store Keeps entryOf found put without totalMb quotaOf)

/-- An amount of a node on which these settings are stored does not fit 64 bits as bytes. -/
structure Oversized (p : Profile) (buckets : List Settings) (mb : UInt64) : Prop where
  amount : mb.toNat = totalMb buckets ∨ mb = p.ramTotalMb ∨ mb = p.diskTotalMb
  large : UInt64.size ≤ mb.toNat * bytesPerMb

/-- The server keeps these settings, and their quotas fit its memory. -/
structure Holds (sv : Server) (buckets : List Settings) : Prop where
  keeps : Keeps sv.store buckets
  storable : ∀ s ∈ buckets, s.Storable
  fits : totalMb buckets ≤ sv.profile.ramTotalMb.toNat

variable {p : Profile} {sv : Server} {buckets : List Settings} {s t : Settings} {n : Name}
  {body : Bytes}

theorem dispatch_ok {e : Endpoint} {r : Response} {st : Store}
    (h : sv.perform e body = .ok (r, st)) : sv.dispatch e body = (r, { sv with store := st }) := by
  simp only [dispatch, h]

theorem dispatch_error {e : Endpoint} {rejection : Rejection}
    (h : sv.perform e body = .error rejection) :
    sv.dispatch e body = (rejection.response, sv) := by
  simp only [dispatch, h]

/-- Only a record that does not decode is answered with code 500. -/
theorem Rejection.code_status_ne {rejection : Rejection}
    (h : ∀ fault, rejection ≠ .registry (.undecodable fault)) : rejection.status.code ≠ 500 := by
  cases rejection with
  | body fault => exact (by decide : Status.badRequest.code ≠ 500)
  | nameMismatch inBody inPath => exact (by decide : Status.badRequest.code ≠ 500)
  | registry refusal =>
    cases refusal with
    | undecodable fault => exact absurd rfl (h fault)
    | bucketExists n => exact (by decide : Status.conflict.code ≠ 500)
    | bucketMissing n => exact (by decide : Status.notFound.code ≠ 500)
    | _ => exact (by decide : Status.badRequest.code ≠ 500)

theorem profile_dispatch (sv : Server) (e : Endpoint) (body : Bytes) :
    (sv.dispatch e body).2.profile = sv.profile := by
  cases h : sv.perform e body with
  | ok done => rw [dispatch_ok h]
  | error rejection => rw [dispatch_error h]

theorem perform_listBuckets (h : Keeps sv.store buckets) (body : Bytes) :
    sv.perform .listBuckets body = .ok (⟨.ok, encodeBucketList buckets⟩, sv.store) := by
  simp only [perform, h.list, mapError_ok, ok_bind]

theorem perform_getBucket (h : Keeps sv.store buckets) (n : Name) (body : Bytes) :
    sv.perform (.getBucket n) body =
      match found buckets n with
      | some s => .ok (⟨.ok, encodeSettings s⟩, sv.store)
      | none => .error (.registry (.bucketMissing n)) := by
  have hget := h.get n
  cases hfound : found buckets n with
  | none => simp only [perform, hget, hfound, mapError_ok, ok_bind]
  | some s => simp only [perform, hget, hfound, mapError_ok, ok_bind]

theorem dispatch_listBuckets (h : Keeps sv.store buckets) (body : Bytes) :
    sv.dispatch .listBuckets body = (⟨.ok, encodeBucketList buckets⟩, sv) :=
  dispatch_ok (perform_listBuckets h body)

theorem dispatch_getBucket (h : Keeps sv.store buckets) (hfound : found buckets n = some s)
    (body : Bytes) : sv.dispatch (.getBucket n) body = (⟨.ok, encodeSettings s⟩, sv) := by
  have hperform := perform_getBucket h n body
  simp only [hfound] at hperform
  exact dispatch_ok hperform

theorem holds_start (p : Profile) : Holds (start p) [] :=
  ⟨Registry.keeps_empty, nofun, Nat.zero_le _⟩

namespace Holds

theorem total_lt (h : Holds sv buckets) : totalMb buckets < UInt64.size :=
  Nat.lt_of_le_of_lt h.fits sv.profile.ramTotalMb.toNat_lt_size

theorem toNat_total (h : Holds sv buckets) :
    (UInt64.ofNat (totalMb buckets)).toNat = totalMb buckets :=
  UInt64.toNat_ofNat_of_lt' h.total_lt

theorem write (h : Holds sv buckets) (ht : t.Storable)
    (hfit : totalMb buckets - quotaOf (found buckets t.name) + t.quotaMb.toNat ≤
      sv.profile.ramTotalMb.toNat) :
    Holds { sv with store := Registry.write sv.store t } (put t buckets) where
  keeps := h.keeps.write t
  storable := by
    intro u hu
    rcases Registry.mem_put hu with rfl | hu
    · exact ht
    · exact h.storable u hu
  fits := by
    have hsum := Registry.totalMb_put (s := t) h.keeps.ordered
    have hle := Registry.quotaOf_found_le buckets t.name
    change totalMb (put t buckets) ≤ sv.profile.ramTotalMb.toNat
    omega

/-- A bucket that is new is stored within what is left. -/
theorem create (h : Holds sv buckets) (hs : s.Valid) (hnew : ¬(found buckets s.name).isSome)
    (hfit : totalMb buckets + s.quotaMb.toNat ≤ sv.profile.ramTotalMb.toNat) :
    Holds { sv with store := Registry.write sv.store s.normal } (put s.normal buckets) := by
  refine h.write hs.storable_normal ?_
  rw [Settings.normal_name, Settings.normal_quotaMb, Option.not_isSome_iff_eq_none.mp hnew]
  exact hfit

/-- A bucket that is there gives its quota back before the new one is taken. -/
theorem update (h : Holds sv buckets) (hs : s.Valid) (hfound : found buckets s.name = some t)
    (hfit : totalMb buckets - t.quotaMb.toNat + s.quotaMb.toNat ≤ sv.profile.ramTotalMb.toNat) :
    Holds { sv with store := Registry.write sv.store s.normal } (put s.normal buckets) := by
  refine h.write hs.storable_normal ?_
  rw [Settings.normal_name, Settings.normal_quotaMb, hfound]
  exact hfit

theorem erase (h : Holds sv buckets) (n : Name) :
    Holds { sv with store := sv.store.erase (Registry.key n) } (without n buckets) where
  keeps := h.keeps.erase n
  storable := fun u hu => h.storable u (List.mem_filter.mp hu).1
  fits := Nat.le_trans (Registry.totalMb_without_le n buckets) h.fits

/-! ## What the buckets decide -/

theorem perform_listBuckets (h : Holds sv buckets) (body : Bytes) :
    sv.perform .listBuckets body = .ok (⟨.ok, encodeBucketList buckets⟩, sv.store) :=
  Server.perform_listBuckets h.keeps body

theorem perform_getBucket (h : Holds sv buckets) (n : Name) (body : Bytes) :
    sv.perform (.getBucket n) body =
      match found buckets n with
      | some s => .ok (⟨.ok, encodeSettings s⟩, sv.store)
      | none => .error (.registry (.bucketMissing n)) :=
  Server.perform_getBucket h.keeps n body

theorem perform_createBucket (h : Holds sv buckets) (hbody : decodeSettings body = .ok s) :
    sv.perform .createBucket body =
      if (found buckets s.name).isSome then .error (.registry (.bucketExists s.name))
      else if totalMb buckets + s.quotaMb.toNat ≤ sv.profile.ramTotalMb.toNat then
        .ok (⟨.accepted, encodeSettings s.normal⟩, Registry.write sv.store s.normal)
      else .error (.registry (.settings (.overCapacity s.quotaMb
        (sv.profile.ramTotalMb.toNat - totalMb buckets)))) := by
  have hs := Api.valid_of_decodeSettings hbody
  simp only [perform, readSettings, hbody, mapError_ok, ok_bind, capacityMb,
    h.keeps.insert h.total_lt hs]
  split
  · rfl
  · split <;> rfl

theorem perform_updateBucket (h : Holds sv buckets) (hbody : decodeSettings body = .ok s) :
    sv.perform (.updateBucket s.name) body =
      match found buckets s.name with
      | none => .error (.registry (.bucketMissing s.name))
      | some previous =>
        if previous.kind ≠ s.kind then
          .error (.registry (.settings (.kindChange s.name previous.kind s.kind)))
        else if totalMb buckets - previous.quotaMb.toNat + s.quotaMb.toNat ≤
            sv.profile.ramTotalMb.toNat then
          .ok (⟨.accepted, encodeSettings s.normal⟩, Registry.write sv.store s.normal)
        else .error (.registry (.settings (.overCapacity s.quotaMb
          (sv.profile.ramTotalMb.toNat - (totalMb buckets - previous.quotaMb.toNat))))) := by
  have hs := Api.valid_of_decodeSettings hbody
  simp only [perform, readSettings, hbody, mapError_ok, ok_bind, capacityMb, ne_eq,
    not_true_eq_false, if_false, h.keeps.update h.total_lt hs]
  cases found buckets s.name with
  | none => rfl
  | some previous =>
    dsimp only
    split
    · rfl
    · split <;> rfl

theorem perform_deleteBucket (h : Holds sv buckets) (n : Name) (body : Bytes) :
    sv.perform (.deleteBucket n) body =
      if (found buckets n).isSome then .ok (⟨.ok, []⟩, sv.store.erase (Registry.key n))
      else .error (.registry (.bucketMissing n)) := by
  simp only [perform, h.keeps.remove]
  split <;> rfl

theorem toBytes_error {mb : UInt64} {refusal : Refusal} (h : toBytes mb = .error refusal) :
    refusal = .settings (.bytesTooLarge mb) ∧ UInt64.size ≤ mb.toNat * bytesPerMb := by
  unfold toBytes at h
  dsimp only at h
  split at h
  · cases h
  · next hlarge =>
    cases h
    exact ⟨rfl, Nat.le_of_not_lt hlarge⟩

/-- A snapshot fails only where an amount of the node does not fit as bytes. -/
theorem snapshot_error (h : Holds sv buckets) {refusal : Refusal}
    (herror : sv.profile.snapshot sv.diskSpace sv.store = .error refusal) :
    ∃ mb, refusal = .settings (.bytesTooLarge mb) ∧ Oversized sv.profile buckets mb := by
  rw [Profile.snapshot, h.keeps.quotaUsedMb h.total_lt, ok_bind] at herror
  rcases bind_eq_error.mp herror with herror | ⟨used, -, herror⟩
  · obtain ⟨rfl, hlarge⟩ := toBytes_error herror
    exact ⟨_, rfl, .inl h.toNat_total, hlarge⟩
  rcases bind_eq_error.mp herror with herror | ⟨ramTotal, -, herror⟩
  · obtain ⟨rfl, hlarge⟩ := toBytes_error herror
    exact ⟨_, rfl, .inr (.inl rfl), hlarge⟩
  rcases bind_eq_error.mp herror with herror | ⟨diskTotal, -, herror⟩
  · obtain ⟨rfl, hlarge⟩ := toBytes_error herror
    exact ⟨_, rfl, .inr (.inr rfl), hlarge⟩
  cases herror

theorem dispatch_listBuckets (h : Holds sv buckets) (body : Bytes) :
    sv.dispatch .listBuckets body = (⟨.ok, encodeBucketList buckets⟩, sv) :=
  Server.dispatch_listBuckets h.keeps body

theorem dispatch_getBucket (h : Holds sv buckets) (hfound : found buckets n = some s)
    (body : Bytes) : sv.dispatch (.getBucket n) body = (⟨.ok, encodeSettings s⟩, sv) :=
  Server.dispatch_getBucket h.keeps hfound body

/-- A bucket that is new and fits is registered, and shown as it is stored. -/
theorem dispatch_create (h : Holds sv buckets) (hbody : decodeSettings body = .ok s)
    (hnew : ¬(found buckets s.name).isSome)
    (hfit : totalMb buckets + s.quotaMb.toNat ≤ sv.profile.ramTotalMb.toNat) :
    sv.dispatch .createBucket body =
      (⟨.accepted, encodeSettings s.normal⟩,
        { sv with store := Registry.write sv.store s.normal }) := by
  have hperform := h.perform_createBucket hbody
  rw [if_neg hnew, if_pos hfit] at hperform
  exact dispatch_ok hperform

/-! ## What comes of a request -/

/-- A request comes to a good end: it is done and what is stored then is held, or it is rejected,
but not for a record that does not decode. -/
def EndsWell (sv : Server) : Except Rejection (Response × Store) → Prop
  | .ok (response, store) =>
    response.status.isSuccess = true ∧ ∃ buckets, Holds { sv with store } buckets
  | .error rejection => ∀ fault, rejection ≠ .registry (.undecodable fault)

theorem endsWell_clusterInfo (h : Holds sv buckets) (body : Bytes) :
    EndsWell sv (sv.perform .clusterInfo body) := by
  cases hinfo : sv.profile.snapshot sv.diskSpace sv.store with
  | ok info =>
    simp only [perform, hinfo, mapError_ok, ok_bind]
    exact ⟨rfl, buckets, h⟩
  | error refusal =>
    obtain ⟨mb, rfl, -⟩ := h.snapshot_error hinfo
    simp only [perform, hinfo, mapError_error, error_bind]
    exact nofun

theorem endsWell_createBucket (h : Holds sv buckets) (body : Bytes) :
    EndsWell sv (sv.perform .createBucket body) := by
  cases hbody : decodeSettings body with
  | error fault =>
    simp only [perform, readSettings, hbody, mapError_error, error_bind]
    exact nofun
  | ok s =>
    have hs := Api.valid_of_decodeSettings hbody
    rw [h.perform_createBucket hbody]
    split
    · exact nofun
    · next hnew =>
      split
      · next hfit => exact ⟨rfl, _, h.create hs hnew hfit⟩
      · exact nofun

theorem endsWell_updateBucket (h : Holds sv buckets) (n : Name) (body : Bytes) :
    EndsWell sv (sv.perform (.updateBucket n) body) := by
  cases hbody : decodeSettings body with
  | error fault =>
    simp only [perform, readSettings, hbody, mapError_error, error_bind]
    exact nofun
  | ok s =>
    have hs := Api.valid_of_decodeSettings hbody
    by_cases hname : s.name = n
    · subst hname
      rw [h.perform_updateBucket hbody]
      split
      · exact nofun
      · next previous hfound =>
        split
        · exact nofun
        · split
          · next hfit => exact ⟨rfl, _, h.update hs hfound hfit⟩
          · exact nofun
    · simp only [perform, readSettings, hbody, mapError_ok, ok_bind, ne_eq, hname,
        not_false_eq_true, if_true]
      exact nofun

theorem endsWell (h : Holds sv buckets) (e : Endpoint) (body : Bytes) :
    EndsWell sv (sv.perform e body) := by
  cases e with
  | clusterInfo => exact h.endsWell_clusterInfo body
  | listBuckets =>
    rw [h.perform_listBuckets]
    exact ⟨rfl, buckets, h⟩
  | getBucket n =>
    rw [h.perform_getBucket]
    split
    · exact ⟨rfl, buckets, h⟩
    · exact nofun
  | createBucket => exact h.endsWell_createBucket body
  | updateBucket n => exact h.endsWell_updateBucket n body
  | deleteBucket n =>
    rw [h.perform_deleteBucket]
    split
    · exact ⟨rfl, without n buckets, h.erase n⟩
    · exact nofun

theorem dispatch (h : Holds sv buckets) (e : Endpoint) (body : Bytes) :
    (sv.dispatch e body).1.status.code ≠ 500 ∧ ∃ buckets, Holds (sv.dispatch e body).2 buckets := by
  have hend := h.endsWell e body
  cases hperform : sv.perform e body with
  | error rejection =>
    rw [hperform] at hend
    rw [dispatch_error hperform]
    exact ⟨Rejection.code_status_ne hend, buckets, h⟩
  | ok done =>
    rw [hperform] at hend
    obtain ⟨hsuccess, hheld⟩ := hend
    rw [dispatch_ok hperform]
    exact ⟨Api.Status.code_ne_of_isSuccess hsuccess, hheld⟩

/-- A bucket that is there may always be set to something of its kind and no larger. -/
theorem accepts_update (h : Holds sv buckets) (hbody : decodeSettings body = .ok s)
    (hfound : found buckets s.name = some t) (hkind : s.kind = t.kind)
    (hquota : s.quotaMb ≤ t.quotaMb) :
    (sv.dispatch (.updateBucket s.name) body).1.status = .accepted := by
  have hfit : totalMb buckets - t.quotaMb.toNat + s.quotaMb.toNat ≤
      sv.profile.ramTotalMb.toNat := by
    have hle := Registry.quotaMb_le_totalMb (Registry.mem_of_found hfound)
    have hfits := h.fits
    have hquota := UInt64.le_iff_toNat_le.mp hquota
    omega
  have hperform := h.perform_updateBucket hbody
  simp only [hfound, hkind, ne_eq, not_true_eq_false, if_false, if_pos hfit] at hperform
  rw [dispatch_ok hperform]

end Holds

/-! ## Runs -/

/-- The states a server with a profile comes to, whatever requests it gets, and whatever the storage
engine makes of its disk in the meantime. -/
inductive Reachable (p : Profile) : Server → Prop
  | start : Reachable p (start p)
  | dispatch {sv : Server} (h : Reachable p sv) (e : Endpoint) (body : Bytes) :
      Reachable p (sv.dispatch e body).2
  | engine {sv : Server} (h : Reachable p sv) (diskSpace : UInt64) :
      Reachable p { sv with diskSpace }

theorem Reachable.holds (h : Reachable p sv) :
    sv.profile = p ∧ ∃ buckets, Holds sv buckets := by
  induction h with
  | start => exact ⟨rfl, [], holds_start p⟩
  | dispatch _ e body ih =>
    obtain ⟨hprofile, buckets, hheld⟩ := ih
    obtain ⟨-, hheld⟩ := hheld.dispatch e body
    exact ⟨(profile_dispatch _ e body).trans hprofile, hheld⟩
  | engine _ diskSpace ih =>
    obtain ⟨hprofile, buckets, hheld⟩ := ih
    exact ⟨hprofile, buckets, hheld.keeps, hheld.storable, hheld.fits⟩

/-- **What holds in every state that a server reaches.** Each entry of the store is under the key of
the settings it decodes to, and those are within bounds and normal. Their quotas add up to no more
than the memory of the node. No request is answered with code 500, and an update of a bucket that
is there, with its kind and no larger a quota, is accepted. -/
theorem reachable_sound (h : Reachable p sv) :
    (∀ e ∈ sv.store.entries, ∃ s, Registry.decode e.2 = .ok s ∧ e.1 = Registry.key s.name ∧
      100 ≤ s.quotaMb ∧ s.replicas ≤ 3 ∧
      (s.kind = .memcached → s.replicas = 0 ∧ s.indexReplicas = false)) ∧
    (∃ buckets, (sv.store.entries.mapM fun e => Registry.decode e.2) = .ok buckets ∧
      totalMb buckets ≤ p.ramTotalMb.toNat ∧
      Registry.quotaUsedMb sv.store = .ok (totalMb buckets)) ∧
    (∀ e body, (sv.dispatch e body).1.status.code ≠ 500) ∧
    ∀ n body s t, decodeSettings body = .ok s → s.name = n →
      Registry.get sv.store n = .ok (some t) → s.kind = t.kind → s.quotaMb ≤ t.quotaMb →
      (sv.dispatch (.updateBucket n) body).1.status = .accepted := by
  obtain ⟨rfl, buckets, hheld⟩ := h.holds
  refine ⟨?_, ⟨buckets, ?_, hheld.fits, hheld.keeps.quotaUsedMb hheld.total_lt⟩, ?_, ?_⟩
  · intro e he
    rw [hheld.keeps] at he
    obtain ⟨s, hs, rfl⟩ := List.mem_map.mp he
    have hstorable := hheld.storable s hs
    exact ⟨s, Registry.decode_toRecord s, rfl, hstorable.valid.quota, hstorable.valid.replicas,
      hstorable.cache⟩
  · rw [hheld.keeps]
    exact mapM_map_eq_ok fun s _ => Registry.decode_toRecord s
  · intro e body
    exact (hheld.dispatch e body).1
  · rintro n body s t hbody rfl hget hkind hquota
    rw [hheld.keeps.get] at hget
    exact hheld.accepts_update hbody (Except.ok.inj hget) hkind hquota

/-- A node with one bucket that takes all its memory. -/
def fullNode : Server := ((start {}).dispatch .createBucket (encodeSettings Api.sampleSettings)).2

/-- Nothing more fits, yet the bucket may be set to what it is set to. -/
theorem reachable_sound_fullNode :
    Reachable {} fullNode ∧ fullNode.store.entries = [entryOf Api.sampleSettings.normal] ∧
    (∀ e body, (fullNode.dispatch e body).1.status.code ≠ 500) ∧
    (fullNode.dispatch (.updateBucket Api.sampleSettings.name)
      (encodeSettings Api.sampleSettings)).1.status = .accepted := by
  have hreach : Reachable {} fullNode := .dispatch .start .createBucket _
  have hentries : fullNode.store.entries = [entryOf Api.sampleSettings.normal] := by
    decide +kernel
  have hkeeps : Keeps fullNode.store [Api.sampleSettings.normal] := hentries
  have hsize : (encodeSettings Api.sampleSettings).length ≤ Api.maxBodySize := by
    decide +kernel
  have hbody : decodeSettings (encodeSettings Api.sampleSettings) = .ok Api.sampleSettings := by
    rw [Api.decodeSettings_encodeSettings Api.valid_sampleSettings, Api.withinLimit_of_le hsize]
  obtain ⟨-, -, hcode, hupdate⟩ := reachable_sound hreach
  refine ⟨hreach, hentries, hcode, hupdate _ _ _ _ hbody rfl (hkeeps.get _) rfl ?_⟩
  decide

end Server

end BucketAdmin
