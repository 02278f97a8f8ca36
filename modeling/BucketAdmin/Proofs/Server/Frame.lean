import BucketAdmin.Proofs.Server.Invariant

/-!
# What a request may change

Nothing is assumed of the store here, nor of the bytes in the body. A request that is done has one
of four effects on the store (`Effect`, `perform_effect`): none, one entry that was not there, one
entry that was there written anew, or one entry dropped. A request that is not done has none. So
the answer tells which entries of the store may differ (`Framed`).
-/

namespace BucketAdmin.Server

open Api (Endpoint Response Status decodeSettings encodeSettings)
open Bucket (Name Settings)
open Registry (Store entryOf key write)

variable {sv : Server} {e : Endpoint} {body : Bytes}

/-- The bucket a request is about: the one in its path, or in its body where one is registered. -/
def subject? (e : Endpoint) (body : Bytes) : Option Name :=
  match e with
  | .createBucket => (decodeSettings body).toOption.map (·.name)
  | .clusterInfo | .listBuckets | .getBucket _ | .updateBucket _ | .deleteBucket _ => e.name?

/-- What a request that is done makes of the store. -/
inductive Effect (st : Store) : Endpoint → Bytes → Response → Store → Prop
  | clusterInfo {body content : Bytes} : Effect st .clusterInfo body ⟨.ok, content⟩ st
  | listBuckets {body content : Bytes} : Effect st .listBuckets body ⟨.ok, content⟩ st
  | getBucket {n : Name} {body content : Bytes} : Effect st (.getBucket n) body ⟨.ok, content⟩ st
  | createBucket {body content : Bytes} {s : Settings} (hbody : decodeSettings body = .ok s)
      (hnew : st.get? (key s.name) = none) :
      Effect st .createBucket body ⟨.accepted, content⟩ (write st s.normal)
  | updateBucket {body content : Bytes} {s : Settings} (hbody : decodeSettings body = .ok s)
      (hthere : (st.get? (key s.name)).isSome) :
      Effect st (.updateBucket s.name) body ⟨.accepted, content⟩ (write st s.normal)
  | deleteBucket {n : Name} {body content : Bytes} (hthere : (st.get? (key n)).isSome) :
      Effect st (.deleteBucket n) body ⟨.ok, content⟩ (st.erase (key n))

theorem isSome_of_get {st : Store} {n : Name} {s : Settings}
    (h : Registry.get st n = .ok (some s)) : (st.get? (key n)).isSome := by
  obtain ⟨record, hrecord, -⟩ := Registry.get_eq_some h
  rw [hrecord]
  rfl

theorem perform_effect {r : Response} {st : Store} (h : sv.perform e body = .ok (r, st)) :
    Effect sv.store e body r st := by
  cases e with
  | clusterInfo =>
    obtain ⟨info, -, h⟩ := bind_eq_ok.mp h
    cases h
    exact .clusterInfo
  | listBuckets =>
    obtain ⟨buckets, -, h⟩ := bind_eq_ok.mp h
    cases h
    exact .listBuckets
  | getBucket n =>
    obtain ⟨found, -, h⟩ := bind_eq_ok.mp h
    cases found with
    | none => cases h
    | some s =>
      cases h
      exact .getBucket
  | createBucket =>
    obtain ⟨s, hbody, h⟩ := bind_eq_ok.mp h
    obtain ⟨⟨t, st'⟩, hinsert, h⟩ := bind_eq_ok.mp h
    cases h
    have hbody := mapError_eq_ok.mp hbody
    obtain ⟨hget, hnormal, -, rfl⟩ := Registry.insert_eq_ok (mapError_eq_ok.mp hinsert)
    obtain rfl := Registry.eq_normal_of_normalize hnormal
    exact .createBucket hbody (Registry.get_eq_none hget)
  | updateBucket n =>
    obtain ⟨s, hbody, h⟩ := bind_eq_ok.mp h
    have hbody := mapError_eq_ok.mp hbody
    by_cases hname : s.name = n
    · subst hname
      simp only [ne_eq, not_true_eq_false, if_false] at h
      obtain ⟨⟨t, st'⟩, hupdate, h⟩ := bind_eq_ok.mp h
      cases h
      obtain ⟨previous, hget, -, hnormal, -, rfl⟩ :=
        Registry.update_eq_ok (mapError_eq_ok.mp hupdate)
      obtain rfl := Registry.eq_normal_of_normalize hnormal
      exact .updateBucket hbody (isSome_of_get hget)
    · -- a body that names another bucket than the path is refused before the registry is asked
      simp only [ne_eq, hname, not_false_eq_true, if_true] at h
      cases h
  | deleteBucket n =>
    obtain ⟨⟨removed, st'⟩, hremove, h⟩ := bind_eq_ok.mp h
    rcases Registry.remove_eq_ok (mapError_eq_ok.mp hremove) with
      ⟨rfl, -, rfl⟩ | ⟨rfl, ⟨s, hget⟩, rfl⟩
    · cases h
    · cases h
      exact .deleteBucket (isSome_of_get hget)

theorem get?_write (st : Store) (s : Settings) (k : Bytes) :
    (write st s.normal).get? k =
      if k = key s.name then some s.normal.toRecord else st.get? k := by
  rw [write, Store.get?_insert, Settings.normal_name]

theorem Effect.get?_of_ne {st st' : Store} {r : Response} (h : Effect st e body r st') {m : Name}
    (hm : subject? e body ≠ some m) : st'.get? (key m) = st.get? (key m) := by
  have hkey : ∀ {n : Name}, n ≠ m → key m ≠ key n := fun hne hk =>
    hne (Registry.key_injective hk).symm
  cases h with
  | clusterInfo | listBuckets | getBucket => rfl
  | createBucket hbody hnew =>
    rw [get?_write, if_neg (hkey fun hname => hm ?_)]
    rw [subject?, hbody, ← hname]
    rfl
  | updateBucket hbody hthere =>
    rw [get?_write, if_neg (hkey fun hname => hm (congrArg some hname))]
  | deleteBucket hthere =>
    rw [Store.get?_erase, if_neg (hkey fun hname => hm (congrArg some hname))]

/-- No refusal has a status that says the request was done. -/
theorem Rejection.isSuccess_status (rejection : Rejection) :
    rejection.status.isSuccess = false := by
  cases rejection with
  | body fault => rfl
  | nameMismatch inBody inPath => rfl
  | registry refusal => cases refusal <;> rfl

theorem Rejection.status_ne (rejection : Rejection) {status : Status}
    (h : status.isSuccess = true) : rejection.status ≠ status := by
  rintro rfl
  rw [rejection.isSuccess_status] at h
  cases h

/-- The answer to a request, and the entries that may differ afterwards. -/
structure Framed (sv : Server) (e : Endpoint) (body : Bytes) (r : Response) (after : Server) :
    Prop where
  profile : after.profile = sv.profile
  /-- Requests that ask for something, or are not done, change nothing. -/
  unchanged : e = .clusterInfo ∨ e = .listBuckets ∨ (∃ n, e = .getBucket n) ∨
    r.status.isSuccess = false → after.store = sv.store
  /-- A bucket that is registered is the one in the body and was not there. -/
  created : e = .createBucket → r.status = .accepted → ∃ s, decodeSettings body = .ok s ∧
    sv.store.get? (key s.name) = none ∧ ∀ k, after.store.get? k =
      if k = key s.name then some s.normal.toRecord else sv.store.get? k
  /-- A bucket that is updated was there and is the one in the path. -/
  updated : ∀ n, e = .updateBucket n → r.status = .accepted → ∃ s, decodeSettings body = .ok s ∧
    s.name = n ∧ (sv.store.get? (key n)).isSome ∧ ∀ k, after.store.get? k =
      if k = key n then some s.normal.toRecord else sv.store.get? k
  deleted : ∀ n, e = .deleteBucket n → r.status = .ok →
    (sv.store.get? (key n)).isSome ∧ ∀ k, after.store.get? k =
      if k = key n then none else sv.store.get? k
  /-- The entries of all other buckets stay. -/
  others : ∀ m, subject? e body ≠ some m → after.store.get? (key m) = sv.store.get? (key m)

theorem Effect.framed {r : Response} {st : Store} (h : Effect sv.store e body r st) :
    Framed sv e body r { sv with store := st } where
  profile := rfl
  unchanged := by
    rintro (rfl | rfl | ⟨n, rfl⟩ | hstatus)
    · cases h
      rfl
    · cases h
      rfl
    · cases h
      rfl
    · cases h <;> cases hstatus
  created := by
    rintro rfl -
    cases h with
    | createBucket hbody hnew => exact ⟨_, hbody, hnew, get?_write sv.store _⟩
  updated := by
    rintro n rfl -
    cases h with
    | updateBucket hbody hthere => exact ⟨_, hbody, rfl, hthere, get?_write sv.store _⟩
  deleted := by
    rintro n rfl -
    cases h with
    | deleteBucket hthere => exact ⟨hthere, Store.get?_erase sv.store (key n)⟩
  others := fun _ => h.get?_of_ne

theorem framed_response (sv : Server) (e : Endpoint) (body : Bytes) (rejection : Rejection) :
    Framed sv e body rejection.response sv where
  profile := rfl
  unchanged := fun _ => rfl
  created := fun _ hstatus => absurd hstatus (rejection.status_ne rfl)
  updated := fun _ _ hstatus => absurd hstatus (rejection.status_ne rfl)
  deleted := fun _ _ hstatus => absurd hstatus (rejection.status_ne rfl)
  others := fun _ _ => rfl

/-- **No request changes more than the entry it is about**, and only one that is done changes
anything, in any state and whatever its body. -/
theorem dispatch_framed (sv : Server) (e : Endpoint) (body : Bytes) :
    Framed sv e body (sv.dispatch e body).1 (sv.dispatch e body).2 := by
  cases h : sv.perform e body with
  | ok done =>
    rw [dispatch_ok h]
    exact (perform_effect h).framed
  | error rejection =>
    rw [dispatch_error h]
    exact framed_response sv e body rejection

/-- A bucket is registered, set to another port, and dropped. -/
example :
    let s := Settings.blank ⟨"lone", by decide, by decide, by decide⟩
    let moved := { s with port := 11211 }
    let created := (start {}).dispatch .createBucket (encodeSettings s)
    let updated := created.2.dispatch (.updateBucket s.name) (encodeSettings moved)
    let deleted := updated.2.dispatch (.deleteBucket s.name) []
    (created.1.status = .accepted ∧ created.2.store.entries = [entryOf s]) ∧
    (updated.1.status = .accepted ∧ updated.2.store.entries = [entryOf moved]) ∧
    (deleted.1.status = .ok ∧ deleted.2.store.entries = []) := by
  decide +kernel

end BucketAdmin.Server
