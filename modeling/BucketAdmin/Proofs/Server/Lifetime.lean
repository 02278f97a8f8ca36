import BucketAdmin.Proofs.Server.Frame

/-!
# The kind of a bucket

A bucket keeps the kind it was registered with until it is removed. Three things make it so, and
one request is enough to see each (`dispatch_keeps_kind`): registering refuses a name that is
taken, an update is refused where the kind differs from the one stored, and a request for another
name leaves the record alone. What is stored in place of the settings in a body has their kind.
Any number of requests follows by induction (`kind_kept`). Nothing is assumed of the state they
start from, so it may be any point of a run.
-/

namespace BucketAdmin

namespace Registry

open Bucket (Name Settings)

variable {st st' : Store} {n : Name} {s : Settings}

theorem get_congr (h : st'.get? (key n) = st.get? (key n)) : get st' n = get st n := by
  rw [get, get, h]

theorem get_of_record (h : st.get? (key n) = some s.toRecord) : get st n = .ok (some s) := by
  simp only [get, h, decode_toRecord]
  rfl

end Registry

namespace Server

open Api (Endpoint Response decodeSettings encodeSettings)
open Bucket (Name Settings)
open Registry (Store key)

variable {sv : Server} {e : Endpoint} {body : Bytes} {r : Response} {st : Store} {n : Name}
  {s t : Settings}

theorem kind_of_perform_update (h : sv.perform (.updateBucket s.name) body = .ok (r, st))
    (hbody : decodeSettings body = .ok s) (ht : Registry.get sv.store s.name = .ok (some t)) :
    t.kind = s.kind := by
  obtain ⟨s', hbody', h⟩ := bind_eq_ok.mp h
  obtain rfl := Except.ok.inj (hbody.symm.trans (mapError_eq_ok.mp hbody'))
  simp only [ne_eq, not_true_eq_false, if_false] at h
  obtain ⟨⟨stored, st'⟩, hupdate, -⟩ := bind_eq_ok.mp h
  obtain ⟨previous, hget, hkind, -⟩ := Registry.update_eq_ok (mapError_eq_ok.mp hupdate)
  obtain rfl := Option.some.inj (Except.ok.inj (ht.symm.trans hget))
  exact hkind

/-- A bucket that is there still is after a request that is done, and has its kind, unless the
request removes it. -/
theorem perform_keeps_kind (h : sv.perform e body = .ok (r, st))
    (hs : Registry.get sv.store n = .ok (some s)) (hkeep : e ≠ .deleteBucket n) :
    ∃ t, Registry.get st n = .ok (some t) ∧ t.kind = s.kind := by
  have hthere := isSome_of_get hs
  cases perform_effect h with
  | clusterInfo | listBuckets | getBucket => exact ⟨s, hs, rfl⟩
  | @createBucket _ _ u hbody hnew =>
    have hne : key n ≠ key u.name := by
      intro hkey
      rw [hkey, hnew] at hthere
      cases hthere
    refine ⟨s, ?_, rfl⟩
    rw [Registry.get_congr ((get?_write _ _ _).trans (if_neg hne)), hs]
  | @updateBucket _ _ u hbody _ =>
    by_cases hname : n = u.name
    · subst hname
      refine ⟨u.normal, Registry.get_of_record ((get?_write _ _ _).trans (if_pos rfl)), ?_⟩
      rw [Settings.normal_kind, kind_of_perform_update h hbody hs]
    · have hne : key n ≠ key u.name := fun hkey => hname (Registry.key_injective hkey)
      refine ⟨s, ?_, rfl⟩
      rw [Registry.get_congr ((get?_write _ _ _).trans (if_neg hne)), hs]
  | @deleteBucket m _ _ _ =>
    have hne : key n ≠ key m := by
      intro hkey
      obtain rfl := Registry.key_injective hkey
      exact hkeep rfl
    refine ⟨s, ?_, rfl⟩
    rw [Registry.get_congr ((Store.get?_erase _ _ _).trans (if_neg hne)), hs]

theorem dispatch_keeps_kind (hs : Registry.get sv.store n = .ok (some s))
    (hkeep : e = .deleteBucket n → (sv.dispatch e body).1.status ≠ .ok) :
    ∃ t, Registry.get (sv.dispatch e body).2.store n = .ok (some t) ∧ t.kind = s.kind := by
  cases h : sv.perform e body with
  | error rejection =>
    rw [dispatch_error h]
    exact ⟨s, hs, rfl⟩
  | ok done =>
    obtain ⟨r, st⟩ := done
    rw [dispatch_ok h] at hkeep ⊢
    refine perform_keeps_kind h hs ?_
    rintro rfl
    refine hkeep rfl ?_
    cases perform_effect h with
    | deleteBucket hthere => rfl

/-- A request, and the response to it. -/
structure Exchange where
  endpoint : Endpoint
  body : Bytes
  response : Response

/-- Do requests one after another. The result tells what was asked and answered, and the state at
the end. -/
def serve (sv : Server) : List (Endpoint × Bytes) → List Exchange × Server
  | [] => ([], sv)
  | (e, body) :: rest =>
    let (response, next) := sv.dispatch e body
    let (later, last) := next.serve rest
    (⟨e, body, response⟩ :: later, last)

/-- **The kind of a bucket is fixed until it is removed.** Whatever is asked of a server that has
the bucket, if no removal of it was answered with success then it is still there, with its kind. -/
theorem kind_kept (sv : Server) (requests : List (Endpoint × Bytes))
    (hs : Registry.get sv.store n = .ok (some s))
    (hkeep : ∀ x ∈ (sv.serve requests).1, x.endpoint = .deleteBucket n → x.response.status ≠ .ok) :
    ∃ t, Registry.get (sv.serve requests).2.store n = .ok (some t) ∧ t.kind = s.kind := by
  induction requests generalizing sv s with
  | nil => exact ⟨s, hs, rfl⟩
  | cons request rest ih =>
    obtain ⟨e, body⟩ := request
    obtain ⟨hfirst, hrest⟩ := List.forall_mem_cons.mp hkeep
    obtain ⟨t, ht, hkind⟩ := dispatch_keeps_kind hs hfirst
    obtain ⟨u, hu, hkind'⟩ := ih (sv.dispatch e body).2 ht hrest
    exact ⟨u, hu, hkind'.trans hkind⟩

/-- Attempts on the bucket of a full node: to make it another kind, to register it again as another
kind, to remove a bucket that is not there, and to make it smaller. -/
def attempts : List (Endpoint × Bytes) :=
  let s := Api.sampleSettings
  let other := encodeSettings { s with kind := .couchbase }
  [(.updateBucket s.name, other), (.createBucket, other),
    (.deleteBucket ⟨"d", by decide, by decide, by decide⟩, []),
    (.updateBucket s.name, encodeSettings { s with quotaMb := 100 })]

/-- Only the last attempt succeeds, and the bucket is still a cache. -/
theorem kind_kept_attempts :
    (fullNode.serve attempts).1.map (·.response.status) =
        [.badRequest, .conflict, .notFound, .accepted] ∧
      (fullNode.serve attempts).2.store ≠ fullNode.store ∧
      ∃ t, Registry.get (fullNode.serve attempts).2.store Api.sampleSettings.name =
        .ok (some t) ∧ t.kind = .memcached := by
  have hstart : Registry.get fullNode.store Api.sampleSettings.name =
      .ok (some Api.sampleSettings.normal) := by
    refine Registry.get_of_record ?_
    decide +kernel
  obtain ⟨hstatuses, hchanged, hothers⟩ : (fullNode.serve attempts).1.map (·.response.status) =
        [.badRequest, .conflict, .notFound, .accepted] ∧
      (fullNode.serve attempts).2.store ≠ fullNode.store ∧
      ∀ x ∈ (fullNode.serve attempts).1,
        x.endpoint = .deleteBucket Api.sampleSettings.name → x.response.status ≠ .ok := by
    decide +kernel
  exact ⟨hstatuses, hchanged, kind_kept fullNode attempts hstart hothers⟩

end Server

end BucketAdmin
