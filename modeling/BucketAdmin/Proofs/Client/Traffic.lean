import BucketAdmin.Client.Call
import BucketAdmin.Proofs.Server.Frame

/-!
# Calls in flight

Any number of managers share one server. A call puts one request in flight, with a number of its
own, and gives its caller a channel; nothing orders the requests, so any of them may come to the
server next (`Traffic.deliver?`). The server does it at once, and the channel of its call completes
with what the call makes of the response.

Whatever is issued and whatever comes next, the books stay in order (`Reachable.accounted`): each
number is in flight or was delivered, and never twice; the state of the server is that of the
deliveries done one after another; and a channel is completed exactly by the delivery of its own
request. One delivery registers a bucket, drops one, or leaves all of them as they are
(`registered_dispatch`), so the buckets there are those registered and not yet dropped
(`Reachable.creates_eq`).
-/

namespace BucketAdmin.Client

open Api (Endpoint Response decodeSettings encodeSettings)
open Bucket (Name Settings)
open Registry (Store key)

namespace Call

/-- The route of a call. -/
def endpoint : Call → Endpoint
  | .info => .clusterInfo
  | .buckets => .listBuckets
  | .bucket n | .hasBucket n => .getBucket n
  | .insertBucket _ => .createBucket
  | .updateBucket s => .updateBucket s.name
  | .removeBucket n => .deleteBucket n

/-- The body that goes with a call. -/
def body (c : Call) : Bytes := c.request.body.getD []

theorem endpoint_request (c : Call) : c.request.endpoint = .ok c.endpoint := by
  cases c <;> rfl

end Call

/-- A call that was issued, and the channel on which its caller is answered. -/
structure Issued where
  call : Call
  channel : Channel Answer

/-- A request that came to the server, by the number of its call, and the response to it. -/
structure Delivered where
  number : Nat
  call : Call
  response : Response

/-- A server and the calls made of it. -/
structure Traffic where
  server : Server
  /-- The calls issued, the first one at number 0. -/
  issued : List Issued
  /-- The numbers of the requests in flight. -/
  inFlight : List Nat
  /-- The requests delivered, latest first. -/
  delivered : List Delivered

namespace Traffic

/-- A server that stores nothing, and no calls yet. -/
def start (p : Server.Profile) : Traffic := ⟨.start p, [], [], []⟩

/-- Issue a call. -/
def issue (t : Traffic) (c : Call) : Traffic :=
  { t with
    issued := t.issued ++ [⟨c, .create c.context⟩]
    inFlight := t.issued.length :: t.inFlight }

/-- Deliver a request in flight: the server does it, and the channel of its call completes. -/
def deliver? (t : Traffic) (i : Nat) : Option Traffic :=
  if i ∈ t.inFlight then do
    let e ← t.issued[i]?
    let endpoint ← e.call.request.endpoint.toOption
    let (response, server) := t.server.dispatch endpoint (e.call.request.body.getD [])
    let channel ← e.channel.complete? (e.call.classify response)
    return {
      server := server
      issued := t.issued.set i { e with channel }
      inFlight := t.inFlight.erase i
      delivered := ⟨i, e.call, response⟩ :: t.delivered }
  else none

/-- Whatever comes of issuing calls and delivering requests, in any order, while the storage engine
makes what it likes of its disk. -/
inductive Reachable (p : Server.Profile) : Traffic → Prop
  | start : Reachable p (start p)
  | issue {t : Traffic} (h : Reachable p t) (c : Call) : Reachable p (t.issue c)
  | deliver {t t' : Traffic} (h : Reachable p t) {i : Nat} (hd : t.deliver? i = some t') :
      Reachable p t'
  | engine {t : Traffic} (h : Reachable p t) (diskSpace : UInt64) :
      Reachable p { t with server := { t.server with diskSpace } }

/-- The server is at the end of these deliveries, latest first, each answered as the state before it
has it. -/
inductive Replays (p : Server.Profile) : List Delivered → Server → Prop
  | start : Replays p [] (.start p)
  | next {ds : List Delivered} {d : Delivered} {sv sv' : Server} (h : Replays p ds sv)
      (hd : sv.dispatch d.call.endpoint d.call.body = (d.response, sv')) : Replays p (d :: ds) sv'
  | engine {ds : List Delivered} {sv : Server} (h : Replays p ds sv) (diskSpace : UInt64) :
      Replays p ds { sv with diskSpace }

/-- The books of some traffic are in order. -/
structure Accounted (p : Server.Profile) (t : Traffic) : Prop where
  replays : Replays p t.delivered t.server
  /-- No request is in flight twice, delivered twice, or in flight and delivered. -/
  once : (t.inFlight ++ t.delivered.map (·.number)).Nodup
  /-- Every call has put a request in flight, and nothing else has. -/
  numbered : ∀ i, i ∈ t.inFlight ++ t.delivered.map (·.number) ↔ i < t.issued.length
  waiting : ∀ i ∈ t.inFlight, ∃ c, t.issued[i]? = some ⟨c, .create c.context⟩
  completed : ∀ d ∈ t.delivered,
    t.issued[d.number]? = some ⟨d.call, .ready d.call.context (d.call.classify d.response)⟩

variable {p : Server.Profile} {t t' : Traffic} {i : Nat} {c : Call}

/-- The traffic after the request of a call was delivered. -/
def afterDelivery (t : Traffic) (i : Nat) (c : Call) : Traffic where
  server := (t.server.dispatch c.endpoint c.body).2
  issued := t.issued.set i
    ⟨c, .ready c.context (c.classify (t.server.dispatch c.endpoint c.body).1)⟩
  inFlight := t.inFlight.erase i
  delivered := ⟨i, c, (t.server.dispatch c.endpoint c.body).1⟩ :: t.delivered

theorem deliver?_eq (hi : i ∈ t.inFlight) (hc : t.issued[i]? = some ⟨c, .create c.context⟩) :
    t.deliver? i = some (t.afterDelivery i c) := by
  simp only [deliver?, if_pos hi, hc, Call.endpoint_request, Option.bind_eq_bind,
    Option.bind_some, Except.toOption]
  rfl

theorem mem_inFlight_of_deliver? (h : t.deliver? i = some t') : i ∈ t.inFlight := by
  unfold deliver? at h
  split at h
  · assumption
  · cases h

namespace Accounted

theorem start (p : Server.Profile) : (start p).Accounted p where
  replays := .start
  once := .nil
  numbered := fun _ => ⟨nofun, nofun⟩
  waiting := nofun
  completed := nofun

theorem issue (h : t.Accounted p) (c : Call) : (t.issue c).Accounted p where
  replays := h.replays
  once := by
    refine List.nodup_cons.mpr ⟨fun hmem => ?_, h.once⟩
    exact Nat.lt_irrefl _ ((h.numbered _).mp hmem)
  numbered := by
    intro i
    have hi := h.numbered i
    simp only [Traffic.issue, List.cons_append, List.mem_cons, List.length_append,
      List.length_singleton, hi]
    omega
  waiting := by
    intro i hi
    rcases List.mem_cons.mp hi with rfl | hi
    · exact ⟨c, by simp [Traffic.issue]⟩
    · obtain ⟨c', hc'⟩ := h.waiting i hi
      have hlt := (List.getElem?_eq_some_iff.mp hc').1
      exact ⟨c', by rw [Traffic.issue, List.getElem?_append_left hlt, hc']⟩
  completed := by
    intro d hd
    have hc := h.completed d hd
    have hlt := (List.getElem?_eq_some_iff.mp hc).1
    rw [Traffic.issue, List.getElem?_append_left hlt, hc]

/-- What is delivered leaves the requests in flight for those delivered. -/
theorem perm_afterDelivery (hi : i ∈ t.inFlight) :
    ((t.afterDelivery i c).inFlight ++ (t.afterDelivery i c).delivered.map (·.number)).Perm
      (t.inFlight ++ t.delivered.map (·.number)) := by
  change (t.inFlight.erase i ++ i :: t.delivered.map (·.number)).Perm _
  refine List.perm_middle.trans ?_
  exact (List.perm_cons_erase hi).symm.append_right _

theorem afterDelivery (h : t.Accounted p) (hi : i ∈ t.inFlight)
    (hc : t.issued[i]? = some ⟨c, .create c.context⟩) : (t.afterDelivery i c).Accounted p where
  replays := .next h.replays rfl
  once := (perm_afterDelivery hi).nodup_iff.mpr h.once
  numbered := by
    intro j
    rw [(perm_afterDelivery hi).mem_iff, h.numbered j, Traffic.afterDelivery, List.length_set]
  waiting := by
    intro j hj
    obtain ⟨hin, -, -⟩ := List.nodup_append.mp h.once
    obtain ⟨hne, hj⟩ := hin.mem_erase_iff.mp hj
    obtain ⟨c', hc'⟩ := h.waiting j hj
    exact ⟨c', by rw [Traffic.afterDelivery, List.getElem?_set_ne (Ne.symm hne), hc']⟩
  completed := by
    intro d hd
    rcases List.mem_cons.mp hd with rfl | hd
    · have hlt := (List.getElem?_eq_some_iff.mp hc).1
      exact List.getElem?_set_self hlt
    · obtain ⟨-, -, hapart⟩ := List.nodup_append.mp h.once
      have hne : i ≠ d.number := hapart i hi d.number (List.mem_map_of_mem hd)
      rw [Traffic.afterDelivery, List.getElem?_set_ne hne, h.completed d hd]

theorem deliver? (h : t.Accounted p) (hi : i ∈ t.inFlight) :
    ∃ c, t.issued[i]? = some ⟨c, .create c.context⟩ ∧
      t.deliver? i = some (t.afterDelivery i c) := by
  obtain ⟨c, hc⟩ := h.waiting i hi
  exact ⟨c, hc, deliver?_eq hi hc⟩

end Accounted

theorem Reachable.accounted (h : Reachable p t) : t.Accounted p := by
  induction h with
  | start => exact .start p
  | issue _ c ih => exact ih.issue c
  | deliver _ hd ih =>
    have hi := mem_inFlight_of_deliver? hd
    obtain ⟨c, hc, heq⟩ := ih.deliver? hi
    obtain rfl := Option.some.inj (heq.symm.trans hd)
    exact ih.afterDelivery hi hc
  | engine _ diskSpace ih =>
    exact ⟨ih.replays.engine diskSpace, ih.once, ih.numbered, ih.waiting, ih.completed⟩

end Traffic

/-! ## Buckets registered and dropped -/

namespace Delivered

/-- The delivery registered a bucket of that name. -/
def creates (n : Name) (d : Delivered) : Bool :=
  match d.call with
  | .insertBucket s => s.name = n ∧ d.response.status = .accepted
  | _ => false

/-- The delivery dropped the bucket of that name. -/
def deletes (n : Name) (d : Delivered) : Bool :=
  match d.call with
  | .removeBucket m => m = n ∧ d.response.status = .ok
  | _ => false

end Delivered

/-- How many buckets of that name there are. -/
def registered (sv : Server) (n : Name) : Nat := if (sv.store.get? (key n)).isSome then 1 else 0

section Conservation

variable {p : Server.Profile} {t : Traffic} {sv : Server} {n m : Name} {s : Settings}

theorem registered_write {st : Store} :
    registered { sv with store := Registry.write st s.normal } n =
      if s.name = n then 1 else registered { sv with store := st } n := by
  simp only [registered, Server.get?_write]
  by_cases h : s.name = n
  · rw [if_pos h, if_pos (congrArg key h.symm)]
    rfl
  · rw [if_neg h, if_neg fun hk => h (Registry.key_injective hk).symm]

theorem registered_erase {st : Store} :
    registered { sv with store := st.erase (key m) } n =
      if m = n then 0 else registered { sv with store := st } n := by
  simp only [registered, Store.get?_erase]
  by_cases h : m = n
  · rw [if_pos h, if_pos (congrArg key h.symm)]
    rfl
  · rw [if_neg h, if_neg fun hk => h (Registry.key_injective hk).symm]

/-- **What one delivery does to the number of buckets of a name.** -/
theorem registered_dispatch (sv : Server) (c : Call) (i : Nat) (n : Name) :
    let done := sv.dispatch c.endpoint c.body
    registered done.2 n + (Delivered.deletes n ⟨i, c, done.1⟩).toNat =
      registered sv n + (Delivered.creates n ⟨i, c, done.1⟩).toNat := by
  intro done
  cases hperform : sv.perform c.endpoint c.body with
  | error rejection =>
    have hdone : done = (rejection.response, sv) := Server.dispatch_error hperform
    have haccepted : rejection.response.status ≠ .accepted := rejection.status_ne rfl
    have hok : rejection.response.status ≠ .ok := rejection.status_ne rfl
    rw [hdone]
    cases c <;> simp [Delivered.deletes, Delivered.creates, haccepted, hok]
  | ok result =>
    obtain ⟨response, store⟩ := result
    have hdone : done = (response, { sv with store }) := Server.dispatch_ok hperform
    have heffect := Server.perform_effect hperform
    rw [hdone]
    cases c with
    | info | buckets | bucket | hasBucket =>
      cases heffect
      rfl
    | insertBucket s =>
      cases heffect with
      | createBucket hbody hnew =>
        -- the body is that of the call, so the bucket written is the one the call names
        obtain rfl := (Api.eq_of_decodeSettings_encodeSettings hbody).symm
        simp only [registered_write, Delivered.deletes, Delivered.creates, and_true,
          Bool.toNat_false, Nat.add_zero]
        by_cases hname : s.name = n
        · subst hname
          simp [registered, hnew]
        · simp [hname, registered]
    | updateBucket s =>
      generalize he : (Call.updateBucket s).endpoint = e at heffect
      cases heffect with
      | updateBucket hbody hthere =>
        simp only [registered_write, Delivered.deletes, Delivered.creates]
        split
        · next hname =>
          subst hname
          simp [registered, hthere]
        · simp [registered]
      | clusterInfo | listBuckets | getBucket | createBucket | deleteBucket => cases he
    | removeBucket m =>
      cases heffect with
      | deleteBucket hthere =>
        simp only [registered_erase, Delivered.deletes, Delivered.creates, and_true,
          Bool.toNat_false, Nat.add_zero]
        by_cases hname : m = n
        · subst hname
          simp [registered, hthere]
        · simp [hname, registered]

/-- **No bucket is lost or doubled.** Of the deliveries that registered a bucket of some name, all
were undone by one that dropped it, but for the one that is still there, if any. -/
theorem Traffic.Reachable.creates_eq (h : t.Reachable p) (n : Name) :
    t.delivered.countP (·.creates n) =
      t.delivered.countP (·.deletes n) + registered t.server n := by
  induction h with
  | start => rfl
  | issue _ c ih => exact ih
  | @deliver t t' ht i hd ih =>
    have hi := mem_inFlight_of_deliver? hd
    obtain ⟨c, hc, heq⟩ := ht.accounted.deliver? hi
    obtain rfl := Option.some.inj (heq.symm.trans hd)
    have hstep := registered_dispatch t.server c i n
    have hone : ∀ b : Bool, (if b = true then 1 else 0) = b.toNat := by decide
    simp only [afterDelivery, List.countP_cons, hone, ih]
    omega
  | engine _ diskSpace ih => exact ih

end Conservation

end BucketAdmin.Client
