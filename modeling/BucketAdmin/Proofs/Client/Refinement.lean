import BucketAdmin.Client.Transport
import BucketAdmin.Proofs.Client.Catalogue
import BucketAdmin.Proofs.Server.Invariant

/-!
# A cluster is a catalogue to its clients

A client that asks a server directly is answered as the catalogue answers, call after call.
`Shows sv buckets m` relates the two: the server holds `buckets`, in the order of their names, and
`m` finds the same settings under each name. One call keeps the relation and is answered alike
(`Shows.agrees`): its request goes through the writing and the reading of bodies, the checks of the
registry, and the classification of statuses. Any number of calls follows by induction
(`Shows.askAll`).
-/

namespace BucketAdmin.Client

open Api (Endpoint decodeSettings decodeSettings_of_le encodeSettings encodeBucketList maxBodySize)
open Bucket (Name Settings)
open Registry (found put without)

namespace Session

variable {σ : Type}

/-- Make a call and await it. -/
def ask (t : Transport σ) (c : Call) (s : Session σ) : Option (Outcome Answer × Session σ) :=
  (s.issue t c).2.await (s.issue t c).1

/-- Make calls one after another, each when the one before has completed. -/
def askAll (t : Transport σ) : List Call → Session σ → Option (List (Outcome Answer) × Session σ)
  | [], s => some ([], s)
  | c :: cs, s => do
    let (outcome, s) ← s.ask t c
    let (outcomes, s) ← s.askAll t cs
    some (outcome :: outcomes, s)

end Session

/-- The route of a call on buckets. -/
def Op.endpoint : Op → Endpoint
  | .list => .listBuckets
  | .get n | .has n => .getBucket n
  | .insert _ => .createBucket
  | .update s => .updateBucket s.name
  | .remove n => .deleteBucket n

theorem Op.endpoint_request (op : Op) : op.call.request.endpoint = .ok op.endpoint := by
  cases op <;> rfl

/-- The body that goes with a call on buckets. -/
def Op.body (op : Op) : Bytes := op.call.request.body.getD []

/-- A call over a server completes at once, with what the server answers. -/
theorem Op.ask_inProcess (op : Op) (s : Session Server) :
    ∃ s', s.ask inProcess op.call =
        some (op.call.classify (s.state.dispatch op.endpoint op.body).1, s') ∧
      s'.state = (s.state.dispatch op.endpoint op.body).2 := by
  simp only [Session.ask, Session.issue, Session.await, inProcess, op.endpoint_request,
    Delivery.now, Option.map_some, Call.resolve]
  exact ⟨_, rfl, rfl⟩

namespace Catalogue

/-- The server shows its clients this catalogue. -/
structure Shows (sv : Server) (buckets : List Settings) (m : Catalogue) : Prop where
  holds : sv.Holds buckets
  lookup : ∀ n, m.lookup n = found buckets n
  sendable : ∀ s ∈ buckets, (encodeSettings s).length ≤ maxBodySize

theorem shows_start (p : Server.Profile) : Shows (.start p) [] ∅ :=
  ⟨Server.holds_start p, fun _ => Finmap.lookup_empty _, nofun⟩

variable {sv : Server} {buckets : List Settings} {m : Catalogue} {s t : Settings} {n : Name}

namespace Shows

theorem mem_iff (h : Shows sv buckets m) : n ∈ m ↔ (found buckets n).isSome := by
  rw [← h.lookup, Finmap.lookup_isSome]

theorem keys_eq (h : Shows sv buckets m) : m.keys = (buckets.map (·.name)).toFinset := by
  ext n
  rw [Finmap.mem_keys, h.mem_iff, List.mem_toFinset, List.mem_map]
  constructor
  · intro hsome
    obtain ⟨s, hs⟩ := Option.isSome_iff_exists.mp hsome
    exact ⟨s, Registry.mem_of_found hs, Registry.name_of_found hs⟩
  · rintro ⟨s, hs, rfl⟩
    rw [Registry.found_of_mem h.holds.keeps.ordered hs]
    rfl

theorem values_eq (h : Shows sv buckets m) : m.values = buckets := by
  have hordered := h.holds.keeps.ordered
  have hle : (buckets.map (·.name)).Pairwise Name.Le :=
    List.pairwise_map.mpr (hordered.imp fun hlt hgt => Name.lt_irrefl _ (Name.lt_trans hlt hgt))
  have hnodup : (buckets.map (·.name)).Nodup := by
    refine List.pairwise_map.mpr (hordered.imp fun hlt heq => ?_)
    exact Name.lt_irrefl _ (heq ▸ hlt)
  rw [values, h.keys_eq, (List.toFinset_sort Name.Le hnodup).mpr hle, List.filterMap_map]
  have hsame : ∀ s ∈ buckets, ((fun n => m.lookup n) ∘ fun s => s.name) s = some s := by
    intro s hs
    exact (h.lookup s.name).trans (Registry.found_of_mem hordered hs)
  rw [List.filterMap_congr hsame, List.filterMap_some]

theorem write (h : Shows sv buckets m) {sv' : Server} (hholds : sv'.Holds (put t buckets))
    (hname : t.name = n) (hsize : (encodeSettings t).length ≤ maxBodySize) :
    Shows sv' (put t buckets) (m.insert n t) where
  holds := hholds
  lookup := by
    intro k
    rw [Registry.found_put, hname]
    by_cases hk : n = k
    · rw [if_pos hk, ← hk, Finmap.lookup_insert]
    · rw [if_neg hk, Finmap.lookup_insert_of_ne m (Ne.symm hk), h.lookup]
  sendable := by
    intro u hu
    rcases Registry.mem_put hu with rfl | hu
    · exact hsize
    · exact h.sendable u hu

theorem erase (h : Shows sv buckets m) {sv' : Server} (hholds : sv'.Holds (without n buckets)) :
    Shows sv' (without n buckets) (m.erase n) where
  holds := hholds
  lookup := by
    intro k
    rw [Registry.found_without]
    by_cases hk : n = k
    · rw [if_pos hk, hk, Finmap.lookup_erase]
    · rw [if_neg hk, Finmap.lookup_erase_ne (Ne.symm hk), h.lookup]
  sendable := fun u hu => h.sendable u (List.mem_filter.mp hu).1

theorem totalMb_eq (h : Shows sv buckets m) : m.totalMb = Registry.totalMb buckets := by
  rw [totalMb, h.values_eq]

end Shows

/-! ## One call -/

/-- A call is answered by the server as by the catalogue, and the server shows what the catalogue is
then. -/
def Agrees (sv : Server) (m : Catalogue) (op : Op) : Prop :=
  (op.call.classify (sv.dispatch op.endpoint op.body).1).mapError Failure.kind =
      (step sv.profile.ramTotalMb.toNat m op).1 ∧
    ∃ buckets, Shows (sv.dispatch op.endpoint op.body).2 buckets
      (step sv.profile.ramTotalMb.toNat m op).2

theorem decoded_encodeSettings (c : Call) (answer : Settings → Answer) (hs : s.Valid)
    (h : (encodeSettings s).length ≤ maxBodySize) :
    c.decoded (decodeSettings (encodeSettings s)) answer = .ok (answer s) := by
  rw [decodeSettings_of_le hs h]
  rfl

namespace Shows

theorem list (h : Shows sv buckets m) (hfits : Fits m .list) : Agrees sv m .list := by
  have hsize : (encodeBucketList buckets).length ≤ maxBodySize := h.values_eq ▸ hfits
  have hdecode : Api.decodeBucketList (encodeBucketList buckets) = .ok buckets := by
    rw [Api.decodeBucketList_encodeBucketList fun s hs => (h.holds.storable s hs).valid,
      Api.withinLimit_of_le hsize]
  rw [Agrees, Op.endpoint, Server.dispatch_ok (h.holds.perform_listBuckets _)]
  refine ⟨?_, buckets, h⟩
  change (Call.decoded _ (Api.decodeBucketList (encodeBucketList buckets)) _).mapError _ = _
  rw [hdecode, step, h.values_eq]
  rfl

theorem get (h : Shows sv buckets m) (n : Name) : Agrees sv m (.get n) := by
  have hperform := h.holds.perform_getBucket n (Op.get n).body
  rw [Agrees, Op.endpoint, step, h.lookup]
  cases hfound : found buckets n with
  | none =>
    rw [hfound] at hperform
    rw [Server.dispatch_error hperform]
    exact ⟨rfl, buckets, h⟩
  | some s =>
    rw [hfound] at hperform
    rw [Server.dispatch_ok hperform]
    have hs := Registry.mem_of_found hfound
    refine ⟨?_, buckets, h⟩
    change (Call.decoded _ (decodeSettings (encodeSettings s)) _).mapError _ = _
    rw [decoded_encodeSettings _ _ (h.holds.storable s hs).valid (h.sendable s hs), mapError_ok]

theorem has (h : Shows sv buckets m) (n : Name) : Agrees sv m (.has n) := by
  have hperform := h.holds.perform_getBucket n (Op.has n).body
  rw [Agrees, Op.endpoint, step]
  simp only [h.mem_iff]
  cases hfound : found buckets n with
  | none =>
    rw [hfound] at hperform
    rw [Server.dispatch_error hperform]
    exact ⟨rfl, buckets, h⟩
  | some s =>
    rw [hfound] at hperform
    rw [Server.dispatch_ok hperform]
    exact ⟨rfl, buckets, h⟩

theorem insert (h : Shows sv buckets m) (hfits : Fits m (.insert s)) :
    Agrees sv m (.insert s) := by
  obtain ⟨hs, hsize, hstored⟩ := hfits
  have hbody : decodeSettings (Op.insert s).body = .ok s := decodeSettings_of_le hs hsize
  have hperform := h.holds.perform_createBucket hbody
  rw [Agrees, Op.endpoint, step]
  simp only [h.mem_iff, h.totalMb_eq]
  by_cases hthere : (found buckets s.name).isSome
  · rw [if_pos hthere] at hperform
    rw [Server.dispatch_error hperform, if_pos hthere]
    exact ⟨rfl, buckets, h⟩
  rw [if_neg hthere] at hperform
  rw [if_neg hthere]
  by_cases hfit : Registry.totalMb buckets + s.quotaMb.toNat ≤ sv.profile.ramTotalMb.toNat
  · rw [if_pos hfit] at hperform
    rw [Server.dispatch_ok hperform, if_neg (Nat.not_lt.mpr hfit)]
    refine ⟨?_, put s.normal buckets, ?_⟩
    · change (Call.decoded _ (decodeSettings (encodeSettings s.normal)) _).mapError _ = _
      rw [decoded_encodeSettings _ _ hs.storable_normal.valid hstored, mapError_ok]
    · exact h.write (h.holds.create hs hthere hfit) s.normal_name hstored
  · rw [if_neg hfit] at hperform
    rw [Server.dispatch_error hperform, if_pos (Nat.lt_of_not_le hfit)]
    exact ⟨rfl, buckets, h⟩

theorem update (h : Shows sv buckets m) (hfits : Fits m (.update s)) :
    Agrees sv m (.update s) := by
  obtain ⟨hs, hsize, hstored⟩ := hfits
  have hbody : decodeSettings (Op.update s).body = .ok s := decodeSettings_of_le hs hsize
  have hperform := h.holds.perform_updateBucket hbody
  rw [Agrees, Op.endpoint, step]
  simp only [h.lookup, h.totalMb_eq]
  cases hfound : found buckets s.name with
  | none =>
    rw [hfound] at hperform
    rw [Server.dispatch_error hperform]
    exact ⟨rfl, buckets, h⟩
  | some t =>
    simp only [hfound] at hperform ⊢
    by_cases hkind : t.kind ≠ s.kind
    · rw [if_pos hkind] at hperform
      rw [Server.dispatch_error hperform, if_pos hkind]
      exact ⟨rfl, buckets, h⟩
    rw [if_neg hkind] at hperform
    rw [if_neg hkind]
    by_cases hfit : Registry.totalMb buckets - t.quotaMb.toNat + s.quotaMb.toNat ≤
        sv.profile.ramTotalMb.toNat
    · rw [if_pos hfit] at hperform
      rw [Server.dispatch_ok hperform, if_neg (Nat.not_lt.mpr hfit)]
      refine ⟨?_, put s.normal buckets, ?_⟩
      · change (Call.decoded _ (decodeSettings (encodeSettings s.normal)) _).mapError _ = _
        rw [decoded_encodeSettings _ _ hs.storable_normal.valid hstored, mapError_ok]
      · exact h.write (h.holds.update hs hfound hfit) s.normal_name hstored
    · rw [if_neg hfit] at hperform
      rw [Server.dispatch_error hperform, if_pos (Nat.lt_of_not_le hfit)]
      exact ⟨rfl, buckets, h⟩

theorem remove (h : Shows sv buckets m) (n : Name) : Agrees sv m (.remove n) := by
  have hperform := h.holds.perform_deleteBucket n (Op.remove n).body
  rw [Agrees, Op.endpoint, step]
  simp only [h.mem_iff]
  cases hfound : found buckets n with
  | some s =>
    rw [hfound, Option.isSome_some, if_pos rfl] at hperform
    rw [Server.dispatch_ok hperform]
    exact ⟨rfl, without n buckets, h.erase (h.holds.erase n)⟩
  | none =>
    rw [hfound, Option.isSome_none, if_neg Bool.false_ne_true] at hperform
    rw [Server.dispatch_error hperform]
    refine ⟨rfl, buckets, h.holds, ?_, h.sendable⟩
    intro k
    by_cases hk : k = n
    · rw [hk, Finmap.lookup_erase, hfound]
    · rw [Finmap.lookup_erase_ne hk, h.lookup]

theorem agrees (h : Shows sv buckets m) {op : Op} (hfits : Fits m op) : Agrees sv m op := by
  cases op with
  | list => exact h.list hfits
  | get n => exact h.get n
  | has n => exact h.has n
  | insert s => exact h.insert hfits
  | update s => exact h.update hfits
  | remove n => exact h.remove n

/-! ## Any number of calls -/

theorem askAll (session : Session Server) (h : Shows session.state buckets m) {ops : List Op}
    (hfits : Admissible session.state.profile.ramTotalMb.toNat m ops) :
    ∃ outcomes session',
      session.askAll inProcess (ops.map Op.call) = some (outcomes, session') ∧
        outcomes.map (·.mapError Failure.kind) =
          run session.state.profile.ramTotalMb.toNat m ops := by
  induction ops generalizing session buckets m with
  | nil => exact ⟨[], session, rfl, rfl⟩
  | cons op ops ih =>
    obtain ⟨hfit, hfits⟩ := hfits
    obtain ⟨hanswer, buckets', hshows⟩ := h.agrees hfit
    obtain ⟨session₁, hask, hstate⟩ := op.ask_inProcess session
    have hprofile : session₁.state.profile = session.state.profile := by
      rw [hstate, Server.profile_dispatch]
    have hstep : Shows session₁.state buckets'
        (step session₁.state.profile.ramTotalMb.toNat m op).2 := by
      rw [hprofile, hstate]
      exact hshows
    rw [← hprofile] at hfits
    obtain ⟨outcomes, session₂, hrest, hanswers⟩ := ih session₁ hstep hfits
    refine ⟨op.call.classify (session.state.dispatch op.endpoint op.body).1 :: outcomes, session₂,
      ?_, ?_⟩
    · rw [List.map_cons, Session.askAll, hask]
      simp only [Option.bind_eq_bind, Option.bind_some, hrest]
    · rw [List.map_cons, hanswers, run, hanswer, hprofile]

end Shows

/-- **A cluster is a catalogue to its clients.** Whatever calls on buckets a client makes of a
server that starts empty, each completes and is answered as the catalogue answers. -/
theorem askAll_eq_run (p : Server.Profile) (ops : List Op)
    (h : Admissible p.ramTotalMb.toNat ∅ ops) :
    ∃ outcomes session,
      (Session.start (Server.start p)).askAll inProcess (ops.map Op.call) =
          some (outcomes, session) ∧
        outcomes.map (·.mapError Failure.kind) = run p.ramTotalMb.toNat ∅ ops :=
  (shows_start p).askAll (.start (.start p)) h

/-- A bucket that takes all the memory of a node is registered once, and can be neither registered
again nor made larger; then it is removed. -/
def sampleOps : List Op :=
  let s := Api.sampleSettings
  [.insert s, .insert s, .get s.name, .list, .update { s with quotaMb := 4097 }, .remove s.name,
    .has s.name]

theorem askAll_eq_run_sampleOps :
    Admissible 4096 ∅ sampleOps ∧
    (∃ outcomes session,
      (Session.start (Server.start {})).askAll inProcess (sampleOps.map Op.call) =
          some (outcomes, session) ∧
        outcomes.map (·.mapError Failure.kind) = run 4096 ∅ sampleOps) ∧
    (run 4096 ∅ sampleOps).map Except.isOk = [true, false, true, true, false, true, true] := by
  have hvalid := Api.valid_sampleSettings
  have hlarger : Settings.Valid { Api.sampleSettings with quotaMb := 4097 } :=
    ⟨by decide, by decide⟩
  have hinsert : Api.sampleSettings.Valid ∧
      (encodeSettings Api.sampleSettings).length ≤ maxBodySize ∧
      (encodeSettings Api.sampleSettings.normal).length ≤ maxBodySize :=
    ⟨hvalid, by decide +kernel, by decide +kernel⟩
  have hfits : Admissible 4096 ∅ sampleOps := by
    refine ⟨hinsert, hinsert, trivial, ?_, ⟨hlarger, by decide +kernel, by decide +kernel⟩, trivial,
      trivial, trivial⟩
    change (encodeBucketList _).length ≤ maxBodySize
    decide +kernel
  exact ⟨hfits, askAll_eq_run {} sampleOps hfits, by decide +kernel⟩

end Catalogue

end BucketAdmin.Client
