import BucketAdmin.Proofs.Client.Traffic

/-!
# Races to register a bucket

Where nothing is in flight but requests to register one bucket that is not there, the first one
delivered registers it, if it fits, and each of the others finds it taken, whatever its own settings
(`deliverAll?_race`). The order of delivery decides who is first and nothing else. With the books
of `Traffic`, this is what can be said of calls that nothing orders (`Reachable.conserves`).
-/

namespace BucketAdmin.Client

open Api (Endpoint Response decodeSettings encodeSettings maxBodySize)
open Bucket (Name Settings)
open Registry (found)

namespace Call

variable {sv : Server} {buckets : List Settings} {s : Settings}

/-- A bucket that is not there and fits is registered, and the caller is told as what. -/
theorem dispatch_free (h : sv.Holds buckets) (hs : s.Valid) (hnew : found buckets s.name = none)
    (hsize : (encodeSettings s).length ≤ maxBodySize)
    (hstored : (encodeSettings s.normal).length ≤ maxBodySize)
    (hfit : Registry.totalMb buckets + s.quotaMb.toNat ≤ sv.profile.ramTotalMb.toNat) :
    let c := Call.insertBucket s
    let done := sv.dispatch c.endpoint c.body
    done.2.Holds (Registry.put s.normal buckets) ∧
      c.classify done.1 = .ok (.settings s.normal) := by
  intro c done
  have hbody : decodeSettings c.body = .ok s := Api.decodeSettings_of_le hs hsize
  have hnot : ¬(found buckets s.name).isSome := by
    rw [hnew]
    exact Bool.false_ne_true
  have hdone : done = _ := h.dispatch_create hbody hnot hfit
  rw [hdone]
  refine ⟨h.create hs hnot hfit, ?_⟩
  change c.decoded (decodeSettings (encodeSettings s.normal)) .settings = _
  rw [Api.decodeSettings_of_le hs.storable_normal.valid hstored]
  rfl

/-- A bucket that is there stays as it is, and the caller is told that it exists. -/
theorem dispatch_taken (h : sv.Holds buckets) (hs : s.Valid)
    (htaken : (found buckets s.name).isSome)
    (hsize : (encodeSettings s).length ≤ maxBodySize) :
    let c := Call.insertBucket s
    let done := sv.dispatch c.endpoint c.body
    done.2 = sv ∧ c.classify done.1 = .error (.alreadyExists c.context) := by
  intro c done
  have hbody : decodeSettings c.body = .ok s := Api.decodeSettings_of_le hs hsize
  have hperform := h.perform_createBucket hbody
  rw [if_pos htaken] at hperform
  have hdone : done = _ := Server.dispatch_error hperform
  rw [hdone]
  exact ⟨rfl, rfl⟩

end Call

namespace Traffic

/-- Deliver requests one after another. -/
def deliverAll? : Traffic → List Nat → Option Traffic
  | t, [] => some t
  | t, i :: rest => (t.deliver? i).bind fun t => t.deliverAll? rest

/-- What the caller of a call finds, once the call has completed. -/
def outcome? (t : Traffic) (i : Nat) : Option (Outcome Answer) :=
  t.issued[i]?.bind fun e =>
    match e.channel.completer with
    | .completed outcome => some outcome
    | .waiting | .dropped => none

/-- The call registers settings of that name. They are within bounds, and so are their bodies, as
they are sent and as they are stored. -/
structure Registers (t : Traffic) (n : Name) (i : Nat) (s : Settings) : Prop where
  call : t.issued[i]?.map (·.call) = some (.insertBucket s)
  name : s.name = n
  valid : s.Valid
  sent : (encodeSettings s).length ≤ maxBodySize
  stored : (encodeSettings s.normal).length ≤ maxBodySize

/-- All that is in flight registers one bucket, which is not there and would fit. -/
structure Race (t : Traffic) (n : Name) : Prop where
  absent : Registry.get t.server.store n = .ok none
  registers : ∀ i ∈ t.inFlight, ∃ s, t.Registers n i s ∧
    ∃ used, Registry.quotaUsedMb t.server.store = .ok used ∧
      used + s.quotaMb.toNat ≤ t.server.profile.ramTotalMb.toNat

variable {p : Server.Profile} {t : Traffic} {buckets : List Settings} {n : Name} {i : Nat}
  {s : Settings} {c : Call}

theorem outcome?_afterDelivery (hc : t.issued[i]? = some ⟨c, .create c.context⟩) :
    (t.afterDelivery i c).outcome? i =
      some (c.classify (t.server.dispatch c.endpoint c.body).1) := by
  have hlt := (List.getElem?_eq_some_iff.mp hc).1
  rw [outcome?, afterDelivery, List.getElem?_set_self hlt]
  rfl

theorem issued_afterDelivery_ne {j : Nat} (h : i ≠ j) :
    (t.afterDelivery i c).issued[j]? = t.issued[j]? :=
  List.getElem?_set_ne h

theorem outcome?_congr {t' : Traffic} (h : t'.issued[i]? = t.issued[i]?) :
    t'.outcome? i = t.outcome? i := by
  rw [outcome?, outcome?, h]

namespace Registers

theorem congr {t' : Traffic} (h : t.Registers n i s) (hi : t'.issued[i]? = t.issued[i]?) :
    t'.Registers n i s :=
  ⟨hi ▸ h.call, h.name, h.valid, h.sent, h.stored⟩

/-- While it is in flight, its channel is as it was created. -/
theorem waiting (h : t.Registers n i s) (hbooks : t.Accounted p) (hi : i ∈ t.inFlight) :
    t.issued[i]? = some ⟨.insertBucket s, .create (Call.insertBucket s).context⟩ := by
  obtain ⟨c, hc⟩ := hbooks.waiting i hi
  have hcall := h.call
  rw [hc] at hcall
  obtain rfl : c = .insertBucket s := Option.some.inj hcall
  exact hc

end Registers

/-- The callers of a bucket that is taken are all told that it exists. -/
theorem deliverAll?_taken {rest : List Nat} (hbooks : t.Accounted p)
    (hheld : t.server.Holds buckets) (htaken : (found buckets n).isSome) (hnodup : rest.Nodup)
    (hrest : ∀ i ∈ rest, i ∈ t.inFlight ∧ ∃ s, t.Registers n i s) :
    ∃ t', t.deliverAll? rest = some t' ∧ t'.server = t.server ∧
      (∀ j ∉ rest, t'.issued[j]? = t.issued[j]?) ∧
      ∀ i ∈ rest, t'.outcome? i = some (.error (.alreadyExists ⟨.insertBucket, some n⟩)) := by
  induction rest generalizing t with
  | nil => exact ⟨t, rfl, rfl, fun _ _ => rfl, nofun⟩
  | cons i rest ih =>
    obtain ⟨hnot, hnodup⟩ := List.nodup_cons.mp hnodup
    obtain ⟨hi, s, hs⟩ := hrest i List.mem_cons_self
    have hc := hs.waiting hbooks hi
    have hname := hs.name
    subst hname
    obtain ⟨hserver, htold⟩ := Call.dispatch_taken hheld hs.valid htaken hs.sent
    have hbetween : ∀ j ∈ rest, j ∈ (t.afterDelivery i (.insertBucket s)).inFlight ∧
        ∃ u, (t.afterDelivery i (.insertBucket s)).Registers s.name j u := by
      intro j hj
      obtain ⟨hin, u, hu⟩ := hrest j (List.mem_cons_of_mem _ hj)
      have hne : j ≠ i := fun he => hnot (he ▸ hj)
      exact ⟨(List.mem_erase_of_ne hne).mpr hin, u, hu.congr (issued_afterDelivery_ne hne.symm)⟩
    have hstays : (t.afterDelivery i (.insertBucket s)).server = t.server := hserver
    obtain ⟨t', hall, hlast, hothers, houtcomes⟩ :=
      ih (hbooks.afterDelivery hi hc) (by rwa [hstays]) hnodup hbetween
    refine ⟨t', ?_, hlast.trans hserver, fun j hj => ?_, fun j hj => ?_⟩
    · rw [deliverAll?, deliver?_eq hi hc, Option.bind_some, hall]
    · obtain ⟨hne, hj⟩ := not_or.mp (mt List.mem_cons.mpr hj)
      rw [hothers j hj, issued_afterDelivery_ne (Ne.symm hne)]
    · rcases List.mem_cons.mp hj with rfl | hj
      · rw [outcome?_congr (hothers j hnot), outcome?_afterDelivery hc, htold]
        rfl
      · exact houtcomes j hj

theorem Replays.reachable {ds : List Delivered} {sv : Server} (h : Replays p ds sv) :
    Server.Reachable p sv := by
  induction h with
  | start => exact .start
  | @next ds d sv sv' _ hd ih =>
    have hreach := ih.dispatch d.call.endpoint d.call.body
    rwa [hd] at hreach
  | engine _ diskSpace ih => exact ih.engine diskSpace

/-- **The first to come takes the name.** It is told as what its bucket is stored, all others are
told that the bucket exists. -/
theorem deliverAll?_race (h : t.Reachable p) (hrace : t.Race n) {first : Nat} {rest : List Nat}
    (horder : (first :: rest).Perm t.inFlight) :
    ∃ s t', t.Registers n first s ∧ t.deliverAll? (first :: rest) = some t' ∧
      t'.outcome? first = some (.ok (.settings s.normal)) ∧
      (∀ i ∈ rest, t'.outcome? i = some (.error (.alreadyExists ⟨.insertBucket, some n⟩))) ∧
      Registry.get t'.server.store n = .ok (some s.normal) := by
  have hbooks := h.accounted
  obtain ⟨hdistinct, -, -⟩ := List.nodup_append.mp hbooks.once
  obtain ⟨hnot, hnodup⟩ := List.nodup_cons.mp (horder.nodup_iff.mpr hdistinct)
  have hi : first ∈ t.inFlight := horder.mem_iff.mp List.mem_cons_self
  obtain ⟨-, buckets, hheld⟩ := hbooks.replays.reachable.holds
  obtain ⟨s, hs, used, hused, hfit⟩ := hrace.registers first hi
  have hc := hs.waiting hbooks hi
  have hname := hs.name
  subst hname
  -- the first one finds the name free
  have hnew : found buckets s.name = none :=
    Except.ok.inj ((hheld.keeps.get s.name).symm.trans hrace.absent)
  obtain rfl : used = Registry.totalMb buckets :=
    Except.ok.inj (hused.symm.trans (hheld.keeps.quotaUsedMb hheld.total_lt))
  obtain ⟨hheld', htold⟩ := Call.dispatch_free hheld hs.valid hnew hs.sent hs.stored hfit
  have htaken := Registry.found_put_normal s buckets
  -- and leaves it taken for the others
  have hafter : ∀ j ∈ rest, j ∈ (t.afterDelivery first (.insertBucket s)).inFlight ∧
      ∃ u, (t.afterDelivery first (.insertBucket s)).Registers s.name j u := by
    intro j hj
    have hin : j ∈ t.inFlight := horder.mem_iff.mp (List.mem_cons_of_mem _ hj)
    have hne : j ≠ first := fun he => hnot (he ▸ hj)
    obtain ⟨u, hu, -⟩ := hrace.registers j hin
    exact ⟨(List.mem_erase_of_ne hne).mpr hin, u, hu.congr (issued_afterDelivery_ne hne.symm)⟩
  obtain ⟨t', hall, hlast, hothers, houtcomes⟩ := deliverAll?_taken
    (hbooks.afterDelivery hi hc) hheld' (Option.isSome_of_mem htaken) hnodup hafter
  refine ⟨s, t', hs, ?_, ?_, houtcomes, ?_⟩
  · rw [deliverAll?, deliver?_eq hi hc, Option.bind_some, hall]
  · rw [outcome?_congr (hothers first hnot), outcome?_afterDelivery hc, htold]
  · rw [hlast]
    exact hheld'.keeps.get_put_normal

/-- **No bucket is lost or doubled, whatever comes first.** The books are in order, so every request
is delivered at most once, and each call completes with what came of its own request. Every request
in flight may come next, none that was delivered may come again, and no call completes twice. Of
every name, as many buckets were registered as were dropped, and one more if the bucket is there.
And of calls that race to register a bucket that is not there, the one delivered first wins. -/
theorem Reachable.conserves (h : t.Reachable p) :
    t.Accounted p ∧
    (∀ i ∈ t.inFlight, (t.deliver? i).isSome) ∧
    (∀ d ∈ t.delivered, t.deliver? d.number = none ∧
      ∀ e, t.issued[d.number]? = some e → ∀ outcome, e.channel.complete? outcome = none) ∧
    (∀ n, ∃ held, Registry.get t.server.store n = .ok held ∧
      (t.delivered.countP (·.creates n) : Int) - t.delivered.countP (·.deletes n) =
        if held.isSome then 1 else 0) ∧
    ∀ n, t.Race n → ∀ first rest, (first :: rest).Perm t.inFlight →
      ∃ s t', t.Registers n first s ∧ t.deliverAll? (first :: rest) = some t' ∧
        t'.outcome? first = some (.ok (.settings s.normal)) ∧
        (∀ i ∈ rest, t'.outcome? i = some (.error (.alreadyExists ⟨.insertBucket, some n⟩))) ∧
        Registry.get t'.server.store n = .ok (some s.normal) := by
  have hbooks := h.accounted
  refine ⟨hbooks, ?_, ?_, ?_, fun n hrace first rest => deliverAll?_race h hrace⟩
  · intro i hi
    obtain ⟨c, -, hdeliver⟩ := hbooks.deliver? hi
    exact Option.isSome_of_mem hdeliver
  · intro d hd
    obtain ⟨-, -, hapart⟩ := List.nodup_append.mp hbooks.once
    refine ⟨if_neg fun hin => ?_, fun e he outcome => ?_⟩
    · exact hapart d.number hin d.number (List.mem_map_of_mem hd) rfl
    · obtain rfl := Option.some.inj ((hbooks.completed d hd).symm.trans he)
      rfl
  · intro n
    obtain ⟨-, buckets, hheld⟩ := hbooks.replays.reachable.holds
    refine ⟨found buckets n, hheld.keeps.get n, ?_⟩
    have hcount := h.creates_eq n
    have hthere : registered t.server n = if (found buckets n).isSome then 1 else 0 := by
      rw [registered, hheld.keeps.get? n, Option.isSome_map]
    rw [hcount, hthere]
    split <;> omega

/-- Another bucket of the same name. -/
def rivalSettings : Settings := { Api.sampleSettings with flushEnabled := false }

/-- Two calls for one name. -/
def twoInserts : Traffic :=
  ((start {}).issue (.insertBucket Api.sampleSettings)).issue (.insertBucket rivalSettings)

theorem reachable_twoInserts : Reachable {} twoInserts := (Reachable.start.issue _).issue _

theorem race_twoInserts : twoInserts.Race Api.sampleSettings.name where
  absent := rfl
  registers := by
    have hvalid := Api.valid_sampleSettings
    intro i hi
    have hcases : i = 1 ∨ i = 0 := by simpa [twoInserts, issue, start] using hi
    rcases hcases with rfl | rfl
    · refine ⟨rivalSettings, ?_, 0, rfl, by decide⟩
      exact ⟨rfl, rfl, ⟨hvalid.quota, hvalid.replicas⟩, by decide +kernel, by decide +kernel⟩
    · refine ⟨Api.sampleSettings, ?_, 0, rfl, by decide⟩
      exact ⟨rfl, rfl, hvalid, by decide +kernel, by decide +kernel⟩

/-- Whichever comes first wins. -/
theorem Reachable.conserves_twoInserts :
    (∃ t', twoInserts.deliverAll? [0, 1] = some t' ∧
      t'.outcome? 1 = some (.error (.alreadyExists ⟨.insertBucket, some Api.sampleSettings.name⟩)) ∧
      Registry.get t'.server.store Api.sampleSettings.name =
        .ok (some Api.sampleSettings.normal)) ∧
    ∃ t', twoInserts.deliverAll? [1, 0] = some t' ∧
      t'.outcome? 0 = some (.error (.alreadyExists ⟨.insertBucket, some Api.sampleSettings.name⟩)) ∧
      Registry.get t'.server.store Api.sampleSettings.name = .ok (some rivalSettings.normal) := by
  obtain ⟨-, -, -, -, hraces⟩ := reachable_twoInserts.conserves
  constructor
  · obtain ⟨s, t', hs, hall, -, hlost, hget⟩ := hraces _ race_twoInserts 0 [1] (.swap 1 0 [])
    obtain rfl : Api.sampleSettings = s := Call.insertBucket.inj (Option.some.inj hs.call)
    exact ⟨t', hall, hlost 1 (List.mem_singleton_self 1), hget⟩
  · obtain ⟨s, t', hs, hall, -, hlost, hget⟩ := hraces _ race_twoInserts 1 [0] (.refl _)
    obtain rfl : rivalSettings = s := Call.insertBucket.inj (Option.some.inj hs.call)
    exact ⟨t', hall, hlost 0 (List.mem_singleton_self 0), hget⟩

end Traffic

end BucketAdmin.Client
