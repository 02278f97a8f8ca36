import BucketAdmin.Proofs.Client.Runtime

/-!
# Deadlines end waits and nothing else

What a caller is told depends on its deadline, on when its call is answered, on when it looks, and
on nothing else: `Books` says it of any run, whatever comes in which order. Where no timer is late
(`Punctual`) no caller looks after its deadline, and each is told the outcome if the answer is there
when it looks. What is asked of the transport does not depend on deadlines at all. The requests of a
run are those of its plan, and the transport makes of them what it makes of them
(`Asked.eq_of_calls`). Every wait may end, at its deadline at the latest if its timer is punctual
(`Books.finishes`), and the tasks of a scripted transport all run in the end, also for callers that
are gone (`Books.quiets_script`). Waiting as a `Session` does is a punctual run
(`leads_of_callAll`), so all of this holds of it (`deadlines_end_waits`).
-/

namespace BucketAdmin.Client

namespace Session

variable {σ : Type}

/-- Make the calls of a plan one after another. -/
def callAll (t : Transport σ) : List Errand → Session σ → List (Outcome Answer) × Session σ
  | [], s => ([], s)
  | e :: rest, s =>
    let (outcome, s) := s.call t e.deadline e.call
    let (outcomes, s) := s.callAll t rest
    (outcome :: outcomes, s)

/-- A call that is waited for ends as one that is awaited, if that ends by the deadline. -/
theorem call_eq_await (t : Transport σ) (s : Session σ) (d : Duration) (c : Call) :
    s.call t d c =
      match (s.issue t c).2.await (s.issue t c).1 with
      | some (outcome, after) =>
        if after.now ≤ s.now + d.nanos then (outcome, after)
        else (.error (.timeout c.context d), { (s.issue t c).2 with now := s.now + d.nanos })
      | none =>
        (.error (.timeout c.context d), { (s.issue t c).2 with now := s.now + d.nanos }) := by
  have hticket : (s.issue t c).1.call = c := rfl
  have hnow : (s.issue t c).2.now = s.now := rfl
  cases hdue : (s.issue t c).1.due with
  | none => simp only [call, waitFor, await, hdue, hticket, hnow, Option.map_none]
  | some due =>
    have hiff : max s.now due ≤ s.now + d.nanos ↔ due ≤ s.now + d.nanos := by omega
    simp only [call, waitFor, await, hdue, hticket, hnow, Option.map_some, hiff]

end Session

namespace Runtime

variable {σ : Type} {t : Transport σ} {st : σ} {plan : List Errand} {s s' : Runtime σ}
  {f g : Flight}

/-- All calls were made, and their callers told. -/
def Finished (s : Runtime σ) : Prop := s.todo = [] ∧ s.waiting = none

/-- All tasks of the transport have run. -/
def Quiet (s : Runtime σ) : Prop := ∀ f ∈ s.flights, f.raw.isOpen = false

/-- What the callers were told so far, in the order of the calls. -/
def told (s : Runtime σ) : List (Option (Outcome Answer)) := s.flights.reverse.map (·.told)

theorem Leads.step {e : Event} (h : s.step? t e = some s') : Leads t s s' :=
  .single ⟨e, h⟩

/-! ## What the transport is asked -/

theorem Asked.eq_of_calls {ds ds' : List Departure} {st' st'' : σ} (h : Asked t st ds st')
    (h' : Asked t st ds' st'') (hcalls : ds'.map (·.ticket.call) = ds.map (·.ticket.call)) :
    st'' = st' ∧ ds'.map (·.outcome) = ds.map (·.outcome) := by
  induction h generalizing ds' st'' with
  | start =>
    rw [List.map_nil, List.map_eq_nil_iff] at hcalls
    subst hcalls
    cases h'
    exact ⟨rfl, rfl⟩
  | @next ds d st₁ st₂ delay h ht hdue ih =>
    cases h' with
    | start => cases hcalls
    | @next ds' d' st₁' st₂' delay' h' ht' hdue' =>
      obtain ⟨hcall, hcalls⟩ := List.cons.inj hcalls
      obtain ⟨rfl, houtcomes⟩ := ih h' hcalls
      change d'.ticket.call = d.ticket.call at hcall
      rw [hcall, ht] at ht'
      obtain ⟨hdelivery, rfl⟩ := Prod.mk.inj ht'
      obtain ⟨houtcome, -⟩ := Delivery.mk.inj hdelivery
      refine ⟨rfl, ?_⟩
      rw [List.map_cons, List.map_cons, houtcomes, Departure.outcome, Departure.outcome, hcall,
        houtcome]

theorem Books.calls (h : s.Books t st plan) (hdone : s.todo = []) :
    s.departures.reverse.map (·.ticket.call) = plan.map (·.call) := by
  have hplanned := h.planned
  rw [hdone, List.append_nil] at hplanned
  rw [← hplanned, List.map_map]
  rfl

/-- A plan that is done stays done. -/
theorem todo_of_step {e : Event} (hs : s.step? t e = some s') (hdone : s.todo = []) :
    s'.todo = [] := by
  cases moves_of_step hs with
  | issue hw htodo =>
    rw [hdone] at htodo
    cases htodo
  | complete | settle | look | pass => exact hdone

theorem todo_of_leads (hs : Leads t s s') (hdone : s.todo = []) : s'.todo = [] := by
  induction hs with
  | refl => exact hdone
  | tail _ hstep ih =>
    obtain ⟨e, he⟩ := hstep
    exact todo_of_step he ih

theorem Books.requests (h : s.Books t st plan) (hdone : s.todo = []) :
    s.session.requests = plan.map (·.call.request) := by
  have hcalls := congrArg (List.map Call.request) (h.calls hdone)
  rw [List.map_map, List.map_map] at hcalls
  rw [Session.requests, h.submitted, ← List.map_reverse]
  exact hcalls

/-! ## Every wait ends -/

theorem waiting_of_told {rest : List Flight} (hflights : s.flights = f :: rest)
    (htold : f.told.isSome) : s.waiting = none := by
  obtain ⟨result, hresult⟩ := Option.isSome_iff_exists.mp htold
  simp [waiting, hflights, hresult]

section Head

variable {session : Session σ} {flights : List Flight} {n : Nat} {todo : List Errand}

theorem leads_pass {later : Nat} (hle : session.now ≤ later) :
    Leads t ⟨session, flights, n, todo⟩ ⟨{ session with now := later }, flights, n, todo⟩ := by
  refine Leads.step (e := .pass (later - session.now)) ?_
  rw [step?, Nat.add_sub_of_le hle]

theorem step?_complete (h : f.complete? session.now = some g) :
    step? t ⟨session, f :: flights, n, todo⟩ (.complete 0) =
      some ⟨session, g :: flights, n + 1, todo⟩ := by
  simp only [step?, List.getElem?_cons_zero, Option.bind_some, h]
  rfl

theorem step?_settle (h : f.settle? session.now = some g) :
    step? t ⟨session, f :: flights, n, todo⟩ (.settle 0) =
      some ⟨session, g :: flights, n, todo⟩ := by
  simp only [step?, List.getElem?_cons_zero, Option.bind_some, h]
  rfl

theorem step?_look (h : f.look? session.now = some g) :
    step? t ⟨session, f :: flights, n, todo⟩ .look = some ⟨session, g :: flights, n, todo⟩ := by
  simp only [step?, List.getElem?_cons_zero, Option.bind_some, h]
  rfl

end Head

/-- Time may pass to the deadline of a caller that waits, and no timer is late for that. -/
theorem Books.timely_of_waiting (h : s.Books t st plan) (hp : s.Punctual)
    (hw : s.waiting = some f) : s.Timely (.pass (f.last - s.session.now)) := by
  intro g hg
  obtain rfl := Option.some.inj (hw.symm.trans hg)
  obtain ⟨htold, rest, hflights⟩ := flights_of_waiting hw
  have hf : f ∈ s.flights := hflights ▸ List.mem_cons_self
  have hlast := (((h.flights f hf).inTime_iff (Nat.le_refl _)).mp (hp f hf)).2 htold
  exact Nat.le_of_eq (Nat.add_sub_of_le hlast)

/-- At the deadline at the latest, if no timer is late. -/
theorem Books.wait_ends (h : s.Books t st plan) (hw : s.waiting = some f) :
    ∃ s', Leads t s s' ∧ s'.waiting = none ∧ s'.todo = s.todo ∧ (s.Punctual → s'.Punctual) := by
  obtain ⟨session, flights, n, todo⟩ := s
  obtain ⟨htold, rest, rfl⟩ := flights_of_waiting hw
  let after : Session σ := { session with now := session.now + (f.last - session.now) }
  have hpass : step? t ⟨session, f :: rest, n, todo⟩ (.pass (f.last - session.now)) =
      some ⟨after, f :: rest, n, todo⟩ := rfl
  have hbooks := h.step hpass
  have hsound := hbooks.flights f List.mem_cons_self
  have hlast : f.last ≤ session.now + (f.last - session.now) := by omega
  have hlook := hsound.look?_eq htold
  cases hg : f.look? after.now with
  | none =>
    rw [hg, if_pos hlast] at hlook
    split at hlook <;> cases hlook
  | some g =>
    have hnext : step? t ⟨after, f :: rest, n, todo⟩ .look = some ⟨after, g :: rest, n, todo⟩ :=
      step?_look hg
    refine ⟨_, (Leads.step hpass).trans (Leads.step hnext),
      waiting_of_told rfl (hsound.look hg).2.1, rfl, fun hp => ?_⟩
    have hpassed := (h.punctual_iff hpass).mpr ⟨hp, h.timely_of_waiting hp hw⟩
    exact (hbooks.punctual_iff hnext).mpr ⟨hpassed, trivial⟩

theorem Books.wait_over (h : s.Books t st plan) :
    ∃ s', Leads t s s' ∧ s'.waiting = none ∧ s'.todo = s.todo ∧ (s.Punctual → s'.Punctual) := by
  cases hw : s.waiting with
  | none => exact ⟨s, .refl, hw, rfl, id⟩
  | some f => exact h.wait_ends hw

/-- **No caller waits for ever.** -/
theorem Books.finishes (h : s.Books t st plan) :
    ∃ s', Leads t s s' ∧ s'.Finished ∧ (s.Punctual → s'.Punctual) := by
  induction htodo : s.todo generalizing s with
  | nil =>
    obtain ⟨s', hleads, hw, hsame, hpunctual⟩ := h.wait_over
    exact ⟨s', hleads, ⟨hsame.trans htodo, hw⟩, hpunctual⟩
  | cons e rest ih =>
    obtain ⟨s₁, hleads, hw, hsame, hpunctual⟩ := h.wait_over
    obtain ⟨s₂, hissue, hrest⟩ : ∃ s₂, s₁.step? t .issue = some s₂ ∧ s₂.todo = rest := by
      rw [step?, hw, hsame, htodo]
      exact ⟨_, rfl, rfl⟩
    have hbooks := h.leads hleads
    obtain ⟨s', hleads', hfinished, hpunctual'⟩ := ih (hbooks.step hissue) hrest
    exact ⟨s', (hleads.trans (Leads.step hissue)).trans hleads', hfinished, fun hp =>
      hpunctual' ((hbooks.punctual_iff hissue).mpr ⟨hpunctual hp, trivial⟩)⟩

/-! ## Every task runs -/

theorem complete?_of_due {now : Nat} (hdue : f.ticket.due.any (· ≤ now)) (hopen : f.raw.isOpen) :
    ∃ g, f.complete? now = some g := by
  rw [Flight.complete?, if_pos hdue, Channel.complete?, if_pos hopen]
  exact ⟨_, rfl⟩

theorem Books.completed_le (h : s.Books t st plan) : s.completed ≤ s.flights.length := by
  rw [h.completed]
  exact List.countP_le_length

theorem Books.completed_eq (h : s.Books t st plan) (hquiet : s.Quiet) :
    s.completed = s.session.requests.length := by
  have hlength : s.session.requests.length = s.flights.length := by
    rw [Session.requests, h.submitted, departures, List.length_reverse, List.length_map,
      List.length_map]
  rw [hlength, h.completed, List.countP_eq_length]
  intro f hf
  rw [hquiet f hf]
  rfl

/-- One more of the requests that are due may be completed. -/
theorem Books.complete (h : s.Books t st plan) (hf : f ∈ s.flights)
    (hdue : f.ticket.due.any (· ≤ s.session.now)) (hopen : f.raw.isOpen) :
    ∃ i s', s.step? t (.complete i) = some s' ∧ s'.completed = s.completed + 1 ∧
      s'.flights.length = s.flights.length ∧ s'.session = s.session ∧
      s'.departures = s.departures := by
  obtain ⟨i, hi⟩ := List.mem_iff_getElem?.mp hf
  obtain ⟨g, hg⟩ := complete?_of_due hdue hopen
  have hd := ((h.flights f hf).complete hg).1
  refine ⟨i, { s with flights := s.flights.set i g, completed := s.completed + 1 }, ?_, rfl,
    List.length_set, rfl, departures_set hi hd⟩
  simp only [step?, hi, Option.bind_some, hg, Option.map_some]

theorem Books.quiets (h : s.Books t st plan)
    (hdue : ∀ d ∈ s.departures, d.ticket.due.any (· ≤ s.session.now)) :
    ∃ s', Leads t s s' ∧ s'.Quiet ∧ (s.Punctual → s'.Punctual) := by
  induction hn : s.flights.length - s.completed using Nat.strongRecOn generalizing s with
  | _ n ih =>
    by_cases hquiet : s.Quiet
    · exact ⟨s, .refl, hquiet, id⟩
    · obtain ⟨f, hf, hopen⟩ : ∃ f ∈ s.flights, f.raw.isOpen = true := by
        simpa [Quiet] using hquiet
      obtain ⟨i, s₁, hstep, hone, hlength, hsession, hsame⟩ :=
        h.complete hf (hdue _ (List.mem_map_of_mem hf)) hopen
      have h₁ := h.step hstep
      have hle := h₁.completed_le
      obtain ⟨s', hleads, hquiet', hpunctual⟩ := ih (s₁.flights.length - s₁.completed) (by omega) h₁
        (by rw [hsame, hsession]; exact hdue) rfl
      exact ⟨s', (Leads.step hstep).trans hleads, hquiet', fun hp =>
        hpunctual ((h.punctual_iff hstep).mpr ⟨hp, trivial⟩)⟩

theorem Asked.due_script {script : Script} {ds : List Departure} {st' : Script}
    (h : Asked Script.transport script ds st') :
    st' = script ∧ ∀ d ∈ ds, d.ticket.due = some (d.since + script.delay.nanos) := by
  induction h with
  | start => exact ⟨rfl, fun _ hd => absurd hd List.not_mem_nil⟩
  | @next ds d st₁ st₂ delay h ht hdue ih =>
    obtain ⟨rfl, hrest⟩ := ih
    obtain ⟨hdelivery, rfl⟩ := Prod.mk.inj ht
    obtain ⟨-, rfl⟩ := Delivery.mk.inj hdelivery
    refine ⟨rfl, fun x hx => ?_⟩
    rcases List.mem_cons.mp hx with rfl | hx
    · exact hdue
    · exact hrest x hx

/-- A scripted transport gets all its tasks done, whoever still waits for them. -/
theorem Books.quiets_script {script : Script} {s : Runtime Script}
    (h : s.Books Script.transport script plan) (hw : s.waiting = none) :
    ∃ s', Leads Script.transport s s' ∧ s'.Quiet ∧ (s.Punctual → s'.Punctual) := by
  have hpass : s.step? Script.transport (.pass script.delay.nanos) = some
      { s with session := { s.session with now := s.session.now + script.delay.nanos } } := rfl
  have htimely : s.Timely (.pass script.delay.nanos) := by
    intro f hf
    rw [hw] at hf
    cases hf
  have hdue := (h.step hpass).asked.due_script.2
  obtain ⟨s', hleads, hquiet, hpunctual⟩ := (h.step hpass).quiets fun d hd => by
    obtain ⟨f, hf, rfl⟩ := List.mem_map.mp hd
    have hsince : f.since ≤ s.session.now := (h.flights f hf).since
    rw [hdue f.toDeparture hd]
    simpa using hsince
  exact ⟨s', (Leads.step hpass).trans hleads, hquiet, fun hp =>
    hpunctual ((h.punctual_iff hpass).mpr ⟨hp, htimely⟩)⟩

/-! ## Calls one after another are such a run -/

section Calls

variable {e : Errand} {rest : List Errand}

theorem step?_issue (hw : s.waiting = none) (htodo : s.todo = e :: rest) :
    s.step? t .issue = some ⟨(s.session.issue t e.call).2, .launch (departure t s e) :: s.flights,
      s.completed, rest⟩ := by
  rw [step?, hw, htodo]
  rfl

/-- A caller that has just called is told the outcome, if it is due in time and comes as it is
due. -/
theorem leads_of_due (d : Departure) (session : Session σ) (flights : List Flight) (n : Nat)
    (rest : List Errand) {due : Nat} (hsince : session.now = d.since)
    (hdue : d.ticket.due = some due) (hlast : due ≤ d.last) :
    ∃ f n', f.told = some d.outcome ∧ f.InTime (max session.now due) ∧
      Leads t ⟨session, .launch d :: flights, n, rest⟩
        ⟨{ session with now := max session.now due }, f :: flights, n', rest⟩ := by
  have hintime : max session.now due ≤ d.last := by
    rw [hsince]
    exact Nat.max_le.mpr ⟨Nat.le_add_right _ _, hlast⟩
  have hready : d.ticket.due.any (· ≤ max session.now due) := by
    rw [hdue]
    exact decide_eq_true (Nat.le_max_right _ _)
  have hcomplete : (Flight.launch d).complete? (max session.now due) = some _ := if_pos hready
  refine ⟨_, _, rfl, ?_, (leads_pass (Nat.le_max_left _ _)).trans
    ((Leads.step (step?_complete hcomplete)).trans
      ((Leads.step (step?_settle rfl)).trans (Leads.step (step?_look rfl))))⟩
  exact hintime

/-- A caller that has just called is told of its deadline, if nothing comes before. -/
theorem leads_of_deadline (d : Departure) (session : Session σ) (flights : List Flight) (n : Nat)
    (rest : List Errand) (hsince : session.now = d.since) :
    ∃ f, f.told = some d.timeout ∧ f.InTime d.last ∧
      Leads t ⟨session, .launch d :: flights, n, rest⟩
        ⟨{ session with now := d.last }, f :: flights, n, rest⟩ := by
  have hle : session.now ≤ d.last := by
    rw [hsince]
    exact Nat.le_add_right _ _
  have hlook : (Flight.launch d).look? d.last = _ :=
    (Flight.look?_create d _ _ _ _).trans (if_pos (Nat.le_refl _))
  refine ⟨_, rfl, ?_, (leads_pass hle).trans (Leads.step (step?_look hlook))⟩
  exact Nat.le_refl _

theorem leads_of_call (hw : s.waiting = none) (htodo : s.todo = e :: rest) :
    ∃ f n, f.told = some (s.session.call t e.deadline e.call).1 ∧
      f.InTime (s.session.call t e.deadline e.call).2.now ∧
      s.session.now ≤ (s.session.call t e.deadline e.call).2.now ∧
      Leads t s ⟨(s.session.call t e.deadline e.call).2, f :: s.flights, n, rest⟩ := by
  have hissue := Leads.step (step?_issue (t := t) hw htodo)
  have hpast : s.session.now ≤ (departure t s e).last := Nat.le_add_right _ _
  obtain ⟨f, htold, hintime, hleads⟩ := leads_of_deadline (t := t) (departure t s e)
    (s.session.issue t e.call).2 s.flights s.completed rest rfl
  cases hdue : (s.session.issue t e.call).1.due with
  | none =>
    simp only [Session.call, Session.waitFor, hdue]
    exact ⟨f, s.completed, htold, hintime, hpast, hissue.trans hleads⟩
  | some due =>
    by_cases hlast : due ≤ s.session.now + e.deadline.nanos
    · obtain ⟨g, n, htold', hintime', hleads'⟩ := leads_of_due (t := t) (departure t s e)
        (s.session.issue t e.call).2 s.flights s.completed rest rfl hdue hlast
      have hcall : s.session.call t e.deadline e.call = ((departure t s e).outcome,
          { (s.session.issue t e.call).2 with now := max s.session.now due }) := by
        simp only [Session.call, Session.waitFor, hdue]
        exact if_pos hlast
      rw [hcall]
      exact ⟨g, n, htold', hintime', Nat.le_max_left _ _, hissue.trans hleads'⟩
    · have hcall : s.session.call t e.deadline e.call = ((departure t s e).timeout,
          { (s.session.issue t e.call).2 with now := (departure t s e).last }) := by
        simp only [Session.call, Session.waitFor, hdue]
        exact if_neg hlast
      rw [hcall]
      exact ⟨f, s.completed, htold, hintime, hpast, hissue.trans hleads⟩

/-- Where no caller waits, no timer comes to be late. -/
theorem Books.inTime_of_idle (h : s.Books t st plan) (hw : s.waiting = none) (hp : s.Punctual)
    {later : Nat} (hle : s.session.now ≤ later) : ∀ f ∈ s.flights, f.InTime later := by
  intro f hf
  refine ((h.flights f hf).inTime_iff hle).mpr ⟨hp f hf, fun hwait => ?_⟩
  have htold := h.told_of_waiting hw f hf
  rw [hwait] at htold
  cases htold

/-- The calls of a plan, each waited for until it is due or the deadline passes. -/
theorem leads_of_callAll (h : s.Books t st plan) (hw : s.waiting = none) (hp : s.Punctual) :
    ∃ s', Leads t s s' ∧ s'.Finished ∧ s'.Punctual ∧
      s'.told = s.told ++ (s.session.callAll t s.todo).1.map some ∧
      s'.session = (s.session.callAll t s.todo).2 := by
  induction htodo : s.todo generalizing s with
  | nil => exact ⟨s, .refl, ⟨htodo, hw⟩, hp, (List.append_nil _).symm, rfl⟩
  | cons e rest ih =>
    obtain ⟨f, n, htold, hintime, hle, hleads⟩ := leads_of_call (t := t) hw htodo
    have hidle : waiting ⟨(s.session.call t e.deadline e.call).2, f :: s.flights, n, rest⟩ = none :=
      waiting_of_told rfl (by rw [htold]; rfl)
    have hpunctual : Punctual ⟨(s.session.call t e.deadline e.call).2, f :: s.flights, n, rest⟩ :=
      List.forall_mem_cons.mpr ⟨hintime, h.inTime_of_idle hw hp hle⟩
    obtain ⟨s', hleads', hfinished, hpunctual', htold', hsession⟩ :=
      ih (h.leads hleads) hidle hpunctual rfl
    refine ⟨s', hleads.trans hleads', hfinished, hpunctual', ?_, hsession⟩
    rw [htold']
    simp [told, htold, Session.callAll]

end Calls

/-- **Deadlines change what callers are told, and nothing else.** A call that is waited for ends as
one that is awaited, if that ends by the deadline, and else in a timeout. So it is in every run in
which no timer is late: a caller finds the outcome if it is there, also at the deadline, and no
caller waits longer. Whether a timer is late is a matter of when time passes only. In any run, plans
that differ in deadlines make the same requests, with the same outcomes, and a scripted transport
completes as many requests as were made, whoever has left. -/
theorem deadlines_end_waits (t : Transport σ) (st : σ) (plan : List Errand) :
    (∀ s d c, Session.call t d c s =
      match (s.issue t c).2.await (s.issue t c).1 with
      | some (outcome, after) =>
        if after.now ≤ s.now + d.nanos then (outcome, after)
        else (.error (.timeout c.context d), { (s.issue t c).2 with now := s.now + d.nanos })
      | none => (.error (.timeout c.context d), { (s.issue t c).2 with now := s.now + d.nanos })) ∧
    (∃ s, Leads t (start st plan) s ∧ s.Finished ∧ s.Punctual ∧
      s.told = (Session.callAll t plan (.start st)).1.map some ∧
      s.session = (Session.callAll t plan (.start st)).2) ∧
    (∀ s, Leads t (start st plan) s → s.Books t st plan ∧
      (∀ e s', s.step? t e = some s' → (s'.Punctual ↔ s.Punctual ∧ s.Timely e)) ∧
      (s.Punctual → ∀ f ∈ s.flights, f.ToldInTime s.session.now) ∧
      (∀ f, s.waiting = some f → (f.look? s.session.now).map (·.told) =
        if f.answered.isSome then some (some f.outcome)
        else if f.last ≤ s.session.now then some (some f.timeout) else none) ∧
      ∃ s', Leads t s s' ∧ s'.Finished ∧ (s.Punctual → s'.Punctual)) ∧
    (∀ plan', plan'.map (·.call) = plan.map (·.call) → ∀ s s',
      Leads t (start st plan) s → s.Finished → Leads t (start st plan') s' → s'.Finished →
        s.session.requests = plan.map (·.call.request) ∧
        s'.session.requests = s.session.requests ∧ s'.session.state = s.session.state ∧
        s'.departures.map (·.outcome) = s.departures.map (·.outcome)) ∧
    ∀ script s, Leads Script.transport (start script plan) s → s.Finished →
      (∃ s', Leads Script.transport s s' ∧ s'.Quiet ∧ (s.Punctual → s'.Punctual)) ∧
      ∀ s', Leads Script.transport s s' → s'.Quiet →
        s'.session.requests = plan.map (·.call.request) ∧
        s'.completed = s'.session.requests.length := by
  refine ⟨fun s d c => s.call_eq_await t d c,
    leads_of_callAll (.start t st plan) rfl (punctual_start st plan), ?_, ?_, ?_⟩
  · intro s hs
    have hbooks := (Books.start t st plan).leads hs
    refine ⟨hbooks, fun e s' => hbooks.punctual_iff, fun hp f hf => ?_, fun f hw => ?_,
      hbooks.finishes⟩
    · exact (hbooks.flights f hf).toldInTime (hp f hf)
    · obtain ⟨htold, rest, hflights⟩ := flights_of_waiting hw
      exact (hbooks.flights f (hflights ▸ List.mem_cons_self)).look?_eq htold
  · intro plan' hcalls s s' hs hfinished hs' hfinished'
    have hbooks := (Books.start t st plan).leads hs
    have hbooks' := (Books.start t st plan').leads hs'
    have hsame : s'.departures.map (·.ticket.call) = s.departures.map (·.ticket.call) := by
      refine List.reverse_inj.mp ?_
      rw [← List.map_reverse, ← List.map_reverse, hbooks'.calls hfinished'.1, hcalls,
        hbooks.calls hfinished.1]
    obtain ⟨hstate, houtcomes⟩ := hbooks.asked.eq_of_calls hbooks'.asked hsame
    have hrequests := congrArg (List.map Call.request) hcalls
    rw [List.map_map, List.map_map] at hrequests
    have hmine := hbooks.requests hfinished.1
    exact ⟨hmine, (hbooks'.requests hfinished'.1).trans (hrequests.trans hmine.symm), hstate,
      houtcomes⟩
  · intro script s hs hfinished
    have hbooks := (Books.start Script.transport script plan).leads hs
    refine ⟨hbooks.quiets_script hfinished.2, fun s' hs' hquiet => ?_⟩
    have hbooks' := hbooks.leads hs'
    exact ⟨hbooks'.requests (todo_of_leads hs' hfinished.1), hbooks'.completed_eq hquiet⟩

/-- A transport that holds every response back for five nanoseconds. -/
def slowScript : Script := ⟨[], ⟨5⟩⟩

def temp : Bucket.Name := ⟨"temp", by decide, by decide, by decide⟩

/-- Two removals; the deadline of the first is a tie, that of the second is too short. -/
def hasty : List Errand := [⟨.removeBucket temp, ⟨5⟩⟩, ⟨.removeBucket temp, ⟨4⟩⟩]

theorem deadlines_end_waits_hasty :
    ∃ s, Leads Script.transport (start slowScript hasty) s ∧ s.Finished ∧ s.Punctual ∧
      s.told = [some (.ok (.flag false)),
        some (.error (.timeout ⟨.removeBucket, some temp⟩ ⟨4⟩))] ∧
      ∃ s', Leads Script.transport s s' ∧ s'.Quiet ∧ s'.completed = 2 ∧
        s'.session.requests = [.removeBucket temp, .removeBucket temp] := by
  obtain ⟨-, ⟨s, hs, hfinished, hpunctual, htold, -⟩, -, -, hscript⟩ :=
    deadlines_end_waits Script.transport slowScript hasty
  obtain ⟨⟨s', hs', hquiet, -⟩, hall⟩ := hscript slowScript s hs hfinished
  obtain ⟨hrequests, hcompleted⟩ := hall s' hs' hquiet
  refine ⟨s, hs, hfinished, hpunctual, htold, s', hs', hquiet, ?_, hrequests⟩
  rw [hcompleted, hrequests]
  rfl

/-- At its deadline a caller is told what it finds: the outcome, or the deadline if the tasks have
not run by then. A caller whose timer is late may find the outcome after its deadline. -/
example :
    let told (events : List Event) :=
      (events.foldlM (step? Script.transport) (start slowScript hasty)).map Runtime.told
    told [.issue, .pass 5, .complete 0, .settle 0, .look] = some [some (.ok (.flag false))] ∧
    told [.issue, .pass 5, .look] =
      some [some (.error (.timeout ⟨.removeBucket, some temp⟩ ⟨5⟩))] ∧
    told [.issue, .pass 6, .complete 0, .settle 0, .look] = some [some (.ok (.flag false))] :=
  ⟨rfl, rfl, rfl⟩

end Runtime

end BucketAdmin.Client
