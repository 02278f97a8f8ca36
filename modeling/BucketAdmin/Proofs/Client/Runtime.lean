import Mathlib.Logic.Relation
import BucketAdmin.Client.Transport

/-!
# Blocking calls on a runtime

A caller makes the calls of a plan one after another and is blocked on each until it is told a
result. Meanwhile the runtime has two tasks for every call that was issued. The task of the
transport completes the channel `raw` with the outcome of the request, at any time from when it is
due. The task of the manager waits for that and completes the channel `answer` with the outcome of
the call. The caller polls `answer` first and its timer second; whichever it finds ready ends the
wait. Tasks go on when their caller does not wait any more, and in no fixed order: a run is a
sequence of events (`Event`), each of which may come wherever it makes sense (`step?`).

`Books` is what holds at every point of every run. It says that the requests are those of the calls
in the order of the plan, how far each call is (`Flight.Stage`), and what its caller was told
(`Flight.Told`).

Time passes as it likes, so the timer of a caller may be late, and its caller may find an outcome
that came after the deadline. Runs in which that does not happen are `Punctual`: no step of theirs
takes the clock past the deadline of a caller that waits (`Books.punctual_iff`). A punctual caller
may still be told of its deadline when its outcome is due just then, if it looks before the tasks
have run.
-/

namespace BucketAdmin.Client

open Api (Request Response)

/-- A call, and the deadline that its caller sets. -/
structure Errand where
  call : Call
  deadline : Duration

/-- A call as it was issued. -/
structure Departure where
  ticket : Ticket
  deadline : Duration
  since : Nat

namespace Departure

variable (d : Departure)

/-- The call and its deadline as they were planned. -/
def errand : Errand := ⟨d.ticket.call, d.deadline⟩

/-- How long the caller waits. -/
def last : Nat := d.since + d.deadline.nanos

/-- What comes of the call, whether its caller waits or not. -/
def outcome : Outcome Answer := d.ticket.call.resolve d.ticket.outcome

/-- What the caller is told when its deadline comes first. -/
def timeout : Outcome Answer := .error (.timeout d.ticket.call.context d.deadline)

end Departure

/-- A call that was issued, and how far it is. -/
structure Flight extends Departure where
  raw : Channel Response
  answer : Channel Answer
  /-- When the answer was there. -/
  answered : Option Nat
  /-- What the caller was told. -/
  told : Option (Outcome Answer)
  /-- When the caller was told. -/
  ended : Option Nat

namespace Flight

/-- A call that was just issued: nothing is in its channels, and its caller waits. -/
def launch (d : Departure) : Flight where
  toDeparture := d
  raw := .create d.ticket.call.context
  answer := .create d.ticket.call.context
  answered := none
  told := none
  ended := none

/-- The task of the transport. -/
def complete? (now : Nat) (f : Flight) : Option Flight :=
  if f.ticket.due.any (· ≤ now) then
    (f.raw.complete? f.ticket.outcome).map fun raw => { f with raw }
  else none

/-- The task of the manager. -/
def settle? (now : Nat) (f : Flight) : Option Flight :=
  match f.raw.poll? with
  | some (.ready outcome, raw) =>
    (f.answer.complete? (f.ticket.call.resolve outcome)).map fun answer =>
      { f with raw, answer, answered := some now }
  | some (.pending, _) | none => none

/-- The caller polls the answer, then its timer. -/
def look? (now : Nat) (f : Flight) : Option Flight :=
  match f.answer.poll? with
  | some (.ready outcome, answer) => some { f with answer, told := some outcome, ended := some now }
  | some (.pending, answer) =>
    if f.last ≤ now then
      answer.dropPending?.map fun left =>
        { f with
          answer := left
          told := some (.error (.timeout answer.context f.deadline))
          ended := some now }
    else none
  | none => none

/-- The timer was not late: the caller was told by its deadline, or that is not past. -/
def InTime (now : Nat) (f : Flight) : Prop := f.ended.getD now ≤ f.last

end Flight

/-- A manager over a transport, its runtime, and the caller. -/
structure Runtime (σ : Type) where
  session : Session σ
  /-- The calls issued, latest first. -/
  flights : List Flight
  /-- How many requests the transport has completed. -/
  completed : Nat
  /-- The calls that are not made yet. -/
  todo : List Errand

/-- What may come next in a run. -/
inductive Event where
  /-- The caller makes its next call. -/
  | issue
  /-- A task of the transport runs. -/
  | complete (i : Nat)
  /-- A task of the manager runs. -/
  | settle (i : Nat)
  /-- The caller polls. -/
  | look
  /-- Time passes. -/
  | pass (nanos : Nat)

namespace Runtime

variable {σ : Type}

/-- No call is made yet. -/
def start (st : σ) (plan : List Errand) : Runtime σ := ⟨.start st, [], 0, plan⟩

/-- The call that blocks the caller. -/
def waiting (s : Runtime σ) : Option Flight := s.flights.head?.filter (·.told.isNone)

/-- What an event makes of a state where it may come. -/
def step? (t : Transport σ) (s : Runtime σ) : Event → Option (Runtime σ)
  | .issue =>
    match s.waiting, s.todo with
    | none, e :: rest =>
      let (ticket, session) := s.session.issue t e.call
      some { s with
        session := session
        flights := .launch ⟨ticket, e.deadline, session.now⟩ :: s.flights
        todo := rest }
    | _, _ => none
  | .complete i =>
    s.flights[i]?.bind fun f => (f.complete? s.session.now).map fun g =>
      { s with flights := s.flights.set i g, completed := s.completed + 1 }
  | .settle i =>
    s.flights[i]?.bind fun f => (f.settle? s.session.now).map fun g =>
      { s with flights := s.flights.set i g }
  | .look =>
    s.flights[0]?.bind fun f => (f.look? s.session.now).map fun g =>
      { s with flights := s.flights.set 0 g }
  | .pass nanos => some { s with session := { s.session with now := s.session.now + nanos } }

/-- The event makes no timer late: the clock stays within the deadline of a caller that waits. -/
def Timely (s : Runtime σ) : Event → Prop
  | .pass nanos => ∀ f, s.waiting = some f → s.session.now + nanos ≤ f.last
  | .issue | .complete _ | .settle _ | .look => True

/-- No timer was late so far. -/
def Punctual (s : Runtime σ) : Prop := ∀ f ∈ s.flights, f.InTime s.session.now

/-- One state comes after another. -/
def Leads (t : Transport σ) : Runtime σ → Runtime σ → Prop :=
  Relation.ReflTransGen fun s s' => ∃ e, s.step? t e = some s'

/-- The next call as it is issued. -/
def departure (t : Transport σ) (s : Runtime σ) (e : Errand) : Departure :=
  ⟨(s.session.issue t e.call).1, e.deadline, s.session.now⟩

/-- What an event makes of a state, with what it finds there. -/
inductive Moves (t : Transport σ) (s : Runtime σ) : Event → Runtime σ → Prop
  | issue {e : Errand} {rest : List Errand} (hw : s.waiting = none) (htodo : s.todo = e :: rest) :
      Moves t s .issue ⟨(s.session.issue t e.call).2, .launch (departure t s e) :: s.flights,
        s.completed, rest⟩
  | complete {i : Nat} {f g : Flight} (hf : s.flights[i]? = some f)
      (hg : f.complete? s.session.now = some g) :
      Moves t s (.complete i)
        { s with flights := s.flights.set i g, completed := s.completed + 1 }
  | settle {i : Nat} {f g : Flight} (hf : s.flights[i]? = some f)
      (hg : f.settle? s.session.now = some g) :
      Moves t s (.settle i) { s with flights := s.flights.set i g }
  | look {f g : Flight} (hf : s.flights[0]? = some f) (hg : f.look? s.session.now = some g) :
      Moves t s .look { s with flights := s.flights.set 0 g }
  | pass {nanos : Nat} :
      Moves t s (.pass nanos) { s with session := { s.session with now := s.session.now + nanos } }

/-- The calls issued, without what became of them. -/
def departures (s : Runtime σ) : List Departure := s.flights.map (·.toDeparture)

end Runtime

/-! ## What holds of one call -/

namespace Flight

/-- How far a call is: what is in its channels, and since when the answer is there. -/
inductive Stage (d : Departure) (now : Nat) :
    Channel Response → Completer Answer → Option Nat → Prop
  | sent : Stage d now (.create d.ticket.call.context) .waiting none
  | delivered (hdue : d.ticket.due.any (· ≤ now)) :
      Stage d now (.ready d.ticket.call.context d.ticket.outcome) .waiting none
  | answered {a : Nat} (hdue : d.ticket.due.any (· ≤ a)) (ha : a ≤ now) :
      Stage d now ⟨d.ticket.call.context, .completed d.ticket.outcome, false⟩
        (.completed d.outcome) (some a)

/-- What the caller was told, and when: the outcome if the answer was there then, and else that its
deadline is past. -/
inductive Told (d : Departure) (now : Nat) (answered : Option Nat) :
    Bool → Option (Outcome Answer) → Option Nat → Prop
  | waits : Told d now answered true none none
  | outcome {a e : Nat} (ha : answered = some a) (hae : a ≤ e) (he : e ≤ now) :
      Told d now answered false (some d.outcome) (some e)
  | timeout {e : Nat} (hlast : d.last ≤ e) (he : e ≤ now)
      (hlate : ∀ a, answered = some a → e ≤ a) :
      Told d now answered false (some d.timeout) (some e)

/-- What holds of a call at any time: how far it is, and what its caller was told, agree with each
other and with the clock. -/
structure Sound (now : Nat) (f : Flight) : Prop where
  since : f.since ≤ now
  context : f.answer.context = f.ticket.call.context
  stage : Stage f.toDeparture now f.raw f.answer.completer f.answered
  told : Told f.toDeparture now f.answered f.answer.held f.told f.ended

/-- What a caller whose timer was not late was told: the outcome if the answer was there by the
deadline, and else, just at the deadline, that it is past. -/
inductive ToldInTime (now : Nat) (f : Flight) : Prop
  | waits (htold : f.told = none) (hlast : now ≤ f.last)
  | outcome {a : Nat} (htold : f.told = some f.outcome) (ha : f.answered = some a)
      (hle : a ≤ f.last)
  | timeout (htold : f.told = some f.timeout) (hended : f.ended = some f.last)
      (hlate : ∀ a, f.answered = some a → f.last ≤ a)

variable {f g : Flight} {d : Departure} {now later : Nat}

theorem any_le_mono {due : Option Nat} (h : due.any (· ≤ now)) (hle : now ≤ later) :
    due.any (· ≤ later) := by
  rcases due with _ | n
  · cases h
  · simp only [Option.any_some, decide_eq_true_eq] at h ⊢
    exact Nat.le_trans h hle

theorem Stage.mono {raw : Channel Response} {completer : Completer Answer} {answered : Option Nat}
    (h : Stage d now raw completer answered) (hle : now ≤ later) :
    Stage d later raw completer answered := by
  cases h with
  | sent => exact .sent
  | delivered hdue => exact .delivered (any_le_mono hdue hle)
  | answered hdue ha => exact .answered hdue (Nat.le_trans ha hle)

theorem Told.mono {held : Bool} {answered ended : Option Nat} {told : Option (Outcome Answer)}
    (h : Told d now answered held told ended) (hle : now ≤ later) :
    Told d later answered held told ended := by
  cases h with
  | waits => exact .waits
  | outcome ha hae he => exact .outcome ha hae (Nat.le_trans he hle)
  | timeout hlast he hlate => exact .timeout hlast (Nat.le_trans he hle) hlate

theorem Sound.launch (d : Departure) : (launch d).Sound d.since where
  since := Nat.le_refl _
  context := rfl
  stage := .sent
  told := .waits

theorem Sound.pass (h : f.Sound now) (hle : now ≤ later) : f.Sound later where
  since := Nat.le_trans h.since hle
  context := h.context
  stage := h.stage.mono hle
  told := h.told.mono hle

/-- While time passes, only a caller that waits may come to be late. -/
theorem Sound.inTime_iff (h : f.Sound now) (hle : now ≤ later) :
    f.InTime later ↔ f.InTime now ∧ (f.told = none → later ≤ f.last) := by
  obtain ⟨d, raw, ⟨context, completer, held⟩, answered, told, ended⟩ := f
  have htold : Told d now answered held told ended := h.told
  cases htold with
  | waits =>
    constructor
    · intro hlate
      exact ⟨Nat.le_trans hle hlate, fun _ => hlate⟩
    · rintro ⟨-, hlate⟩
      exact hlate rfl
  | outcome | timeout => exact (and_iff_left nofun).symm

theorem Sound.toldInTime (h : f.Sound now) (hintime : f.InTime now) : f.ToldInTime now := by
  obtain ⟨d, raw, ⟨context, completer, held⟩, answered, told, ended⟩ := f
  have htold : Told d now answered held told ended := h.told
  cases htold with
  | waits => exact .waits rfl hintime
  | outcome ha hae he => exact .outcome rfl ha (Nat.le_trans hae hintime)
  | @timeout e hlast he hlate =>
    obtain rfl : d.last = e := Nat.le_antisymm hlast hintime
    exact .timeout rfl rfl hlate

theorem Sound.complete (h : f.Sound now) (hc : f.complete? now = some g) :
    g.toDeparture = f.toDeparture ∧ g.told = f.told ∧ g.ended = f.ended ∧
      f.raw.isOpen = true ∧ g.raw.isOpen = false ∧ g.Sound now := by
  obtain ⟨d, raw, ⟨context, completer, held⟩, answered, told, ended⟩ := f
  have hstage : Stage d now raw completer answered := h.stage
  have htold : Told d now answered held told ended := h.told
  rw [complete?] at hc
  by_cases hdue : d.ticket.due.any (· ≤ now)
  · rw [if_pos hdue] at hc
    cases hstage with
    | sent =>
      cases hc
      exact ⟨rfl, rfl, rfl, rfl, rfl, h.since, h.context, .delivered hdue, htold⟩
    | delivered | answered => cases hc
  · rw [if_neg hdue] at hc
    cases hc

theorem Sound.settle (h : f.Sound now) (hc : f.settle? now = some g) :
    g.toDeparture = f.toDeparture ∧ g.told = f.told ∧ g.ended = f.ended ∧
      g.raw.isOpen = f.raw.isOpen ∧ g.Sound now := by
  obtain ⟨d, raw, ⟨context, completer, held⟩, answered, told, ended⟩ := f
  have hstage : Stage d now raw completer answered := h.stage
  have htold : Told d now answered held told ended := h.told
  cases hstage with
  | sent => cases hc
  | delivered hdue =>
    cases hc
    refine ⟨rfl, rfl, rfl, rfl, h.since, h.context, .answered hdue (Nat.le_refl _), ?_⟩
    cases htold with
    | waits => exact .waits
    | outcome ha => cases ha
    | timeout hlast he =>
      -- the caller is gone, so the answer comes no sooner than it left
      refine .timeout hlast he ?_
      rintro a ⟨⟩
      exact he
  | answered => cases hc

theorem look?_create (d : Departure) (raw : Channel Response) (answered ended : Option Nat)
    (told : Option (Outcome Answer)) :
    look? now ⟨d, raw, .create d.ticket.call.context, answered, told, ended⟩ =
      if d.last ≤ now then
        some ⟨d, raw, ⟨d.ticket.call.context, .waiting, false⟩, answered, some d.timeout, some now⟩
      else none :=
  rfl

/-- **Completion comes first, even at the deadline.** A caller that waits finds the outcome if it is
there, and the deadline if it is not there by then. -/
theorem Sound.look?_eq (h : f.Sound now) (hwait : f.told = none) :
    (f.look? now).map (·.told) =
      if f.answered.isSome then some (some f.outcome)
      else if f.last ≤ now then some (some f.timeout) else none := by
  obtain ⟨d, raw, ⟨context, completer, held⟩, answered, told, ended⟩ := f
  have hstage : Stage d now raw completer answered := h.stage
  have htold : Told d now answered held told ended := h.told
  obtain rfl : told = none := hwait
  obtain rfl : context = d.ticket.call.context := h.context
  cases htold
  cases hstage with
  | sent | delivered =>
    rw [← Channel.create, look?_create]
    by_cases hlate : d.last ≤ now
    · rw [if_pos hlate]
      exact (if_pos hlate).symm
    · rw [if_neg hlate]
      exact (if_neg hlate).symm
  | answered hdue ha => rfl

theorem Sound.look (h : f.Sound now) (hc : f.look? now = some g) :
    g.toDeparture = f.toDeparture ∧ g.told.isSome ∧ f.ended = none ∧ g.ended = some now ∧
      g.raw = f.raw ∧ g.Sound now := by
  obtain ⟨d, raw, ⟨context, completer, held⟩, answered, told, ended⟩ := f
  have hstage : Stage d now raw completer answered := h.stage
  have htold : Told d now answered held told ended := h.told
  obtain rfl : context = d.ticket.call.context := h.context
  cases htold with
  | waits =>
    cases hstage with
    | sent | delivered =>
      rw [← Channel.create, look?_create] at hc
      by_cases hle : d.last ≤ now
      · rw [if_pos hle] at hc
        cases hc
        exact ⟨rfl, rfl, rfl, rfl, rfl, h.since, rfl, h.stage, .timeout hle (Nat.le_refl _) nofun⟩
      · rw [if_neg hle] at hc
        cases hc
    | answered hdue ha =>
      cases hc
      exact ⟨rfl, rfl, rfl, rfl, rfl, h.since, rfl, h.stage, .outcome rfl ha (Nat.le_refl _)⟩
  | outcome | timeout => cases hc

end Flight

/-! ## What holds of a run -/

namespace Runtime

variable {σ : Type} {t : Transport σ} {st : σ} {plan : List Errand} {s s' : Runtime σ}
  {f g : Flight}

/-- The transport was asked for these calls, latest first, and they are due as it has it. -/
inductive Asked (t : Transport σ) (st : σ) : List Departure → σ → Prop
  | start : Asked t st [] st
  | next {ds : List Departure} {d : Departure} {st' st'' : σ} {delay : Option Duration}
      (h : Asked t st ds st')
      (ht : t d.ticket.call.request st' = (⟨d.ticket.outcome, delay⟩, st''))
      (hdue : d.ticket.due = delay.map fun x => d.since + x.nanos) : Asked t st (d :: ds) st''

/-- What holds at every point of a run that starts with a plan. -/
structure Books (t : Transport σ) (st : σ) (plan : List Errand) (s : Runtime σ) : Prop where
  /-- The calls that were made and those that were not are those of the plan, in its order. -/
  planned : s.departures.reverse.map (·.errand) ++ s.todo = plan
  submitted : s.session.submitted = s.departures.map (·.ticket.call.request)
  asked : Asked t st s.departures s.session.state
  flights : ∀ f ∈ s.flights, f.Sound s.session.now
  /-- Only the latest call may have a caller that waits. -/
  told : ∀ f ∈ s.flights.tail, f.told.isSome
  /-- The transport counts what it has completed. -/
  completed : s.completed = s.flights.countP fun f => !f.raw.isOpen

theorem Books.start (t : Transport σ) (st : σ) (plan : List Errand) :
    (start st plan).Books t st plan where
  planned := rfl
  submitted := rfl
  asked := .start
  flights := fun _ hf => absurd hf List.not_mem_nil
  told := fun _ hf => absurd hf List.not_mem_nil
  completed := rfl

theorem exists_split {α : Type} {l : List α} {i : Nat} {a : α} (h : l[i]? = some a) :
    ∃ before after, l = before ++ a :: after ∧ ∀ b, l.set i b = before ++ b :: after := by
  obtain ⟨hi, rfl⟩ := List.getElem?_eq_some_iff.mp h
  refine ⟨l.take i, l.drop (i + 1), ?_, fun b => ?_⟩
  · rw [List.getElem_cons_drop hi, List.take_append_drop]
  · rw [List.set_eq_take_append_cons_drop, if_pos hi]

theorem departures_set {i : Nat} (hf : s.flights[i]? = some f)
    (hd : g.toDeparture = f.toDeparture) :
    (s.flights.set i g).map (·.toDeparture) = s.departures := by
  obtain ⟨before, after, hsplit, hset⟩ := exists_split hf
  rw [hset, departures, hsplit]
  simp only [List.map_append, List.map_cons, hd]

/-- One call moves on, and no other. -/
theorem Books.set (h : s.Books t st plan) {i n : Nat} (hf : s.flights[i]? = some f)
    (hd : g.toDeparture = f.toDeparture) (htold : f.told.isSome → g.told.isSome)
    (hg : g.Sound s.session.now)
    (hn : n + (!f.raw.isOpen).toNat = s.completed + (!g.raw.isOpen).toNat) :
    Books t st plan { s with flights := s.flights.set i g, completed := n } := by
  obtain ⟨before, after, hsplit, hset⟩ := exists_split hf
  have hsame : departures { s with flights := s.flights.set i g, completed := n } =
      s.departures := departures_set hf hd
  refine ⟨hsame ▸ h.planned, hsame ▸ h.submitted, hsame ▸ h.asked, ?_, ?_, ?_⟩
  · intro x hx
    rcases List.mem_or_eq_of_mem_set hx with hx | rfl
    · exact h.flights x hx
    · exact hg
  · intro x hx
    have hall := h.told
    rw [hsplit] at hall
    rw [hset] at hx
    rcases before with _ | ⟨b, before⟩
    · exact hall x hx
    · rcases List.mem_append.mp hx with hx | hx
      · exact hall x (List.mem_append_left _ hx)
      · rcases List.mem_cons.mp hx with rfl | hx
        · exact htold (hall f (List.mem_append_right _ List.mem_cons_self))
        · exact hall x (List.mem_append_right _ (List.mem_cons_of_mem _ hx))
  · have hone : ∀ b : Bool, (if b = true then 1 else 0) = b.toNat := by decide
    have hcompleted := h.completed
    simp only [hsplit, List.countP_append, List.countP_cons, hone] at hcompleted
    simp only [hset, List.countP_append, List.countP_cons, hone]
    omega

theorem flights_of_waiting (hw : s.waiting = some f) :
    f.told = none ∧ ∃ rest, s.flights = f :: rest := by
  obtain ⟨hhead, htold⟩ := Option.filter_eq_some_iff.mp hw
  exact ⟨Option.isNone_iff_eq_none.mp htold, List.head?_eq_some_iff.mp hhead⟩

/-- Whoever waits is the last to have called. -/
theorem Books.waiting_of_mem (h : s.Books t st plan) (hf : f ∈ s.flights) (hw : f.told = none) :
    s.waiting = some f := by
  cases hflights : s.flights with
  | nil =>
    rw [hflights] at hf
    cases hf
  | cons g rest =>
    rw [hflights] at hf
    rcases List.mem_cons.mp hf with rfl | hf
    · simp [waiting, hflights, hw]
    · have htold := h.told f (by rw [hflights]; exact hf)
      rw [hw] at htold
      cases htold

theorem Books.told_of_waiting (h : s.Books t st plan) (hw : s.waiting = none) :
    ∀ f ∈ s.flights, f.told.isSome := by
  intro f hf
  cases htold : f.told with
  | none =>
    have hwaiting := h.waiting_of_mem hf htold
    rw [hw] at hwaiting
    cases hwaiting
  | some result => rfl

theorem moves_of_step {e : Event} (hs : s.step? t e = some s') : Moves t s e s' := by
  cases e with
  | issue =>
    cases hw : s.waiting with
    | some f =>
      rw [step?, hw] at hs
      cases hs
    | none =>
      cases htodo : s.todo with
      | nil =>
        rw [step?, hw, htodo] at hs
        cases hs
      | cons e rest =>
        rw [step?, hw, htodo] at hs
        cases hs
        exact .issue hw htodo
  | complete i =>
    obtain ⟨f, hf, hs⟩ := Option.bind_eq_some_iff.mp hs
    obtain ⟨g, hg, rfl⟩ := Option.map_eq_some_iff.mp hs
    exact .complete hf hg
  | settle i =>
    obtain ⟨f, hf, hs⟩ := Option.bind_eq_some_iff.mp hs
    obtain ⟨g, hg, rfl⟩ := Option.map_eq_some_iff.mp hs
    exact .settle hf hg
  | look =>
    obtain ⟨f, hf, hs⟩ := Option.bind_eq_some_iff.mp hs
    obtain ⟨g, hg, rfl⟩ := Option.map_eq_some_iff.mp hs
    exact .look hf hg
  | pass nanos =>
    cases hs
    exact .pass

theorem Books.issue (h : s.Books t st plan) (hw : s.waiting = none) {e : Errand}
    {rest : List Errand} (htodo : s.todo = e :: rest) :
    Books t st plan ⟨(s.session.issue t e.call).2, .launch (departure t s e) :: s.flights,
      s.completed, rest⟩ := by
  have hplanned := h.planned
  rw [htodo] at hplanned
  refine ⟨?_, ?_, .next h.asked rfl rfl, ?_, h.told_of_waiting hw, h.completed⟩
  · rw [← hplanned]
    simp [departures, departure, Flight.launch, Departure.errand, Session.issue]
  · exact congrArg (e.call.request :: ·) h.submitted
  · intro f hf
    rcases List.mem_cons.mp hf with rfl | hf
    · exact Flight.Sound.launch (departure t s e)
    · exact h.flights f hf

theorem Books.step (h : s.Books t st plan) {e : Event} (hs : s.step? t e = some s') :
    s'.Books t st plan := by
  cases moves_of_step hs with
  | issue hw htodo => exact h.issue hw htodo
  | complete hf hg =>
    obtain ⟨hd, htold, -, hopen, hclosed, hg⟩ :=
      (h.flights _ (List.mem_of_getElem? hf)).complete hg
    refine h.set hf hd (by rw [htold]; exact id) hg ?_
    rw [hopen, hclosed]
    rfl
  | settle hf hg =>
    obtain ⟨hd, htold, -, hopen, hg⟩ := (h.flights _ (List.mem_of_getElem? hf)).settle hg
    exact h.set hf hd (by rw [htold]; exact id) hg (by rw [hopen])
  | look hf hg =>
    obtain ⟨hd, htold, -, -, hraw, hg⟩ := (h.flights _ (List.mem_of_getElem? hf)).look hg
    exact h.set hf hd (fun _ => htold) hg (by rw [hraw])
  | pass =>
    exact ⟨h.planned, h.submitted, h.asked,
      fun f hf => (h.flights f hf).pass (Nat.le_add_right _ _), h.told, h.completed⟩

theorem Books.leads (h : s.Books t st plan) (hs : Leads t s s') : s'.Books t st plan := by
  induction hs with
  | refl => exact h
  | tail _ hstep ih =>
    obtain ⟨e, he⟩ := hstep
    exact ih.step he

/-! ## Punctual runs -/

theorem punctual_start (st : σ) (plan : List Errand) : (start st plan).Punctual :=
  fun _ hf => absurd hf List.not_mem_nil

/-- Where one call moves on and its timer is as it was, the others are as they were. -/
theorem punctual_set {i n : Nat} (hf : s.flights[i]? = some f)
    (hsame : g.InTime s.session.now ↔ f.InTime s.session.now) :
    Punctual { s with flights := s.flights.set i g, completed := n } ↔ s.Punctual := by
  obtain ⟨before, after, hsplit, hset⟩ := exists_split hf
  unfold Punctual
  simp only [hset]
  simp only [hsplit, List.forall_mem_append, List.forall_mem_cons, hsame]

/-- **Only a clock that goes past the deadline of a caller that waits makes a run late.** -/
theorem Books.punctual_iff (h : s.Books t st plan) {e : Event} (hs : s.step? t e = some s') :
    s'.Punctual ↔ s.Punctual ∧ s.Timely e := by
  cases moves_of_step hs with
  | @issue e rest hw htodo =>
    have hfirst : (Flight.launch (departure t s e)).InTime s.session.now := Nat.le_add_right _ _
    exact List.forall_mem_cons.trans ((and_iff_right hfirst).trans (and_iff_left trivial).symm)
  | complete hf hg =>
    obtain ⟨hd, -, hended, -⟩ := (h.flights _ (List.mem_of_getElem? hf)).complete hg
    refine (punctual_set hf ?_).trans (and_iff_left trivial).symm
    rw [Flight.InTime, Flight.InTime, hended, hd]
  | settle hf hg =>
    obtain ⟨hd, -, hended, -⟩ := (h.flights _ (List.mem_of_getElem? hf)).settle hg
    refine (punctual_set hf ?_).trans (and_iff_left trivial).symm
    rw [Flight.InTime, Flight.InTime, hended, hd]
  | look hf hg =>
    -- a caller is told when it looks, so it was in time if it is in time then
    obtain ⟨hd, -, hwaited, hended, -⟩ := (h.flights _ (List.mem_of_getElem? hf)).look hg
    refine (punctual_set hf ?_).trans (and_iff_left trivial).symm
    rw [Flight.InTime, Flight.InTime, hended, hwaited, hd]
    rfl
  | @pass nanos =>
    have hpassed : ∀ f ∈ s.flights, f.InTime (s.session.now + nanos) ↔ f.InTime s.session.now ∧
        (f.told = none → s.session.now + nanos ≤ f.last) :=
      fun f hf => (h.flights f hf).inTime_iff (Nat.le_add_right _ _)
    constructor
    · intro hp
      refine ⟨fun f hf => ((hpassed f hf).mp (hp f hf)).1, fun f hw => ?_⟩
      obtain ⟨hwait, rest, hflights⟩ := flights_of_waiting hw
      have hf : f ∈ s.flights := hflights ▸ List.mem_cons_self
      exact ((hpassed f hf).mp (hp f hf)).2 hwait
    · rintro ⟨hp, htimely⟩ f hf
      exact (hpassed f hf).mpr ⟨hp f hf, fun hwait => htimely f (h.waiting_of_mem hf hwait)⟩

end Runtime

end BucketAdmin.Client
