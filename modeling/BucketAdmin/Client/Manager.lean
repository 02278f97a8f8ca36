import BucketAdmin.Client.Call

/-!
# Managers

A manager issues calls over a transport. Issuing gives a ticket at once; a ticket is awaited without
a bound, or waited for up to a deadline. A deadline that comes first ends the wait and nothing else:
the request stays in flight.

Time is a count of nanoseconds that advances only while something is waited for.
-/

namespace BucketAdmin.Client

open Api (Request Response)

/-- What a transport makes of a request: an outcome, and how long after the request it comes, if
ever. -/
structure Delivery where
  outcome : Outcome Response
  delay : Option Duration

/-- The delivery of an outcome that comes at once. -/
def Delivery.now (outcome : Outcome Response) : Delivery := ⟨outcome, some ⟨0⟩⟩

/-- A transport with state of type `σ`. -/
abbrev Transport (σ : Type) := Request → σ → Delivery × σ

/-- A call in flight. -/
structure Ticket where
  call : Call
  outcome : Outcome Response
  /-- When the outcome comes, if ever. -/
  due : Option Nat

/-- A manager at work over a transport with state of type `σ`. -/
structure Session (σ : Type) where
  state : σ
  now : Nat
  /-- The requests submitted, latest first. -/
  submitted : List Request
  /-- When each request completes, if ever, latest first. -/
  due : List (Option Nat)

namespace Session

variable {σ : Type}

/-- A manager that has done nothing yet. -/
def start (state : σ) : Session σ := ⟨state, 0, [], []⟩

/-- The requests submitted, in order. -/
def requests (s : Session σ) : List Request := s.submitted.reverse

/-- The number of requests completed by now. -/
def completed (s : Session σ) : Nat :=
  s.due.countP fun d => d.any (· ≤ s.now)

/-- Submit the request of a call. -/
def issue (t : Transport σ) (c : Call) (s : Session σ) : Ticket × Session σ :=
  let (delivery, state) := t c.request s.state
  let due := delivery.delay.map fun d => s.now + d.nanos
  (⟨c, delivery.outcome, due⟩,
    { s with state, submitted := c.request :: s.submitted, due := due :: s.due })

/-- Wait for a call until it completes; `none` when it never does. -/
def await (ticket : Ticket) (s : Session σ) : Option (Outcome Answer × Session σ) :=
  ticket.due.map fun due =>
    (ticket.call.resolve ticket.outcome, { s with now := max s.now due })

/-- Wait for a call until it completes or the deadline passes. Completion wins a tie. -/
def waitFor (deadline : Duration) (ticket : Ticket) (s : Session σ) : Outcome Answer × Session σ :=
  let last := s.now + deadline.nanos
  match ticket.due with
  | some due =>
    if due ≤ last then (ticket.call.resolve ticket.outcome, { s with now := max s.now due })
    else (.error (.timeout ticket.call.context deadline), { s with now := last })
  | none => (.error (.timeout ticket.call.context deadline), { s with now := last })

/-- Make a call and wait for it up to a deadline. -/
def call (t : Transport σ) (deadline : Duration) (c : Call) (s : Session σ) :
    Outcome Answer × Session σ :=
  let (ticket, s) := s.issue t c
  s.waitFor deadline ticket

end Session

end BucketAdmin.Client
