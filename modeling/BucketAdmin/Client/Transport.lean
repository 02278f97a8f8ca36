import BucketAdmin.Client.Manager
import BucketAdmin.Server.Dispatch

/-!
# Transports without a network

A scripted transport answers every operation with a fixed response, a queued one uses up a list of
replies, and an in-process one asks a server directly.
-/

namespace BucketAdmin.Client

open Api (Operation Request Response)

/-- The response to an operation for which nothing is scripted. -/
def notScripted : Response := .error .notFound "not scripted"

/-- One response for each operation, the latest first, and how long every response is held back. -/
structure Script where
  responses : List (Operation × Response)
  delay : Duration

namespace Script

/-- Fix the response to an operation. -/
def set (s : Script) (o : Operation) (r : Response) : Script :=
  { s with responses := (o, r) :: s.responses }

/-- The response to an operation. -/
def response (s : Script) (o : Operation) : Response :=
  (s.responses.lookup o).getD notScripted

/-- The scripted transport. -/
def transport : Transport Script := fun r s =>
  (⟨.ok (s.response r.operation), some s.delay⟩, s)

end Script

/-- A reply that is used once. -/
inductive Reply where
  | respond (response : Response)
  /-- The transport fails. -/
  | fail (failure : Context → Failure)
  /-- The completer is dropped. -/
  | drop
  /-- Nothing comes. -/
  | hang

/-- What the transport delivers for a reply. -/
def Reply.delivery (c : Context) : Reply → Delivery
  | .respond r => .now (.ok r)
  | .fail f => .now (.error (f c))
  | .drop => .now (.error (.dropped c))
  | .hang => ⟨.error (.dropped c), none⟩

/-- The replies to come, each for one operation. -/
abbrev Queue := List (Operation × Reply)

/-- The transport that takes the first reply for the operation out of the queue. -/
def Queue.transport : Transport Queue := fun r q =>
  match q.find? (·.1 == r.operation) with
  | some (_, reply) => (reply.delivery (.ofRequest r), q.eraseP (·.1 == r.operation))
  | none => (.now (.ok notScripted), q)

/-- The transport that hands each request to a server. A request that lacks the name its route needs
is a bad one and goes no further. -/
def inProcess : Transport Server := fun r sv =>
  match r.endpoint with
  | .ok e =>
    let (response, sv) := sv.dispatch e (r.body.getD [])
    (.now (.ok response), sv)
  | .error f => (.now (.ok (.error .badRequest f.message)), sv)

end BucketAdmin.Client
