import BucketAdmin.Client.Failure

/-!
# Pending results

A channel links the completer of a call with the pending result its caller holds. Completing uses
the completer up, and so does dropping it; polling uses the pending result up once it is ready. An
operation whose side is gone gives `none`.
-/

namespace BucketAdmin.Client

/-- What a call ends in. -/
abbrev Outcome (α : Type) := Except Failure α

/-- The producing side of a channel. -/
inductive Completer (α : Type) where
  | waiting
  | completed (outcome : Outcome α)
  | dropped

/-- A completer and a pending result for one call. -/
structure Channel (α : Type) where
  context : Context
  completer : Completer α
  /-- The caller still holds the pending result. -/
  held : Bool

/-- What a poll finds. -/
inductive Poll (α : Type) where
  | pending
  | ready (outcome : Outcome α)

namespace Channel

variable {α : Type}

/-- A channel on which nothing has happened. -/
def create (context : Context) : Channel α := ⟨context, .waiting, true⟩

/-- A pending result that has its outcome from the start. -/
def ready (context : Context) (outcome : Outcome α) : Channel α :=
  ⟨context, .completed outcome, true⟩

/-- The completer is still there. -/
def isOpen (c : Channel α) : Bool :=
  match c.completer with
  | .waiting => true
  | .completed _ | .dropped => false

/-- Deliver the outcome. -/
def complete? (c : Channel α) (outcome : Outcome α) : Option (Channel α) :=
  if c.isOpen then some { c with completer := .completed outcome } else none

/-- Drop the completer without an outcome. -/
def dropCompleter? (c : Channel α) : Option (Channel α) :=
  if c.isOpen then some { c with completer := .dropped } else none

/-- Drop the pending result. -/
def dropPending? (c : Channel α) : Option (Channel α) :=
  if c.held then some { c with held := false } else none

/-- Ask the completer whether the pending result is gone. -/
def isAbandoned? (c : Channel α) : Option Bool :=
  if c.isOpen then some !c.held else none

/-- Ask the pending result for its outcome, once. -/
def poll? (c : Channel α) : Option (Poll α × Channel α) :=
  if c.held then
    match c.completer with
    | .waiting => some (.pending, c)
    | .completed outcome => some (.ready outcome, { c with held := false })
    | .dropped => some (.ready (.error (.dropped c.context)), { c with held := false })
  else none

end Channel

end BucketAdmin.Client
