import BucketAdmin.Api.Request
import BucketAdmin.Text.Duration

/-!
# Failures of calls

Every call that does not succeed ends in exactly one failure, which names the call it belongs to.
-/

namespace BucketAdmin.Client

open Api (Operation)

/-- Which call failed, and on which bucket. -/
structure Context where
  operation : Operation
  target : Option Bucket.Name
  deriving DecidableEq

/-- The text of a context, such as `insertBucket(temp)`. -/
def Context.text (c : Context) : String :=
  match c.target with
  | some n => s!"{c.operation.text}({n.text})"
  | none => c.operation.text

/-- The context of a request. -/
def Context.ofRequest (r : Api.Request) : Context := ⟨r.operation, r.target⟩

/-- How a call can fail. -/
inductive Failure where
  /-- The deadline came first; the request may still take effect. -/
  | timeout (context : Context) (after : Duration)
  | transport (context : Context) (message : String)
  | undecodable (context : Context) (message : String)
  | alreadyExists (context : Context)
  | notFound (context : Context)
  deriving DecidableEq

namespace Failure

/-- The kinds of failures. -/
inductive Kind where
  | timeout
  | transport
  | undecodable
  | alreadyExists
  | notFound
  deriving DecidableEq, Repr

/-- The kind of a failure. -/
def kind : Failure → Kind
  | .timeout .. => .timeout
  | .transport .. => .transport
  | .undecodable .. => .undecodable
  | .alreadyExists _ => .alreadyExists
  | .notFound _ => .notFound

/-- The call that failed. -/
def context : Failure → Context
  | .timeout c _ | .transport c _ | .undecodable c _ | .alreadyExists c | .notFound c => c

/-- The deadline came first. -/
def isTimeout : Failure → Bool
  | .timeout .. => true
  | .transport .. | .undecodable .. | .alreadyExists _ | .notFound _ => false

/-- The words for a failure, after those for its context. -/
def detail : Failure → String
  | .timeout _ d => s!"timed out after {d.text}"
  | .transport _ message => s!"transport failure: {message}"
  | .undecodable _ message => s!"could not decode response: {message}"
  | .alreadyExists _ => "bucket already exists"
  | .notFound _ => "bucket not found"

/-- The words for a failure. -/
def message (f : Failure) : String := s!"{f.context.text}: {f.detail}"

/-- The failure of a call whose completer was dropped. -/
def dropped (c : Context) : Failure := .transport c "operation dropped before completing"

end Failure

end BucketAdmin.Client
