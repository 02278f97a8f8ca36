import BucketAdmin.Api.Response
import BucketAdmin.Client.Pending

/-!
# Calls

The seven calls of the management API, the request each one makes, and the answer each one draws
from a response.
-/

namespace BucketAdmin.Client

open Api (Request Response)
open Bucket (Name Settings)

/-- A management call. -/
inductive Call where
  | info
  | buckets
  | bucket (name : Name)
  | hasBucket (name : Name)
  | insertBucket (settings : Settings)
  | updateBucket (settings : Settings)
  | removeBucket (name : Name)
  deriving DecidableEq

/-- What a call that succeeds tells. -/
inductive Answer where
  | info (info : Cluster.Info)
  | buckets (buckets : List Settings)
  /-- A bucket, or its absence. -/
  | lookup (found : Option Settings)
  | flag (b : Bool)
  | settings (settings : Settings)
  deriving DecidableEq

namespace Call

/-- The request of a call. -/
def request : Call → Request
  | .info => .info
  | .buckets => .listBuckets
  | .bucket n => .getBucket n
  | .hasBucket n => .hasBucket n
  | .insertBucket s => .insertBucket s
  | .updateBucket s => .updateBucket s
  | .removeBucket n => .removeBucket n

/-- The context of a call. -/
def context (c : Call) : Context := .ofRequest c.request

/-- What a body that was decoded tells, or the failure to decode it. -/
def decoded {α : Type} (c : Call) (result : Except Api.Fault α) (answer : α → Answer) :
    Outcome Answer :=
  match result with
  | .ok a => .ok (answer a)
  | .error f => .error (.undecodable c.context f.message)

/-- The failure of a response that a call has no use for. -/
def unexpected (c : Call) (r : Response) : Failure :=
  .transport c.context s!"{r.errorMessage} ({r.status.code})"

/-- The answer in a successful response. -/
def accept (c : Call) (body : Bytes) : Outcome Answer :=
  match c with
  | .info => c.decoded (Api.decodeInfo body) .info
  | .buckets => c.decoded (Api.decodeBucketList body) .buckets
  | .bucket _ => c.decoded (Api.decodeSettings body) fun s => .lookup (some s)
  | .hasBucket _ | .removeBucket _ => .ok (.flag true)
  | .insertBucket _ | .updateBucket _ => c.decoded (Api.decodeSettings body) .settings

/-- The answer in a response. Absence is an answer for a look-up, a probe and a removal, and a
failure for an update. -/
def classify (c : Call) (r : Response) : Outcome Answer :=
  if r.status.isSuccess then c.accept r.body
  else
    match c, r.status with
    | .bucket _, .notFound => .ok (.lookup none)
    | .hasBucket _, .notFound | .removeBucket _, .notFound => .ok (.flag false)
    | .updateBucket _, .notFound => .error (.notFound c.context)
    | .insertBucket _, .conflict => .error (.alreadyExists c.context)
    | _, _ => .error (c.unexpected r)

/-- The outcome of a call whose transport ends in `outcome`. -/
def resolve (c : Call) (outcome : Outcome Response) : Outcome Answer :=
  outcome.bind c.classify

end Call

end BucketAdmin.Client
