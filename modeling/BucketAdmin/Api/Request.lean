import BucketAdmin.Api.Body
import BucketAdmin.Api.Endpoint

/-!
# Requests

A request describes one management call. It names its route and its body; it carries no deadline.
-/

namespace BucketAdmin.Api

open Bucket (Name Settings)

/-- The kinds of management calls. -/
inductive Operation where
  | info
  | listBuckets
  | getBucket
  | hasBucket
  | insertBucket
  | updateBucket
  | removeBucket
  deriving DecidableEq, Repr

namespace Operation

/-- The name callers know an operation by. -/
def text : Operation → String
  | .info => "info"
  | .listBuckets => "getBuckets"
  | .getBucket => "getBucket"
  | .hasBucket => "hasBucket"
  | .insertBucket => "insertBucket"
  | .updateBucket => "updateBucket"
  | .removeBucket => "removeBucket"

/-- All operations, by name. -/
def named : List (String × Operation) :=
  [.info, .listBuckets, .getBucket, .hasBucket, .insertBucket, .updateBucket,
    .removeBucket].map fun o => (o.text, o)

/-- The operation changes what the server stores. -/
def isMutation : Operation → Bool
  | .insertBucket | .updateBucket | .removeBucket => true
  | .info | .listBuckets | .getBucket | .hasBucket => false

end Operation

/-- One management call, as a transport gets it. -/
structure Request where
  operation : Operation
  target : Option Name
  payload : Option Settings
  deriving DecidableEq

namespace Request

/-- Ask for a snapshot of the cluster. -/
def info : Request := ⟨.info, none, none⟩

/-- Ask for all buckets. -/
def listBuckets : Request := ⟨.listBuckets, none, none⟩

/-- Ask for one bucket. -/
def getBucket (n : Name) : Request := ⟨.getBucket, some n, none⟩

/-- Ask whether a bucket exists. -/
def hasBucket (n : Name) : Request := ⟨.hasBucket, some n, none⟩

/-- Register a bucket. -/
def insertBucket (s : Settings) : Request := ⟨.insertBucket, some s.name, some s⟩

/-- Replace the settings of a bucket. -/
def updateBucket (s : Settings) : Request := ⟨.updateBucket, some s.name, some s⟩

/-- Remove a bucket. -/
def removeBucket (n : Name) : Request := ⟨.removeBucket, some n, none⟩

/-- The route of a request. -/
def endpoint (r : Request) : Except Fault Endpoint :=
  match r.operation, r.target with
  | .info, _ => .ok .clusterInfo
  | .listBuckets, _ => .ok .listBuckets
  | .insertBucket, _ => .ok .createBucket
  | .getBucket, some n | .hasBucket, some n => .ok (.getBucket n)
  | .updateBucket, some n => .ok (.updateBucket n)
  | .removeBucket, some n => .ok (.deleteBucket n)
  | _, none => .error .missingName

/-- The body of a request, if it carries one. -/
def body (r : Request) : Option Bytes := r.payload.map encodeSettings

end Request

end BucketAdmin.Api
