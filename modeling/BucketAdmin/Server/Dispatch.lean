import BucketAdmin.Api.Request
import BucketAdmin.Api.Response
import BucketAdmin.Server.Profile

/-!
# The management server

`dispatch` takes a route and a body to a response and the next state. A request that is rejected
leaves the state as it was.

The checks of a request and its write are one step: no other request comes between them. The disk
space that the storage engine takes is in the state because a snapshot tells it. Requests do not set
it; the engine may, at any time.
-/

namespace BucketAdmin

/-- A serving node and what it stores. -/
structure Server where
  profile : Server.Profile
  store : Registry.Store
  /-- The bytes that the storage engine takes on disk, as it says itself. -/
  diskSpace : UInt64
  deriving DecidableEq

namespace Server

open Api (Endpoint Response Status)
open Bucket (Name)

/-- A node that stores nothing yet, and takes no disk space as far as is known. -/
def start (profile : Profile) : Server := ⟨profile, .empty, 0⟩

/-- The bound on the sum of all quotas. -/
def capacityMb (sv : Server) : Option UInt64 := some sv.profile.ramTotalMb

/-- Why a request is not done. -/
inductive Rejection where
  | body (fault : Api.Fault)
  /-- The body names another bucket than the path. -/
  | nameMismatch (inBody inPath : Name)
  | registry (refusal : Refusal)
  deriving DecidableEq

namespace Rejection

/-- The words for a rejection. -/
def message : Rejection → String
  | .body f => f.message
  | .nameMismatch inBody inPath =>
    s!"Body names bucket {inBody.text} but path names {inPath.text}"
  | .registry r => r.message

/-- The status of a rejection. -/
def status : Rejection → Status
  | .body _ | .nameMismatch .. => .badRequest
  | .registry (.bucketExists _) => .conflict
  | .registry (.bucketMissing _) => .notFound
  | .registry (.name _) | .registry (.settings _) | .registry (.version _) => .badRequest
  | .registry (.undecodable _) => .other 500

/-- The response to a request that is rejected. -/
def response (r : Rejection) : Response := .error r.status r.message

end Rejection

/-- The settings in the body of a request. -/
def readSettings (body : Bytes) : Except Rejection Bucket.Settings :=
  (Api.decodeSettings body).mapError .body

/-- Do a request: the response, and what is stored after it. -/
def perform (sv : Server) (e : Endpoint) (body : Bytes) :
    Except Rejection (Response × Registry.Store) :=
  match e with
  | .clusterInfo => do
    let info ← (sv.profile.snapshot sv.diskSpace sv.store).mapError .registry
    .ok (⟨.ok, Api.encodeInfo info⟩, sv.store)
  | .listBuckets => do
    let buckets ← (Registry.list sv.store).mapError .registry
    .ok (⟨.ok, Api.encodeBucketList buckets⟩, sv.store)
  | .getBucket n => do
    match ← (Registry.get sv.store n).mapError .registry with
    | some s => .ok (⟨.ok, Api.encodeSettings s⟩, sv.store)
    | none => .error (.registry (.bucketMissing n))
  | .createBucket => do
    let s ← readSettings body
    let (stored, store) ← (Registry.insert sv.capacityMb sv.store s).mapError .registry
    .ok (⟨.accepted, Api.encodeSettings stored⟩, store)
  | .updateBucket n => do
    let s ← readSettings body
    if s.name ≠ n then .error (.nameMismatch s.name n)
    else
      let (stored, store) ← (Registry.update sv.capacityMb sv.store s).mapError .registry
      .ok (⟨.accepted, Api.encodeSettings stored⟩, store)
  | .deleteBucket n => do
    match ← (Registry.remove sv.store n).mapError .registry with
    | (true, store) => .ok (⟨.ok, []⟩, store)
    | (false, _) => .error (.registry (.bucketMissing n))

/-- The response to a request and the state after it. -/
def dispatch (sv : Server) (e : Endpoint) (body : Bytes) : Response × Server :=
  match sv.perform e body with
  | .ok (response, store) => (response, { sv with store })
  | .error rejection => (rejection.response, sv)

end Server

end BucketAdmin
