import BucketAdmin.Api.Fault

/-!
# Routes

An endpoint is a verb on a path. `method` and `path` print it, `parse` reads it back; slashes at the
end of a path do not matter.
-/

namespace BucketAdmin.Api

open Bucket (Name)

/-- The path of the cluster. -/
def clusterPath : String := "/pools/default"

/-- The path of the bucket collection. -/
def bucketsPath : String := "/pools/default/buckets"

/-- A management route. -/
inductive Endpoint where
  | clusterInfo
  | listBuckets
  | getBucket (name : Name)
  | createBucket
  | updateBucket (name : Name)
  | deleteBucket (name : Name)
  deriving DecidableEq

/-- A path without the slashes at its end. -/
def trimSlashes (path : String) : String :=
  String.ofList (path.toList.reverse.dropWhile (· == '/')).reverse

/-- The name of a bucket in a path below the collection. -/
def nameIn? (path : String) : Option Name :=
  match (bucketsPath.toList ++ ['/']).isPrefixOf? path.toList with
  | some rest => (Name.ofString (String.ofList rest)).toOption
  | none => none

namespace Endpoint

/-- The verb of a route. -/
def method : Endpoint → Method
  | .clusterInfo | .listBuckets | .getBucket _ => .get
  | .createBucket | .updateBucket _ => .post
  | .deleteBucket _ => .delete

/-- The path of a route. -/
def path : Endpoint → String
  | .clusterInfo => clusterPath
  | .listBuckets | .createBucket => bucketsPath
  | .getBucket n | .updateBucket n | .deleteBucket n => bucketsPath ++ "/" ++ n.text

/-- The bucket a route is about, if it is about one. -/
def name? : Endpoint → Option Name
  | .clusterInfo | .listBuckets | .createBucket => none
  | .getBucket n | .updateBucket n | .deleteBucket n => some n

/-- The route of a verb and a path. -/
def parse (m : Method) (path : String) : Except Fault Endpoint :=
  let path := trimSlashes path
  if path = clusterPath then
    match m with
    | .get => .ok .clusterInfo
    | .post | .delete => .error (.noRoute m path)
  else if path = bucketsPath then
    match m with
    | .get => .ok .listBuckets
    | .post => .ok .createBucket
    | .delete => .error (.noRoute m path)
  else
    match nameIn? path, m with
    | some n, .get => .ok (.getBucket n)
    | some n, .post => .ok (.updateBucket n)
    | some n, .delete => .ok (.deleteBucket n)
    | none, m => .error (.noRoute m path)

end Endpoint

end BucketAdmin.Api
