import BucketAdmin.Bucket.Document

/-!
# Faults of the management protocol

What can be wrong with a request or a body before the registry is asked.
-/

namespace BucketAdmin.Api

/-- The verbs of the management API. -/
inductive Method where
  | get
  | post
  | delete
  deriving DecidableEq, Repr

/-- The largest body, in bytes. -/
def maxBodySize : Nat := 4 * 1024 * 1024

/-- What is wrong with a body that is not too large. -/
inductive BodyFault where
  | json (fault : Json.Fault)
  | document (fault : Bucket.DocumentFault)
  deriving DecidableEq

/-- What is wrong with a request or a body. -/
inductive Fault where
  | noRoute (method : Method) (path : String)
  | unsupportedMethod (method : String)
  | malformedBody (fault : BodyFault)
  | bodyTooLarge (length : Nat)
  /-- The request names no bucket where its operation needs one. -/
  | missingName
  deriving DecidableEq

/-- The name of a verb. -/
def Method.text : Method → String
  | .get => "GET"
  | .post => "POST"
  | .delete => "DELETE"

/-- The verb with the given name, in upper case. -/
def Method.parse (s : String) : Except Fault Method :=
  if s = "GET" then .ok .get
  else if s = "POST" then .ok .post
  else if s = "DELETE" then .ok .delete
  else .error (.unsupportedMethod s)

/-- The words for what is wrong with a body. -/
def BodyFault.message : BodyFault → String
  | .json f => f.message
  | .document f => f.message

/-- The words for a fault. -/
def Fault.message : Fault → String
  | .noRoute method path => s!"No route for {method.text} {path}"
  | .unsupportedMethod method => s!"Unsupported method: {method}"
  | .malformedBody f => s!"Malformed body: {f.message}"
  | .bodyTooLarge length => s!"Body too large: {length} bytes (max: {maxBodySize})"
  | .missingName => "Missing required field: name"

end BucketAdmin.Api
