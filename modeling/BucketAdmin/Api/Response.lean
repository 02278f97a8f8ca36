import BucketAdmin.Api.Body

/-!
# Responses

A response is a status and a body that is not decoded yet.
-/

namespace BucketAdmin.Api

/-- The status of a response. Codes without a meaning of their own are kept as they are. -/
inductive Status where
  | ok
  | accepted
  | badRequest
  | unauthorized
  | notFound
  | conflict
  | other (code : UInt16)
  deriving DecidableEq, Repr

namespace Status

/-- The status of a code. -/
def ofCode (code : UInt16) : Status :=
  if code = 200 then .ok
  else if code = 202 then .accepted
  else if code = 400 then .badRequest
  else if code = 401 then .unauthorized
  else if code = 404 then .notFound
  else if code = 409 then .conflict
  else .other code

/-- The code of a status. -/
def code : Status → UInt16
  | .ok => 200
  | .accepted => 202
  | .badRequest => 400
  | .unauthorized => 401
  | .notFound => 404
  | .conflict => 409
  | .other c => c

/-- The request was done. -/
def isSuccess : Status → Bool
  | .ok | .accepted => true
  | .other c => 200 ≤ c && c < 300
  | .badRequest | .unauthorized | .notFound | .conflict => false

/-- The code of a status is read back as that code. -/
theorem code_ofCode (c : UInt16) : (ofCode c).code = c := by
  unfold ofCode
  repeat' split
  all_goals simp_all [code]

end Status

/-- What a server answers. -/
structure Response where
  status : Status
  body : Bytes
  deriving DecidableEq

namespace Response

/-- A response that carries an error message. -/
def error (status : Status) (message : String) : Response := ⟨status, encodeError message⟩

/-- The reason given by a response that is not a success: its error message, else its status when
the body is empty, else the body as text. -/
def errorMessage (r : Response) : String :=
  match decodeError? r.body with
  | some message => message
  | none => if r.body = [] then s!"status {r.status.code}" else Utf8.lossy r.body

end Response

end BucketAdmin.Api
