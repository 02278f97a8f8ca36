import BucketAdmin.Http.Message
import BucketAdmin.Server.Dispatch

/-!
# The server on the web

`handle` answers one web request: the health page, a request that has no route, a body that is too
large, and else what `dispatch` answers.
-/

namespace BucketAdmin.Server

open Api (Endpoint Method)

/-- The release of the server and the client. -/
def release : String := "0.1.0"

/-- A web response with a JSON body. -/
def webResponse (code : UInt16) (body : Bytes) : Http.Response where
  code := code
  contentType := some Http.jsonType
  server := some s!"clustermgr/{release}"
  body := body

/-- A web response that carries an error message. -/
def webError (code : UInt16) (message : String) : Http.Response :=
  webResponse code (Api.encodeError message)

/-- The body of the health page at a time. -/
def healthPage (time : String) : Bytes :=
  (Json.Value.ofMembers [
    ("service", .ofText "clustermgr"),
    ("status", .ofText "healthy"),
    ("timestamp", .ofText time),
    ("version", .ofText release)]).render

/-- The route of a web request. -/
def route (r : Http.Request) : Except Api.Fault Endpoint := do
  Endpoint.parse (← Method.parse r.method) r.path

/-- The code of a request without a route. -/
def routeFaultCode : Api.Fault → UInt16
  | .unsupportedMethod _ => 405
  | _ => 404

/-- Answer a web request at a time. -/
def handle (time : String) : Http.Peer Server := fun r sv =>
  if r.method = "GET" ∧ r.path = "/health" then (webResponse 200 (healthPage time), sv)
  else
    match route r with
    | .error f => (webError (routeFaultCode f) f.message, sv)
    | .ok e =>
      if Api.maxBodySize < r.body.length then
        (webError 400 "Failed to read request body: length limit exceeded", sv)
      else
        let (response, sv) := sv.dispatch e r.body
        (webResponse response.status.code response.body, sv)

end BucketAdmin.Server
