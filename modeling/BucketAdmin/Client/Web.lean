import BucketAdmin.Api.Endpoint
import BucketAdmin.Client.Config
import BucketAdmin.Client.Manager
import BucketAdmin.Http.Message
import BucketAdmin.Server.Web

/-!
# The web transport

Requests become web requests to the configured endpoint. The URL is the text of the endpoint,
without slashes at its end, followed by the path of the route.
-/

namespace BucketAdmin.Client

open Api (Request Response Status)

/-- A client of one endpoint. -/
structure Web where
  baseUrl : String
  deriving DecidableEq, Repr

namespace Web

/-- The client of a configuration that is valid. -/
def ofConfig (c : Config) : Except ConfigFault Web := do
  c.validate
  return ⟨Api.trimSlashes c.endpoint⟩

/-- The client of a configuration on a given runtime. -/
def onRuntime (c : Config) (f : Flavor) : Except ConfigFault Web := do
  let w ← ofConfig c
  f.check
  return w

/-- Why no web request can be made. -/
inductive BuildFault where
  | route (fault : Api.Fault)
  | uri (fault : Http.UriFault)
  deriving DecidableEq

/-- The words for a request that cannot be made. -/
def BuildFault.message : BuildFault → String
  | .route f => f.message
  | .uri f => f.message

/-- The URL of a route. -/
def url (w : Web) (e : Api.Endpoint) : String := w.baseUrl ++ e.path

/-- The web request for a request, with the URI it goes to. -/
def build (w : Web) (r : Request) : Except BuildFault (Http.Uri × Http.Request) := do
  let e ← r.endpoint.mapError .route
  let uri ← (Http.Uri.parse (w.url e)).mapError .uri
  return (uri, {
    method := e.method.text
    path := uri.path
    query := uri.query
    contentType := r.body.map fun _ => Http.jsonType
    userAgent := some s!"clustermgr-client/{Server.release}"
    body := r.body.getD [] })

/-- What comes of a request sent to `peer`; with no peer nothing listens. -/
def exchange {σ : Type} (w : Web) (peer : Option (Http.Peer σ)) (r : Request) (st : σ) :
    Outcome Response × σ :=
  let c := Context.ofRequest r
  match w.build r with
  | .error f => (.error (.transport c f.message), st)
  | .ok (_, request) =>
    match peer with
    | none => (.error (.transport c "client error (Connect)"), st)
    | some answer =>
      let (response, st) := answer request st
      if Api.maxBodySize < response.body.length then
        (.error (.undecodable c s!"response body exceeds {Api.maxBodySize} bytes"), st)
      else (.ok ⟨Status.ofCode response.code, response.body⟩, st)

/-- The web transport. -/
def transport {σ : Type} (w : Web) (peer : Option (Http.Peer σ)) : Transport σ := fun r st =>
  let (outcome, st) := w.exchange peer r st
  (.now outcome, st)

end Web

end BucketAdmin.Client
