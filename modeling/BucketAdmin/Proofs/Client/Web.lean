import BucketAdmin.Client.Transport
import BucketAdmin.Proofs.Client.Reach

/-!
# The web and the dispatcher

`handle` puts a web request to the dispatcher. It looks for a verb, for the route of the path, and
at the length of the body, in this order, and the first of these that is wrong decides the answer
and leaves the state alone (`Conforms`). Else the dispatcher answers, and its status goes out as a
code. Every status of the dispatcher is found again from its code (`ofCode_code_dispatch`), and a
client prints routes as the server reads them. So a call over the web comes to the same as the call
in the process (`handle_conforms`), but for the limit that the client sets on what it reads.
-/

namespace BucketAdmin

open Api (Endpoint Fault Method Status maxBodySize)

namespace Server

variable {sv : Server} {r : Http.Request} {time : String}

/-! ## A status and its code -/

theorem Rejection.ofCode_code_status (rejection : Rejection) :
    Status.ofCode rejection.status.code = rejection.status := by
  cases rejection with
  | body fault | nameMismatch inBody inPath => rfl
  | registry refusal => cases refusal <;> rfl

theorem Effect.ofCode_code_status {st st' : Registry.Store} {e : Endpoint} {body : Bytes}
    {answer : Api.Response} (h : Effect st e body answer st') :
    Status.ofCode answer.status.code = answer.status := by
  cases h <;> rfl

/-- `Status.other` with the code of another status would not be found again. -/
theorem ofCode_code_dispatch (sv : Server) (e : Endpoint) (body : Bytes) :
    Status.ofCode (sv.dispatch e body).1.status.code = (sv.dispatch e body).1.status := by
  cases h : sv.perform e body with
  | ok done =>
    rw [dispatch_ok h]
    exact (perform_effect h).ofCode_code_status
  | error rejection =>
    rw [dispatch_error h]
    exact rejection.ofCode_code_status

/-! ## What the server finds in a request -/

/-- The request is for the health page. -/
def AsksHealth (r : Http.Request) : Prop := r.method = "GET" ∧ r.path = "/health"

theorem route_eq_parse {m : Method} (h : r.method = m.text) :
    route r = Endpoint.parse m r.path := by
  rw [route, h, Method.parse_text, ok_bind]

theorem handle_of_route_error {f : Fault} (hpage : ¬AsksHealth r) (h : route r = .error f) :
    handle time r sv = (webError (routeFaultCode f) f.message, sv) := by
  have hpage' : ¬(r.method = "GET" ∧ r.path = "/health") := hpage
  simp only [handle, if_neg hpage', h]

theorem handle_of_route {e : Endpoint} (hpage : ¬AsksHealth r) (h : route r = .ok e) :
    handle time r sv =
      if maxBodySize < r.body.length then
        (webError 400 "Failed to read request body: length limit exceeded", sv)
      else
        let done := sv.dispatch e r.body
        (webResponse done.1.status.code done.1.body, done.2) := by
  have hpage' : ¬(r.method = "GET" ∧ r.path = "/health") := hpage
  simp only [handle, if_neg hpage', h]

/-- The answer to a web request is that of the dispatcher, unless there is something wrong with the
request; then it is an error, and nothing changes. -/
structure Conforms (time : String) (sv : Server) (r : Http.Request) : Prop where
  verb : (∀ m : Method, r.method ≠ m.text) →
    handle time r sv = (webError 405 (Fault.unsupportedMethod r.method).message, sv)
  path : ∀ (m : Method) (f : Fault), r.method = m.text → Endpoint.parse m r.path = .error f →
    handle time r sv = (webError 404 f.message, sv)
  length : ∀ (m : Method) (e : Endpoint), r.method = m.text → Endpoint.parse m r.path = .ok e →
    maxBodySize < r.body.length →
      handle time r sv = (webError 400 "Failed to read request body: length limit exceeded", sv)
  done : ∀ (m : Method) (e : Endpoint), r.method = m.text → Endpoint.parse m r.path = .ok e →
    r.body.length ≤ maxBodySize →
      handle time r sv =
        (webResponse (sv.dispatch e r.body).1.status.code (sv.dispatch e r.body).1.body,
          (sv.dispatch e r.body).2)

theorem conforms (time : String) (sv : Server) (hpage : ¬AsksHealth r) : Conforms time sv r where
  verb := by
    intro hverb
    have hroute : route r = .error (.unsupportedMethod r.method) := by
      rw [route, Method.parse_of_ne hverb, error_bind]
    exact handle_of_route_error hpage hroute
  path := by
    intro m f hverb hpath
    obtain rfl := Endpoint.parse_eq_error hpath
    exact handle_of_route_error hpage ((route_eq_parse hverb).trans hpath)
  length := by
    intro m e hverb hpath hlength
    rw [handle_of_route hpage ((route_eq_parse hverb).trans hpath), if_pos hlength]
  done := by
    intro m e hverb hpath hlength
    rw [handle_of_route hpage ((route_eq_parse hverb).trans hpath),
      if_neg (Nat.not_lt.mpr hlength)]

end Server

/-! ## Calls over the web -/

namespace Client

open Server (handle webResponse)

variable {sv : Server} {c : Call} {r : Http.Request} {w : Web} {time : String}

/-- The request has the verb, the path and the body of a call. -/
structure Carries (r : Http.Request) (c : Call) : Prop where
  method : r.method = c.endpoint.method.text
  path : r.path = c.endpoint.path
  body : r.body = c.body

theorem Carries.handle_eq (h : Carries r c) (hlength : c.body.length ≤ maxBodySize) :
    handle time r sv =
      (webResponse (sv.dispatch c.endpoint c.body).1.status.code
        (sv.dispatch c.endpoint c.body).1.body, (sv.dispatch c.endpoint c.body).2) := by
  have hpage : ¬Server.AsksHealth r := by
    rintro ⟨-, hpath⟩
    rw [h.path] at hpath
    exact c.endpoint.path_ne (by decide) (by decide) (by decide) hpath
  have hparse : Endpoint.parse c.endpoint.method r.path = .ok c.endpoint := by
    rw [h.path, Endpoint.parse_path]
  rw [← h.body] at hlength ⊢
  exact (Server.conforms time sv hpage).done _ _ h.method hparse hlength

theorem Web.Reaches.exchange {goal : Http.Uri} (h : w.Reaches goal c)
    (hlength : c.body.length ≤ maxBodySize) :
    w.exchange (some (handle time)) c.request sv =
      (if maxBodySize < (sv.dispatch c.endpoint c.body).1.body.length then
        .error (.undecodable c.context s!"response body exceeds {maxBodySize} bytes")
      else .ok (sv.dispatch c.endpoint c.body).1, (sv.dispatch c.endpoint c.body).2) := by
  obtain ⟨uri, r, hbuild, -, -, hpath, -, hmethod, hpath', -, hbody, -⟩ := h.built
  have hcarries : Carries r c := ⟨hmethod, hpath'.trans hpath, hbody⟩
  by_cases hanswer : maxBodySize < (sv.dispatch c.endpoint c.body).1.body.length
  · simp only [Web.exchange, hbuild, hcarries.handle_eq hlength, webResponse, if_pos hanswer]
    rfl
  · simp only [Web.exchange, hbuild, hcarries.handle_eq hlength, webResponse, if_neg hanswer,
      Server.ofCode_code_dispatch]

end Client

end BucketAdmin
