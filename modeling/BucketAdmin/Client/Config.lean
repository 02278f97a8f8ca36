import BucketAdmin.Http.Uri
import BucketAdmin.Text.Blank
import BucketAdmin.Text.Duration
import BucketAdmin.Text.Numeral

/-!
# Configuration

How a client reaches a cluster: the endpoint, its deadlines, and the threads of a transport of its
own.
-/

namespace BucketAdmin.Client

/-- How a runtime schedules tasks. -/
inductive Flavor where
  | currentThread
  | multiThread
  deriving DecidableEq, Repr

/-- What is wrong with an endpoint. -/
inductive EndpointFault where
  | noUri (fault : Http.UriFault)
  | notHttp
  | missingHost
  deriving DecidableEq, Repr

/-- The words for what is wrong with an endpoint. -/
def EndpointFault.message : EndpointFault → String
  | .noUri f => f.message
  | .notHttp => "scheme must be http"
  | .missingHost => "missing host"

/-- What is wrong with a configuration. -/
inductive ConfigFault where
  | invalidEndpoint (endpoint : String) (fault : EndpointFault)
  | invalidValue (key value : String)
  /-- Blocking calls would stall on the runtime of the current thread. -/
  | unsupportedRuntime
  deriving DecidableEq, Repr

/-- The words for what is wrong with a configuration. -/
def ConfigFault.message : ConfigFault → String
  | .invalidEndpoint endpoint f => s!"Invalid endpoint '{endpoint}': {f.message}"
  | .invalidValue key value => s!"Invalid value for {key}: '{value}'"
  | .unsupportedRuntime =>
    "Blocking calls need a multi-threaded runtime, got current_thread"

/-- Blocking calls need a runtime with several threads. -/
def Flavor.check : Flavor → Except ConfigFault Unit
  | .currentThread => .error .unsupportedRuntime
  | .multiThread => .ok ()

/-- How to reach a cluster. -/
structure Config where
  endpoint : String := "http://127.0.0.1:8091"
  /-- The deadline of calls that name none. -/
  managementTimeout : Duration := .ofSeconds 75
  connectTimeout : Duration := .ofSeconds 5
  workerThreads : Nat := 2
  deriving DecidableEq, Repr

namespace Config

/-- The endpoint is an `http` URI with a host, and there is a thread to work on. -/
def validate (c : Config) : Except ConfigFault Unit :=
  match Http.Uri.parse c.endpoint with
  | .error f => .error (.invalidEndpoint c.endpoint (.noUri f))
  | .ok uri =>
    if uri.scheme ≠ some "http" then .error (.invalidEndpoint c.endpoint .notHttp)
    else if uri.authority = none then .error (.invalidEndpoint c.endpoint .missingHost)
    else if c.workerThreads = 0 then .error (.invalidValue "worker_threads" "0")
    else .ok ()

/-- The variables that configure a client. -/
structure Environment where
  endpoint : Option String := none
  managementTimeoutMs : Option String := none
  connectTimeoutMs : Option String := none

/-- The name of the variable with the deadline of calls. -/
def managementTimeoutKey : String := "CLUSTERMGR_MANAGEMENT_TIMEOUT_MS"

/-- The name of the variable with the deadline of connecting. -/
def connectTimeoutKey : String := "CLUSTERMGR_CONNECT_TIMEOUT_MS"

/-- A number of milliseconds with blanks around it, or the default when the variable is not set. -/
def millis (key : String) (raw : Option String) (default : Duration) :
    Except ConfigFault Duration :=
  match raw with
  | none => .ok default
  | some raw =>
    match Numeral.read? UInt64.size (Text.trim raw.toList) with
    | some n => .ok (.ofMillis n)
    | none => .error (.invalidValue key raw)

/-- The defaults, with what the environment sets in their place. -/
def ofEnvironment (env : Environment) : Except ConfigFault Config := do
  let base : Config := {}
  let c : Config := {
    endpoint := env.endpoint.getD base.endpoint
    managementTimeout :=
      ← millis managementTimeoutKey env.managementTimeoutMs base.managementTimeout
    connectTimeout := ← millis connectTimeoutKey env.connectTimeoutMs base.connectTimeout }
  c.validate
  return c

end Config

end BucketAdmin.Client
