import TurboMcp.Core.Json
import TurboMcp.Core.ProtocolVersion

/-!
# The request context

What a handler is told about who called, and with which version.
-/

namespace TurboMcp.Core

/-- Who made the request. Transports assert bearer principals only. -/
inductive Identity
  | anonymous
  | bearer (sub : String) (claims : Map)
  deriving DecidableEq

/-- `Identity::subject`. -/
def Identity.subject : Identity → Option String
  | anonymous => none
  | bearer sub _ => some sub

structure Implementation where
  name : String
  title : Option String
  version : String
  deriving DecidableEq

def optionalString (key : String) (s : Option String) : Map :=
  (s.map fun s => (key, Value.string s)).toList

/-- An `Implementation` on either wire. -/
def implementationValue (i : Implementation) : Value :=
  .object ([("name", .string i.name)] ++ optionalString "title" i.title ++
    [("version", .string i.version)])

/-- Logging severity, in ascending order. -/
inductive LogLevel
  | debug | info | notice | warning | error | critical | alert | emergency
  deriving DecidableEq, Repr

/-- The variant name of a derived unit enum: a string, or an object naming it
with a `null`. -/
def unitVariant : Value → Option String
  | .string s => some s
  | .object [(s, .null)] => some s
  | _ => none

def LogLevel.fromStr (s : String) : Option LogLevel :=
  if s = "debug" then some debug
  else if s = "info" then some info
  else if s = "notice" then some notice
  else if s = "warning" then some warning
  else if s = "error" then some error
  else if s = "critical" then some critical
  else if s = "alert" then some alert
  else if s = "emergency" then some emergency
  else none

def LogLevel.fromValue (v : Value) : Option LogLevel := (unitVariant v).bind fromStr

structure TraceContext where
  traceparent : String
  tracestate : Option String
  baggage : Option String
  deriving DecidableEq

/-- Read-only metadata about one request. The per-request cancellation token
and the empty type map a fresh context carries are left to the dispatcher. -/
structure RequestContext where
  protocolVersion : ProtocolVersion
  clientInfo : Option Implementation
  clientCapabilities : Option Value
  logLevel : Option LogLevel
  traceContext : Option TraceContext
  identity : Identity
  propagatedMeta : Map
  deriving DecidableEq

/-- `RequestContext::new`. -/
def RequestContext.new (version : ProtocolVersion) : RequestContext :=
  { protocolVersion := version, clientInfo := none, clientCapabilities := none,
    logLevel := none, traceContext := none, identity := .anonymous,
    propagatedMeta := Map.empty }

/-! ## Elicitation -/

/-- A form-mode elicitation. -/
structure ElicitParams where
  message : String
  requestedSchema : Value
  deriving DecidableEq

/-- A URL-mode elicitation: the user is directed to `url`. -/
structure ElicitUrlParams where
  message : String
  elicitationId : Option String
  url : String
  deriving DecidableEq

inductive ElicitAction
  | accept
  | decline
  | cancel
  deriving DecidableEq

def ElicitAction.asStr : ElicitAction → String
  | accept => "accept"
  | decline => "decline"
  | cancel => "cancel"

structure ElicitOutcome where
  action : ElicitAction
  content : Map
  deriving DecidableEq

end TurboMcp.Core
