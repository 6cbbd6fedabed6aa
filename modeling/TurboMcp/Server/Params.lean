import TurboMcp.Core.Error
import TurboMcp.Core.Meta
import TurboMcp.Core.Serde

/-!
# Request parameters and contexts

What the dispatcher reads off a request frame: the transport-asserted ids, the
version route, the request context of either protocol, and the typed parameters
of each method.  The texts of decoding errors are `serde`'s; a `Texts` stands
for what the model takes from outside.
-/

namespace TurboMcp.Server

open TurboMcp.Core

/-- Renderings the source takes from its libraries. -/
structure Texts where
  /-- The message of a failed decode of `value` into the named type. -/
  serdeError : (type : String) → (value : Value) → String
  /-- `Display` of a JSON value. -/
  json : Value → String
  /-- `Debug` of a string. -/
  debug : String → String

/-! ## Methods -/

namespace methods

def discover := "server/discover"
def initializeRequest := "initialize"
def ping := "ping"
def toolsList := "tools/list"
def toolsCall := "tools/call"
def resourcesList := "resources/list"
def resourcesTemplatesList := "resources/templates/list"
def resourcesRead := "resources/read"
def promptsList := "prompts/list"
def promptsGet := "prompts/get"
def completionComplete := "completion/complete"
def tasksList := "tasks/list"
def tasksGet := "tasks/get"
def tasksCancel := "tasks/cancel"
def tasksResult := "tasks/result"
def subscriptionsListen := "subscriptions/listen"
def resourcesSubscribe := "resources/subscribe"
def resourcesUnsubscribe := "resources/unsubscribe"
def loggingSetLevel := "logging/setLevel"
def cancelled := "notifications/cancelled"
def subscriptionsAcknowledged := "notifications/subscriptions/acknowledged"

end methods

/-- The capability methods, which both protocols serve. -/
inductive Capability
  | listTools
  | callTool
  | listResources
  | listResourceTemplates
  | readResource
  | listPrompts
  | getPrompt
  | complete
  deriving DecidableEq, Repr

namespace Capability

def method : Capability → String
  | listTools => methods.toolsList
  | callTool => methods.toolsCall
  | listResources => methods.resourcesList
  | listResourceTemplates => methods.resourcesTemplatesList
  | readResource => methods.resourcesRead
  | listPrompts => methods.promptsList
  | getPrompt => methods.promptsGet
  | complete => methods.completionComplete

def all : List Capability :=
  [listTools, callTool, listResources, listResourceTemplates, readResource, listPrompts,
    getPrompt, complete]

def ofMethod (method : String) : Option Capability := all.find? (·.method = method)

end Capability

/-! ## Transport-asserted identifiers -/

/-- Read an internal key of `params._meta` as a string. -/
def assertedId (key : String) (params : Option Value) : Option String :=
  ((Meta.metaObject params).bind (Map.get · key)).bind Value.asStr

def sessionId : Option Value → Option String := assertedId Meta.internal.sessionId

def connectionId : Option Value → Option String := assertedId Meta.internal.connectionId

/-! ## Version routing -/

inductive VersionRoute
  | modern
  | legacy
  | unsupported (requested : Option String)
  deriving DecidableEq

def classifyVersion (params : Option Value) (supported : List ProtocolVersion) :
    VersionRoute :=
  match Meta.requestProtocolVersion params with
  | none => .unsupported none
  | some v =>
      if v ∉ supported then .unsupported (some v.asStr)
      else if v = .v2025_11_25 then .legacy
      else .modern

/-! ## Decoding -/

/-- A `BTreeMap<String, String>`. -/
def stringMap (v : Value) : Option (List (String × String)) :=
  v.asObject.bind (·.mapM fun e => e.2.asStr.map fun s => (e.1, s))

/-- The typed parameters of a capability call. -/
inductive Params
  | list (cursor : Option String)
  | callTool (name : String) (arguments : Map)
  | readResource (uri : String)
  | getPrompt (name : String) (arguments : List (String × String))
  | complete (reference : String × String) (argument : String × String)
      (contextArguments : List (String × String))
  deriving DecidableEq

section

variable (texts : Texts)

/-- The failure `invalid <what> params: <serde's message>`. -/
def decodeError (what type : String) (v : Value) : McpError :=
  .invalidParams ("invalid " ++ what ++ " params: " ++ texts.serdeError type v)

def parseCallToolParams (params : Option Value) : Except McpError Params :=
  match params with
  | none => .error (.invalidParams "tools/call requires params")
  | some v =>
      let decoded := do
        let m ← structFields ["name", "arguments"] v
        let name ← stringField m "name"
        let arguments ← match m.get "arguments" with
          | none => some Map.empty
          | some a => a.asObject
        pure (Params.callTool name arguments)
      match decoded with
      | some p => .ok p
      | none => .error (decodeError texts "tools/call" "RawCallToolParams" v)

/-- Lenient pagination: a missing or malformed `cursor` asks for the first page. -/
def parseListParams (params : Option Value) : Params :=
  .list ((params.bind (·.get "cursor")).bind Value.asStr)

def parseUriParam (params : Option Value) (method : String) : Except McpError String :=
  match params with
  | none => .error (.invalidParams (method ++ " requires params"))
  | some v =>
      match (structFields ["uri"] v).bind (stringField · "uri") with
      | some uri => .ok uri
      | none => .error (decodeError texts method "RawReadResourceParams" v)

def parseReadResourceParams (params : Option Value) : Except McpError Params :=
  (parseUriParam texts params methods.resourcesRead).map .readResource

def parseGetPromptParams (params : Option Value) : Except McpError Params :=
  match params with
  | none => .error (.invalidParams "prompts/get requires params")
  | some v =>
      let decoded := do
        let m ← structFields ["name", "arguments"] v
        let name ← stringField m "name"
        let arguments ← match m.get "arguments" with
          | none => some []
          | some a => stringMap a
        pure (Params.getPrompt name arguments)
      match decoded with
      | some p => .ok p
      | none => .error (decodeError texts "prompts/get" "RawGetPromptParams" v)

def parseCompleteParams (params : Option Value) : Except McpError Params :=
  match params with
  | none => .error (.invalidParams "completion/complete requires params")
  | some v =>
      let decoded := do
        let m ← structFields ["ref", "argument", "context"] v
        let ref ← (m.get "ref").bind (structFields ["type", "name", "uri"])
        let type ← stringField ref "type"
        let name ← optionField ref "name" Value.asStr
        let uri ← optionField ref "uri" Value.asStr
        let argument ← (m.get "argument").bind (structFields ["name", "value"])
        let argumentName ← stringField argument "name"
        let argumentValue ← stringField argument "value"
        let context ← optionField m "context" fun c => do
          let c ← structFields ["arguments"] c
          match c.get "arguments" with
          | none => some []
          | some a => stringMap a
        pure (type, name, uri, (argumentName, argumentValue), context.getD [])
      match decoded with
      | none => .error (decodeError texts "completion/complete" "RawCompleteParams" v)
      | some (type, name, uri, argument, context) =>
          if type = "ref/prompt" then
            match name with
            | some name => .ok (.complete ("ref/prompt", name) argument context)
            | none => .error (.invalidParams "ref/prompt completion requires `name`")
          else if type = "ref/resource" then
            match uri with
            | some uri => .ok (.complete ("ref/resource", uri) argument context)
            | none => .error (.invalidParams "ref/resource completion requires `uri`")
          else .error (.invalidParams ("unknown completion ref type: " ++ type))

def parseSetLevelParams (params : Option Value) : Except McpError LogLevel :=
  match params.bind (·.get "level") with
  | none => .error (.invalidParams "logging/setLevel requires a level")
  | some level =>
      match LogLevel.fromValue level with
      | some l => .ok l
      | none => .error (.invalidParams ("invalid log level: " ++ texts.json level))

/-- The draft's per-request log-level opt-in. -/
def extractLogLevel (params : Option Value) : Except McpError (Option LogLevel) :=
  match (params.bind (·.get "_meta")).bind (·.get Meta.keys.logLevel) with
  | none => .ok none
  | some level =>
      match LogLevel.fromValue level with
      | some l => .ok (some l)
      | none => .error (.invalidParams ("invalid logLevel: " ++ texts.json level))

end

/-! ## Contexts -/

/-- `RawClientInfo`. -/
def clientInfoFromValue (v : Value) : Option Implementation := do
  let m ← structFields ["name", "version", "title"] v
  let name ← stringField m "name"
  let version ← stringField m "version"
  let title ← optionField m "title" Value.asStr
  pure { name, title, version }

/-- The draft's context, built from the frame alone. -/
def buildContext (req : JsonRpcRequest) : RequestContext :=
  let ctx := RequestContext.new ((Meta.requestProtocolVersion req.params).getD .draft)
  match Meta.metaObject req.params with
  | none => ctx
  | some m =>
      let (consumed, propagated) := Meta.partition m
      { ctx with
        identity := Meta.extractIdentity m
        traceContext := Meta.extractTraceContext m
        clientInfo := (Map.get consumed Meta.keys.clientInfo).bind clientInfoFromValue
        clientCapabilities := Map.get consumed Meta.keys.clientCapabilities
        propagatedMeta := propagated }

/-- The state negotiated at `initialize`. -/
structure SessionState where
  version : ProtocolVersion
  clientInfo : Implementation
  clientCapabilities : Value
  logLevel : Option LogLevel
  deriving DecidableEq

/-- The legacy context: the session's negotiated facts and this frame's
`_meta`. -/
def sessionContext (state : SessionState) (params : Option Value) : RequestContext :=
  let ctx :=
    { RequestContext.new state.version with
      clientInfo := some state.clientInfo
      clientCapabilities := some state.clientCapabilities
      logLevel := state.logLevel }
  match Meta.metaObject params with
  | none => ctx
  | some m =>
      { ctx with
        identity := Meta.extractIdentity m
        traceContext := Meta.extractTraceContext m
        propagatedMeta := (Meta.partition m).2 }

/-- The identity the frame asserts. -/
def assertedIdentity (params : Option Value) : Identity :=
  match Meta.metaObject params with
  | none => .anonymous
  | some m => Meta.extractIdentity m

@[simp] theorem buildContext_identity (req : JsonRpcRequest) :
    (buildContext req).identity = assertedIdentity req.params := by
  unfold buildContext assertedIdentity
  cases Meta.metaObject req.params <;> rfl

@[simp] theorem sessionContext_identity (state : SessionState) (params : Option Value) :
    (sessionContext state params).identity = assertedIdentity params := by
  unfold sessionContext assertedIdentity
  cases Meta.metaObject params <;> rfl

end TurboMcp.Server
