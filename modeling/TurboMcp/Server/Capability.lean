import TurboMcp.Protocol.Neutral
import TurboMcp.Server.Effect

/-!
# Capability dispatch

The one path both protocols share: parse the parameters, build the handler's
context, call it, and widen its result to the active wire.  On the draft a
handler that asked the client for input aborts, and the abort is answered with
the requests it recorded.
-/

namespace TurboMcp.Server

open TurboMcp.Core TurboMcp.Lib TurboMcp.Protocol

/-! ## The server -/

/-- The capabilities a server registered. -/
structure MethodRouter where
  tools : Bool
  resources : Bool
  prompts : Bool
  completions : Bool
  logging : Bool

/-- Whether a handler is registered for the capability. -/
def MethodRouter.registers (router : MethodRouter) : Capability → Bool
  | .listTools | .callTool => router.tools
  | .listResources | .listResourceTemplates | .readResource => router.resources
  | .listPrompts | .getPrompt => router.prompts
  | .complete => router.completions

structure CachePolicies where
  discover : CachePolicy
  toolsList : CachePolicy
  resourcesList : CachePolicy
  resourceTemplatesList : CachePolicy
  resourcesRead : CachePolicy
  promptsList : CachePolicy

/-- The default policy of a cacheable capability. -/
def CachePolicies.of (cache : CachePolicies) : Capability → Option CachePolicy
  | .listTools => some cache.toolsList
  | .listResources => some cache.resourcesList
  | .listResourceTemplates => some cache.resourceTemplatesList
  | .readResource => some cache.resourcesRead
  | .listPrompts => some cache.promptsList
  | .callTool | .getPrompt | .complete => none

/-- `DraftWire` (stateless, MRTR) and `LegacyWire` (sessions, inline requests). -/
inductive WireFamily
  | draft
  | legacy
  deriving DecidableEq

def WireFamily.mrtr : WireFamily → Bool
  | draft => true
  | legacy => false

/-- What `initialize` is called with. -/
structure InitializeParams where
  protocolVersion : String
  clientInfo : Implementation
  /-- The client's capabilities, written back as JSON. -/
  capabilities : Value

/-- The generated wire types: conversions from handler results, and decoders. -/
structure Wire (N : Type) where
  result : WireFamily → Capability → N → Value
  /-- The legacy `tools/list` result with `taskSupport` filled in. -/
  listToolsWithTaskSupport : N → Value
  /-- Fill a cache policy into a result whose handler set none. -/
  cacheDefault : CachePolicy → N → N
  decodeInitialize : Value → Option InitializeParams
  decodeListen : Value → Option SubscriptionFilter

structure Extension where
  id : String
  settings : Value
  methods : List String
  augmentsCalls : Bool

/-- A server behind its dispatcher; `tasks` is the core task store's poll
interval when Tasks are enabled. -/
structure VersionDispatcher (N : Type) where
  texts : Texts
  wire : Wire N
  router : MethodRouter
  supported : List ProtocolVersion
  serverInfo : Implementation
  instructions : Option String
  tasks : Option Int
  extensions : List Extension
  strictElicitationKeys : Bool
  serverInfoMeta : Bool
  cache : CachePolicies

/-! ## Responses -/

def okValue (id : RequestId) (v : Value) : JsonRpcMessage := .response (.success id v)

def errorResponse (id : RequestId) (err : McpError) : JsonRpcMessage :=
  .response (.failure id (mcpToJsonrpcError err))

/-! ## The handler's channels -/

/-- `RawMrtrFields`: the retry's `inputResponses` and `requestState`, both
ignored when either is malformed. -/
def mrtrFields (params : Option Value) : Map × Option String :=
  let decoded := do
    let m ← params.bind (structFields ["inputResponses", "requestState"])
    let responses ← optionField m "inputResponses" Value.asObject
    let state ← optionField m "requestState" Value.asStr
    pure (responses.getD Map.empty, state)
  decoded.getD (Map.empty, none)

variable {N : Type}

/-- `mrtr_handle`: the client channel of a request that may ask for input. -/
def mrtrHandle (strictKeys : Bool) (family : WireFamily) (req : JsonRpcRequest)
    (ctx : RequestContext) : Dispatch N (Except McpError ClientHandle) := do
  match family with
  | .legacy =>
      match sessionId req.params with
      | some session =>
          let connection := (connectionId req.params).getD ""
          pure (.ok ⟨.bidi session connection, ctx.clientCapabilities⟩)
      | none =>
          pure (.ok ⟨.unavailable "no session for inline bidirectional requests", none⟩)
  | .draft =>
      let (responses, requestState) := mrtrFields req.params
      match requestState with
      | none => pure (.ok ⟨.mrtr responses none strictKeys, ctx.clientCapabilities⟩)
      | some token =>
          match ← Dispatch.stateVerify req.method ctx.identity.subject token with
          | .error e => pure (.error e)
          | .ok state =>
              pure (.ok ⟨.mrtr responses (some state) strictKeys, ctx.clientCapabilities⟩)

/-- The session a request's notifications may fall back to: legacy only. -/
def fallbackSession (family : WireFamily) (req : JsonRpcRequest) : String :=
  match family with
  | .draft => ""
  | .legacy => (sessionId req.params).getD ""

/-- Live when the server enabled `logging` and the client opted in. -/
def logSender (family : WireFamily) (req : JsonRpcRequest) (ctx : RequestContext)
    (loggingEnabled : Bool) : Option LogSender :=
  (ctx.logLevel.filter fun _ => loggingEnabled).map fun min =>
    { min, connection := (connectionId req.params).getD "",
      session := fallbackSession family req }

/-- Live when the request carried a string or integer `progressToken`. -/
def progressReporter (family : WireFamily) (req : JsonRpcRequest) :
    Option ProgressReporter :=
  let live token : ProgressReporter :=
    { token, connection := (connectionId req.params).getD "",
      session := fallbackSession family req }
  match (req.params.bind (·.get "_meta")).bind (·.get Meta.keys.progressToken) with
  | some (.string s) => some (live (.string s))
  | some (.int n) => some (live (.int n))
  | _ => none

/-! ## Dispatch -/

/-- Call the handler, or answer that the method does not exist. -/
def callHandler (router : MethodRouter) (call : CapabilityCall) :
    Dispatch N (Option (HandlerOutcome N)) :=
  if router.registers call.capability then some <$> Dispatch.capability call
  else pure none

/-- The handler's result on the wire, its cache policy filled in. -/
def VersionDispatcher.wireResult (d : VersionDispatcher N) (family : WireFamily)
    (capability : Capability) (result : N) : Value :=
  let result := match d.cache.of capability with
    | some policy => d.wire.cacheDefault policy result
    | none => result
  d.wire.result family capability result

/-- `finish`. -/
def finish (d : VersionDispatcher N) (family : WireFamily) (capability : Capability)
    (id : RequestId) (outcome : Option (HandlerOutcome N)) : JsonRpcMessage :=
  match outcome with
  | none => errorResponse id (.methodNotFound capability.method)
  | some outcome =>
      match outcome.result with
      | .ok result => okValue id (d.wireResult family capability result)
      | .error e => errorResponse id e

/-- `finish_mrtr`: `finish`, but an abort for input on the draft is answered
with the recorded requests and the signed state. -/
def finishMrtr (d : VersionDispatcher N) (family : WireFamily) (capability : Capability)
    (id : RequestId) (subject : Option String) (outcome : Option (HandlerOutcome N)) :
    Dispatch N JsonRpcMessage := do
  match outcome with
  | none => pure (errorResponse id (.methodNotFound capability.method))
  | some outcome =>
      match outcome.result with
      | .ok result => pure (okValue id (d.wireResult family capability result))
      | .error e =>
          if e = .inputRequired ∧ family.mrtr = true then
            if outcome.collected.isEmpty ∧ outcome.stateOut.isNone then
              pure (errorResponse id (.internal "MRTR abort recorded no input requests"))
            else
              let result : Map := [("resultType", .string "input_required")] ++
                (if outcome.collected.isEmpty then []
                  else [("inputRequests", .object outcome.collected)])
              match outcome.stateOut with
              | none => pure (okValue id (.object result))
              | some data =>
                  match ← Dispatch.stateSign capability.method subject data with
                  | .ok token =>
                      pure (okValue id (.object (result ++ [("requestState", .string token)])))
                  | .error e => pure (errorResponse id e)
          else pure (errorResponse id e)

/-- The capabilities whose handlers get a client channel. -/
def Capability.asksClient : Capability → Bool
  | callTool | readResource | getPrompt => true
  | _ => false

/-- The typed parameters of a capability call. -/
def parseParams (texts : Texts) (params : Option Value) :
    Capability → Except McpError Params
  | .callTool => parseCallToolParams texts params
  | .readResource => parseReadResourceParams texts params
  | .getPrompt => parseGetPromptParams texts params
  | .complete => parseCompleteParams texts params
  | .listTools | .listResources | .listResourceTemplates | .listPrompts =>
      .ok (parseListParams params)

/-- `dispatch_capability`. -/
def dispatchCapability (d : VersionDispatcher N) (family : WireFamily)
    (capability : Capability) (req : JsonRpcRequest) (ctx : RequestContext)
    (id : RequestId) : Dispatch N JsonRpcMessage := do
  match parseParams d.texts req.params capability with
  | .error e => pure (errorResponse id e)
  | .ok params =>
      if capability.asksClient then
        match ← mrtrHandle d.strictElicitationKeys family req ctx with
        | .error e => pure (errorResponse id e)
        | .ok handle =>
            let outcome ← callHandler d.router
              { capability, ctx, client := some handle,
                progress := progressReporter family req,
                log := logSender family req ctx d.router.logging, params }
            finishMrtr d family capability id ctx.identity.subject outcome
      else
        let outcome ← callHandler d.router
          { capability, ctx, client := none, progress := none, log := none, params }
        pure (finish d family capability id outcome)

end TurboMcp.Server
