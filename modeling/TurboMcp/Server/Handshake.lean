import TurboMcp.Server.Capability

/-!
# Handshakes

The legacy `initialize` (version negotiation, the session's state, advertised
capabilities) and the draft's `server/discover`, which any client may call
before it has picked a version.
-/

namespace TurboMcp.Server

open TurboMcp.Core TurboMcp.Lib TurboMcp.Protocol

variable {N : Type}

/-- An optional entry of an object. -/
def entryIf (b : Bool) (key : String) (v : Value) : Map := if b then [(key, v)] else []

/-- The registered capabilities, as both handshakes advertise them. -/
def featureCapabilities (router : MethodRouter) : Map :=
  entryIf router.prompts "prompts" (.object [("listChanged", .bool true)]) ++
    entryIf router.resources "resources"
      (.object [("listChanged", .bool true), ("subscribe", .bool true)]) ++
    entryIf router.tools "tools" (.object [("listChanged", .bool true)]) ++
    entryIf router.completions "completions" (.object []) ++
    entryIf router.logging "logging" (.object [])

/-! ## `initialize` -/

/-- Echo the requested version when supported, else prefer `2025-11-25`, else
the first supported one. -/
def negotiateInitializeVersion (requested : String) (supported : List ProtocolVersion) :
    ProtocolVersion :=
  let requested := ProtocolVersion.fromWire requested
  if requested ∈ supported then requested
  else if .v2025_11_25 ∈ supported then .v2025_11_25
  else supported.head?.getD .draft

def initializeResult (d : VersionDispatcher N) (tasksEnabled : Bool)
    (negotiated : ProtocolVersion) : Value :=
  .object ([("capabilities", .object (featureCapabilities d.router ++
      entryIf tasksEnabled "tasks" (.object [("list", .object []), ("cancel", .object []),
        ("requests", .object [("tools", .object [("call", .object [])])])])))] ++
    optionalString "instructions" d.instructions ++
    [("protocolVersion", .string negotiated.asStr),
      ("serverInfo", implementationValue d.serverInfo)])

/-- Keep what `initialize` negotiated under the asserted session id. -/
def storeSession (req : JsonRpcRequest) (negotiated : ProtocolVersion)
    (params : InitializeParams) : Dispatch N Unit :=
  match sessionId req.params with
  | none => pure ()
  | some sid =>
      Dispatch.tell (.sessionInsert sid
        { version := negotiated, clientInfo := params.clientInfo,
          clientCapabilities := params.capabilities, logLevel := none })

/-- `handle_initialize`. -/
def handleInitialize (d : VersionDispatcher N) (tasksEnabled : Bool)
    (req : JsonRpcRequest) : Dispatch N JsonRpcMessage := do
  match req.params with
  | none => pure (errorResponse req.id (.invalidParams "initialize requires params"))
  | some v =>
      match d.wire.decodeInitialize v with
      | none =>
          pure (errorResponse req.id
            (decodeError d.texts "initialize" "InitializeRequestParams" v))
      | some params =>
          let negotiated := negotiateInitializeVersion params.protocolVersion d.supported
          storeSession req negotiated params
          pure (okValue req.id (initializeResult d tasksEnabled negotiated))

/-! ## `server/discover` -/

def discoverResult (d : VersionDispatcher N) : Map :=
  [("cacheScope", d.cache.discover.scope.toValue),
    ("capabilities", .object (featureCapabilities d.router ++
      entryIf (!d.extensions.isEmpty) "extensions"
        (.object (d.extensions.foldl (fun m e => Map.insert m e.id e.settings) []))))] ++
    optionalString "instructions" d.instructions ++
    [("_meta", .object [(Meta.keys.serverInfo, implementationValue d.serverInfo)]),
      ("resultType", .string "complete"),
      ("supportedVersions", .array (d.supported.map fun v => .string v.asStr)),
      ("ttlMs", .int d.cache.discover.ttlMs)]

/-- The answer does not depend on the version the request declares, nor on
whether the server supports the draft. -/
def discoverResponse (d : VersionDispatcher N) (id : RequestId) : JsonRpcMessage :=
  okValue id (.object (discoverResult d))

/-- Stamp the server's identity into a successful object result, unless it is
already there. -/
def stampServerInfo (msg : JsonRpcMessage) (info : Implementation) : JsonRpcMessage :=
  match msg with
  | .response resp =>
      match resp.result with
      | some (.object result) =>
          match Map.get result "_meta" with
          | none => .response { resp with result := some (.object (Map.insert result "_meta"
              (.object [(Meta.keys.serverInfo, implementationValue info)]))) }
          | some (.object m) =>
              if Map.containsKey m Meta.keys.serverInfo then msg
              else .response { resp with result := some (.object (Map.insert result "_meta"
                (.object (Map.insert m Meta.keys.serverInfo (implementationValue info))))) }
          | some _ => msg
      | _ => msg
  | _ => msg

end TurboMcp.Server
