import TurboMcp.Client.HeaderParams
import TurboMcp.Client.Handshake
import TurboMcp.Transport.Headers

/-!
# The HTTP client: sending

Every message is a POST of its own.  Before it is written, two signals are
lifted out of its `_meta`, the mirror map and the negotiated version; both are
headers from then on, and so are the method and the name of a draft request.
-/

namespace TurboMcp.Client.Http

open TurboMcp.Core TurboMcp.Lib TurboMcp.Service TurboMcp.Transport

/-- What the POST tasks of one transport share. -/
structure Shared where
  session : Option String
  /-- The version last resolved for an outgoing message. -/
  version : Option String
  deriving DecidableEq

def Shared.initial : Shared := { session := none, version := none }

/-! ## Signals -/

/-- Drop a `_meta` that was emptied. -/
def dropEmptyMeta : Option Value → Option Value
  | some (.object params) =>
      if Map.get params "_meta" = some (.object []) then
        some (.object (Map.retain params (· ≠ "_meta")))
      else some (.object params)
  | params => params

/-- The string entries of a mirror map. -/
def mirrorEntries : Option Value → List (String × String)
  | some (.object m) => m.filterMap fun e => e.2.asStr.map fun s => (e.1, s)
  | _ => []

/-- `extract_header_params`: of requests only. -/
def extractHeaderParams : JsonRpcMessage → JsonRpcMessage × List (String × String)
  | .request req =>
      (.request { req with params := Meta.retainMeta (· ≠ headerParamsKey) req.params },
        mirrorEntries (Meta.entry headerParamsKey req.params))
  | msg => (msg, [])

/-- `extract_protocol_version`: the version a message states, else the one last
resolved. -/
def extractProtocolVersion (msg : JsonRpcMessage) (last : Option String) :
    JsonRpcMessage × Option String :=
  (msg.mapParams fun params => dropEmptyMeta (Meta.retainMeta (· ≠ negotiatedVersionKey) params),
    (statedVersion msg).or last)

/-! ## Headers -/

def isDraft (version : Option String) : Bool :=
  version.map ProtocolVersion.fromWire = some .draft

/-- The draft's standard headers of a request. -/
def standardLines (version : Option String) (msg : JsonRpcMessage) : List (String × String) :=
  match msg with
  | .request r =>
      if isDraft version then
        (headerNames.mcpMethod, r.method) ::
          (((McpHeaders.nameFieldFor r.method).bind (bodyField r)).map fun value =>
            (headerNames.mcpName, McpHeaders.encodeValue value)).toList
      else []
  | _ => []

/-- The lines of one POST, in the order they are added. -/
def headerLines (shared : Shared) (version : Option String) (msg : JsonRpcMessage)
    (mirrors : List (String × String)) : List (String × String) :=
  [("accept", "application/json, text/event-stream"), ("content-type", "application/json")] ++
    (shared.session.map fun sid => (headerNames.sessionId, sid)).toList ++
    (version.map fun v => (headerNames.protocolVersion, v)).toList ++
    standardLines version msg ++
    mirrors.map fun e => ("Mcp-Param-" ++ e.1, e.2)

/-- `RequestBuilder::header`: a name or a value that no header can have spoils
the request. -/
def toLine (line : String × String) : Option (String × HeaderValue) :=
  if McpHeaders.isValidHeaderName line.1 then
    (HeaderValue.fromStr line.2).map fun v => (McpHeaders.asciiLower line.1, v)
  else none

/-- One POST; without headers it fails before it is sent. -/
structure Post where
  headers : Option HeaderMap
  body : JsonRpcMessage

/-- `pump`, up to the sending. -/
def prepare (shared : Shared) (msg : JsonRpcMessage) : Shared × Post :=
  let (msg, mirrors) := extractHeaderParams msg
  let (msg, version) := extractProtocolVersion msg shared.version
  ({ shared with version },
    { headers := (headerLines shared version msg mirrors).mapM toLine, body := msg })

end TurboMcp.Client.Http
