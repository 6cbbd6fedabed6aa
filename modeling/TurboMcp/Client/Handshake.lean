import TurboMcp.Core.Meta
import TurboMcp.Lib.Program

/-!
# Connecting

`ClientBuilder::connect` probes with `server/discover` or shakes hands with
`initialize`, settles on the version that path stands for, and stamps it into
what it sends from then on.
-/

namespace TurboMcp.Client

open TurboMcp.Core TurboMcp.Lib

/-- `ClientError`. -/
inductive ClientError
  | rpc (error : JsonRpcError)
  | closed
  | timeout
  | decode (msg : String)
  | protocol (msg : String)
  deriving DecidableEq

/-! ## Talking to the peer -/

/-- What a client asks of its connection. -/
inductive Exchange
  | request (method : String) (params : Option Value)
  | notify (method : String) (params : Option Value)

def Exchange.Reply : Exchange → Type
  | .request _ _ => Except ClientError Value
  | .notify _ _ => Except ClientError Unit

abbrev Conversation := Program Exchange Exchange.Reply

/-- `complete_pending`: what the waiting caller gets of a response. -/
def completePending (resp : JsonRpcResponse) : Except ClientError Value :=
  match resp.error with
  | some err => .error (.rpc err)
  | none => .ok (resp.result.getD .null)

def request (method : String) (params : Option Value) :
    Conversation (Except ClientError Value) := Program.perform (Exchange.request method params)

def notify (method : String) (params : Option Value) :
    Conversation (Except ClientError Unit) := Program.perform (Exchange.notify method params)

theorem yields_request {α : Type} {A : (e : Exchange) → e.Reply → Prop} {method : String}
    {params : Option Value} {f : Except ClientError Value → Conversation α} {a : α} :
    Program.Yields A (request method params >>= f) a ↔
      ∃ reply : Except ClientError Value, A (.request method params) reply ∧
        Program.Yields A (f reply) a := Program.yields_call

theorem yields_notify {α : Type} {A : (e : Exchange) → e.Reply → Prop} {method : String}
    {params : Option Value} {f : Except ClientError Unit → Conversation α} {a : α} :
    Program.Yields A (notify method params >>= f) a ↔
      ∃ reply : Except ClientError Unit, A (.notify method params) reply ∧
        Program.Yields A (f reply) a := Program.yields_call

/-! ## Handshakes -/

inductive ConnectMode
  | auto
  | modern
  | legacy
  deriving DecidableEq

structure ClientBuilder where
  clientInfo : Implementation
  capabilities : Value
  connectMode : ConnectMode

/-- The facts taken from a handshake result. -/
structure Handshake where
  version : ProtocolVersion
  serverInfo : Option Implementation
  serverCapabilities : Value
  instructions : Option String

/-- `Deserialize for Implementation`; further fields are set aside. -/
def implementationFromValue (v : Value) : Option Implementation := do
  let m ← v.asObject
  let name ← (m.get "name").bind Value.asStr
  let version ← (m.get "version").bind Value.asStr
  let title ← match m.get "title" with
    | none | some .null => some none
    | some t => t.asStr.map some
  pure { name, title, version }

/-- `Handshake::from_result`: what is missing degrades to a default. -/
def Handshake.fromResult (version : ProtocolVersion) (result : Value) : Handshake :=
  { version
    serverInfo :=
      ((result.get "serverInfo").or
        ((result.get "_meta").bind (·.get Meta.keys.serverInfo))).bind implementationFromValue
    serverCapabilities := (result.get "capabilities").getD (.object [])
    instructions := (result.get "instructions").bind Value.asStr }

namespace ClientBuilder

/-- The version envelope of the modern path. -/
def requestMeta (b : ClientBuilder) (version : ProtocolVersion) : Map :=
  [(Meta.keys.protocolVersion, .string version.asStr),
    (Meta.keys.clientInfo, implementationValue b.clientInfo),
    (Meta.keys.clientCapabilities, b.capabilities)]

def discoverParams (b : ClientBuilder) : Value :=
  .object [("_meta", .object (b.requestMeta .draft))]

def initializeParams (b : ClientBuilder) : Value :=
  .object [("protocolVersion", .string ProtocolVersion.v2025_11_25.asStr),
    ("capabilities", b.capabilities), ("clientInfo", implementationValue b.clientInfo)]

/-- `modern_handshake`: one `server/discover`. Its `supportedVersions` are not
read. -/
def modernHandshake (b : ClientBuilder) : Conversation (Except ClientError Handshake) := do
  match ← request "server/discover" (some b.discoverParams) with
  | .error e => pure (.error e)
  | .ok result => pure (.ok (Handshake.fromResult .draft result))

/-- `legacy_handshake`: `initialize`, then `notifications/initialized`. The
version the server negotiated is not read. -/
def legacyHandshake (b : ClientBuilder) : Conversation (Except ClientError Handshake) := do
  match ← request "initialize" (some b.initializeParams) with
  | .error e => pure (.error e)
  | .ok result =>
      match ← notify "notifications/initialized" none with
      | .error e => pure (.error e)
      | .ok () => pure (.ok (Handshake.fromResult .v2025_11_25 result))

/-- The errors that mean the server only speaks legacy. -/
def fallsBack : ClientError → Bool
  | .rpc e => e.code = -32601 || e.code = -32022 || e.code = -32004
  | _ => false

/-- `ClientBuilder::handshake`. -/
def handshake (b : ClientBuilder) : Conversation (Except ClientError Handshake) := do
  match b.connectMode with
  | .modern => b.modernHandshake
  | .legacy => b.legacyHandshake
  | .auto =>
      match ← b.modernHandshake with
      | .ok h => pure (.ok h)
      | .error e => if fallsBack e then b.legacyHandshake else pure (.error e)

end ClientBuilder

/-! ## Requests after the handshake -/

def negotiatedVersionKey := "io.turbomcp.internal/negotiatedVersion"

/-- The version the HTTP transport puts into the `MCP-Protocol-Version` header;
a message that states none repeats the last one. -/
def statedVersion (msg : JsonRpcMessage) : Option String :=
  ((Meta.entry negotiatedVersionKey msg.params).bind Value.asStr).or
    ((Meta.entry Meta.keys.protocolVersion msg.params).bind Value.asStr)

/-- `versioned_request`'s additions to `_meta`: the transport's signal and, on
the draft, the version envelope where it is not there yet. -/
def versionedMeta (b : ClientBuilder) (version : ProtocolVersion) (m : Map) : Map :=
  let m := Map.insert m negotiatedVersionKey (.string version.asStr)
  if version = .draft then
    (b.requestMeta version).foldl
      (fun m e => if Map.containsKey m e.1 then m else Map.insert m e.1 e.2) m
  else m

/-- The `params` of a typed request. -/
def versionedParams (b : ClientBuilder) (version : ProtocolVersion) (params : Map) : Map :=
  match (Map.get params "_meta").getD (.object []) with
  | .object m => Map.insert params "_meta" (.object (versionedMeta b version m))
  | _ => params

/-- An envelope entry under another key leaves `key` alone. -/
theorem get_envelope_of_ne {key key' : String} (hne : key' ≠ key) (m : Map) (v : Value) :
    Map.get (if Map.containsKey m key' then m else Map.insert m key' v) key = Map.get m key := by
  split
  · rfl
  · rw [Map.get_insert, if_neg hne]

theorem get_versionedMeta_signal (b : ClientBuilder) (version : ProtocolVersion) (m : Map) :
    Map.get (versionedMeta b version m) negotiatedVersionKey = some (.string version.asStr) := by
  unfold versionedMeta
  split
  · simp only [ClientBuilder.requestMeta, List.foldl_cons, List.foldl_nil]
    rw [get_envelope_of_ne (by decide), get_envelope_of_ne (by decide),
      get_envelope_of_ne (by decide)]
    exact Map.get_insert_self _ _ _
  · exact Map.get_insert_self _ _ _

theorem get_versionedMeta (b : ClientBuilder) (version : ProtocolVersion) {m : Map}
    (hfree : Map.get m Meta.keys.protocolVersion = none) :
    Map.get (versionedMeta b version m) Meta.keys.protocolVersion =
      if version = .draft then some (.string ProtocolVersion.draft.asStr) else none := by
  have hsignal : Map.get (Map.insert m negotiatedVersionKey (.string version.asStr))
      Meta.keys.protocolVersion = none := by
    rw [Map.get_insert, if_neg (by decide)]
    exact hfree
  unfold versionedMeta
  split
  · rename_i hdraft
    -- the envelope's first entry is the version
    simp only [ClientBuilder.requestMeta, List.foldl_cons, List.foldl_nil]
    rw [get_envelope_of_ne (by decide), get_envelope_of_ne (by decide), Map.containsKey, hsignal,
      hdraft]
    exact Map.get_insert_self _ _ _
  · exact hsignal

end TurboMcp.Client
