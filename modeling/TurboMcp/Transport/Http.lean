import TurboMcp.Server.Params

/-!
# HTTP POST

What `mcp_post` makes of one decoded body before the service sees it: forged
internal entries are stripped, then the principal, the session and the
connection of this request are asserted.
-/

namespace TurboMcp.Transport.Http

open TurboMcp.Core TurboMcp.Server

/-- The facts of one POST, its body aside. -/
structure Post where
  /-- The authenticator's principal, if one is configured. -/
  principal : Option Value
  sessionHeader : Option String
  versionHeader : Option String
  /-- The session minted for an `initialize`. -/
  minted : String
  /-- The connection id minted for the response's channel. -/
  stream : String
  /-- The checks that only reject: rate limit, version header, header mirrors. -/
  passes : JsonRpcMessage → Bool

def isInitialize (msg : JsonRpcMessage) : Bool := msg.method = some methods.initializeRequest

/-- Whether `_meta` states a protocol version, of whatever type. -/
def messageHasVersion (msg : JsonRpcMessage) : Bool :=
  (Meta.entry Meta.keys.protocolVersion msg.params).isSome

/-- Whether the response gets a channel of its own: `listen_sse` and
`request_post`. -/
def opensStream (msg : JsonRpcMessage) : Bool :=
  msg.method = some methods.subscriptionsListen ||
    match msg with
    | .request _ => !isInitialize msg
    | _ => false

def assertPrincipal (principal : Option Value) (msg : JsonRpcMessage) : JsonRpcMessage :=
  match principal with
  | none => msg
  | some principal => Meta.setRequestMeta msg Meta.internal.identity principal

def assertConnection (post : Post) (msg : JsonRpcMessage) : JsonRpcMessage :=
  if opensStream msg then
    Meta.setRequestMeta msg Meta.internal.connectionId (.string post.stream)
  else msg

/-- A version-less frame is the session's, and gets its version. -/
def stampVersion (msg : JsonRpcMessage) : JsonRpcMessage :=
  if messageHasVersion msg then msg
  else Meta.setRequestMeta msg Meta.keys.protocolVersion
    (.string ProtocolVersion.v2025_11_25.asStr)

/-- Dual-stack routing: mint a session for `initialize`, mark a frame that names
one as legacy, and refuse a declared-legacy frame without one. -/
def assertSession (post : Post) (msg : JsonRpcMessage) : Option JsonRpcMessage :=
  if isInitialize msg then
    some (Meta.setRequestMeta msg Meta.internal.sessionId (.string post.minted))
  else
    match post.sessionHeader with
    | some sid =>
        some (Meta.setRequestMeta (stampVersion msg) Meta.internal.sessionId (.string sid))
    | none =>
        if post.versionHeader = some ProtocolVersion.v2025_11_25.asStr then none else some msg

/-- The message `mcp_post` hands to the service, if it dispatches at all. -/
def Post.accept (post : Post) (msg : JsonRpcMessage) : Option JsonRpcMessage :=
  let msg := assertPrincipal post.principal (Meta.sanitizeInbound msg)
  if post.passes msg then (assertSession post msg).map (assertConnection post) else none

end TurboMcp.Transport.Http
