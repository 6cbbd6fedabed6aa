import TurboMcp.Auth.ResourceServer
import TurboMcp.Lib.Logged
import TurboMcp.Service.Outbound
import TurboMcp.Transport.Http
import TurboMcp.Transport.PeerIp
import TurboMcp.Transport.RequestPost

/-!
# The HTTP endpoint

The handlers of POST, GET and DELETE, as programs over what they ask of their
surroundings: the authenticator, the rate limiter, the table of writers, the
service, the session terminator.  A request has to pass every guard before it
reaches any of the last three, and the guards come in one order: where it comes
from, what it accepts and whether its body is a message, who sends it, and whether
the sender's budget still covers it.  What a rejected request has done is to have
been authenticated and, if that succeeded, charged.
-/

namespace TurboMcp.Transport.HttpEndpoint

open TurboMcp.Auth TurboMcp.Core TurboMcp.Lib TurboMcp.Server TurboMcp.Service
open TurboMcp.Transport.Http

/-! ## Configuration -/

inductive OriginPolicy
  | allowlist (list : List String)
  | any

inductive HostPolicy
  | any
  | allowlist (list : List String)

/-- The bucket a request is charged against. -/
inductive RateKey
  | subject (sub : String)
  | ip (addr : IpAddr)
  | global
  deriving DecidableEq

structure HttpConfig where
  origins : OriginPolicy
  hosts : HostPolicy
  /-- Whether an authenticator, a rate limiter and a terminator are configured. -/
  authenticator : Bool
  rateLimiter : Bool
  sessionTerminator : Bool
  trustedProxies : List IpAddr
  /-- The type and subtype of a media range. -/
  parseMime : String → Option (String × String)
  decode : RequestPost.Bytes → Except String JsonRpcMessage
  encode : JsonRpcMessage → Except ProtocolError RequestPost.Bytes

inductive HttpMethod
  | post
  | get
  | delete
  deriving DecidableEq

structure HttpRequest where
  method : HttpMethod
  connectInfo : Option IpAddr
  headers : HeaderMap
  body : RequestPost.Bytes

/-! ## Answers -/

inductive Refusal
  /-- With a JSON-RPC error body. -/
  | rejected (r : Rejection)
  | text (status : Nat) (text : String)
  /-- With `Allow: POST`. -/
  | notAllowed (text : String)
  | challenged (status : Nat) (wwwAuthenticate : HeaderValue)
  /-- With the seconds of `Retry-After`. -/
  | tooMany (retryAfter : Nat)

inductive Answer
  | refused (refusal : Refusal)
  /-- What the service made of it, with the session an `initialize` has opened. -/
  | served (response : RequestPost.Response) (session : Option HeaderValue)
  /-- The event stream of a registered writer. -/
  | stream (id : String)
  | terminated (existed : Bool)

def Refusal.status : Refusal → Nat
  | rejected r => r.status
  | text status _ => status
  | notAllowed _ => 405
  | challenged status _ => status
  | tooMany _ => 429

def notAcceptableRejection (detail : String) : Refusal :=
  .rejected { status := 406, code := -32000, message := "not acceptable: " ++ detail }

def parseErrorResponse (detail : String) : Refusal :=
  .rejected { status := 400, code := -32700, message := "parse error: " ++ detail }

def versionHeaderRejection (requested : String) : Refusal :=
  .rejected
    { status := 400
      code := -32022
      message := "unsupported MCP-Protocol-Version header: " ++ requested }

def sessionRequiredRejection : Refusal :=
  .rejected
    { status := 400
      code := -32002
      message := "the 2025-11-25 path requires an Mcp-Session-Id header (initialize first)" }

/-- The status as far as it is one, and the header's value as far as it is one. -/
def challengeResponse (status : Nat) (wwwAuthenticate : String) : Refusal :=
  .challenged (if 100 ≤ status ∧ status < 1000 then status else 401)
    ((HeaderValue.fromStr wwwAuthenticate).getD ⟨"Bearer".toUTF8.data.toList⟩)

/-- The wait in whole seconds, rounded up and at least one. -/
def tooManyRequests (nanos : Nat) : Refusal :=
  .tooMany (max 1 (nanos / 1000000000 + if 0 < nanos % 1000000000 then 1 else 0))

/-! ## Headers -/

def headerText (headers : HeaderMap) (name : String) : Option String :=
  (headers.get name).bind HeaderValue.toStr

/-- Without an `Origin` the client is no browser. -/
def checkOrigin (policy : OriginPolicy) (headers : HeaderMap) : Option Refusal :=
  match headers.get "origin" with
  | none => none
  | some origin =>
      match policy with
      | .any => none
      | .allowlist list =>
          if list.contains (origin.toStr.getD "") then none
          else some (.text 403 "origin not allowed")

def checkHost (policy : HostPolicy) (headers : HeaderMap) : Option Refusal :=
  match policy with
  | .any => none
  | .allowlist list =>
      if list.contains ((headerText headers "host").getD "") then none
      else some (.text 403 "host not allowed")

/-- Whether a media range of `Accept` covers the type. -/
def accepts (c : HttpConfig) (headers : HeaderMap) (required : String × String) : Bool :=
  match headerText headers "accept" with
  | none => false
  | some accept =>
      ((accept.toList.splitOn ',').filterMap fun part =>
          c.parseMime (String.ofList (trim isWhitespace part))).any fun range =>
        (range.1 = "*" || range.1 = required.1) && (range.2 = "*" || range.2 = required.2)

def applicationJson : String × String := ("application", "json")

def textEventStream : String × String := ("text", "event-stream")

def sessionHeader (headers : HeaderMap) : Option String := headerText headers headerNames.sessionId

def versionHeader (headers : HeaderMap) : Option String :=
  headerText headers headerNames.protocolVersion

/-- The version header names no version there is. -/
def unrecognized (headers : HeaderMap) : Option Refusal :=
  match versionHeader headers with
  | none => none
  | some v =>
      match ProtocolVersion.fromWire v with
      | .unknown _ => some (versionHeaderRejection v)
      | _ => none

def clientIp (c : HttpConfig) (req : HttpRequest) : Option IpAddr :=
  (PeerIp.fromRequestParts req.connectInfo req.headers).clientIp c.trustedProxies

/-- The principal's `sub`, if it is a string. -/
def subjectOf (principal : Option Value) : Option String :=
  (principal.bind (·.get "sub")).bind Value.asStr

/-- The authenticated subject, else the address, else the one shared bucket. -/
def rateKey (subject : Option String) (peerIp : Option IpAddr) : RateKey :=
  match subject with
  | some sub => .subject sub
  | none =>
      match peerIp with
      | some ip => .ip ip
      | none => .global

/-! ## Effects -/

inductive EndpointEffect
  | authenticate (authorization : Option String)
  /-- `fetch_add` on the limiter's counter. -/
  | countCheck
  | retainRecent
  | checkKey (key : RateKey)
  /-- A fresh uuid. -/
  | mint
  | register (id : String)
  | unregister (id : String)
  | pollReady
  | call (msg : JsonRpcMessage)
  /-- The `select!` of `request_post` and the stream it may become. -/
  | race (id : String) (msg : JsonRpcMessage) (methodNotFound404 : Bool)
  | terminate (sid : String)
  | respond (answer : Answer)

abbrev EndpointEffect.Reply : EndpointEffect → Type
  | .authenticate _ => AuthDecision
  | .countCheck => Nat
  | .retainRecent => Unit
  -- over budget: the nanoseconds to wait
  | .checkKey _ => Option Nat
  | .mint => String
  | .register _ => Unit
  | .unregister _ => Unit
  | .pollReady => Option ProtocolError
  | .call _ => RequestPost.CallResult
  | .race _ _ _ => RequestPost.Response
  | .terminate _ => Bool
  | .respond _ => Unit

abbrev Handling := Program EndpointEffect EndpointEffect.Reply

def ask (e : EndpointEffect) : Handling e.Reply := Program.perform e

/-! ## The guards -/

/-- `Err` is the challenge, `Ok` the principal, if there is an authenticator. -/
def enforceAuth (c : HttpConfig) (headers : HeaderMap) :
    Handling (Except Refusal (Option Value)) :=
  if c.authenticator then do
    match ← ask (.authenticate (headerText headers "authorization")) with
    | .allow principal => pure (.ok (some principal))
    | .challenge status wwwAuthenticate => pure (.error (challengeResponse status wwwAuthenticate))
  else pure (.ok none)

def shrinkEvery : Nat := 1024

/-- `GovernorRateLimiter::check`. -/
def governorCheck (key : RateKey) : Handling (Option Nat) := do
  let checks ← ask .countCheck
  if checks % shrinkEvery = 0 then
    ask .retainRecent >>= fun _ => ask (.checkKey key)
  else ask (.checkKey key)

def enforceRateLimit (c : HttpConfig) (subject : Option String) (peerIp : Option IpAddr) :
    Handling (Option Refusal) :=
  if c.rateLimiter then do
    match ← governorCheck (rateKey subject peerIp) with
    | none => pure none
    | some retryAfter => pure (some (tooManyRequests retryAfter))
  else pure none

/-- Who sends it, and whether that is still in budget: the same for all three
handlers. -/
def clear (c : HttpConfig) (req : HttpRequest) : Handling (Except Refusal (Option Value)) := do
  match ← enforceAuth c req.headers with
  | .error refusal => pure (.error refusal)
  | .ok principal =>
      match ← enforceRateLimit c (subjectOf principal) (clientIp c req) with
      | some refusal => pure (.error refusal)
      | none => pure (.ok principal)

/-! ## The handlers -/

def encodeJsonResponse (c : HttpConfig) (msg : JsonRpcMessage) : RequestPost.Response :=
  match c.encode msg with
  | .ok bytes => .plain 200 (.json bytes)
  | .error e => RequestPost.protocolErrorResponse e

def assertConnectionId (id : String) (msg : JsonRpcMessage) : JsonRpcMessage :=
  Meta.setRequestMeta msg Meta.internal.connectionId (.string id)

def listenSse (c : HttpConfig) (msg : JsonRpcMessage) : Handling Answer := do
  let uuid ← ask .mint
  let id := "http-sse-" ++ uuid
  ask (.register id)
  match ← ask .pollReady with
  | some e =>
      ask (.unregister id) >>= fun _ =>
        pure (.served (RequestPost.protocolErrorResponse e) none)
  | none =>
      match ← ask (.call (assertConnectionId id msg)) with
      | .ok none => pure (.stream id)
      | .ok (some reply) =>
          ask (.unregister id) >>= fun _ =>
            pure (.served (encodeJsonResponse c reply) none)
      | .error e =>
          ask (.unregister id) >>= fun _ =>
            pure (.served (RequestPost.protocolErrorResponse e) none)

def requestPost (msg : JsonRpcMessage) (methodNotFound404 : Bool) : Handling Answer := do
  let uuid ← ask .mint
  let id := "http-post-" ++ uuid
  ask (.register id)
  match ← ask .pollReady with
  | some e =>
      ask (.unregister id) >>= fun _ =>
        pure (.served (RequestPost.protocolErrorResponse e) none)
  | none => do
      let response ← ask (.race id (assertConnectionId id msg) methodNotFound404)
      pure (.served response none)

/-- Only a successful `initialize` hands its session back. -/
def mintedHeader (minted : Option String) : JsonRpcMessage → Option HeaderValue
  | .response r => if r.error.isNone then minted.bind HeaderValue.fromStr else none
  | _ => none

/-- Notifications, responses and `initialize`. -/
def plainPost (c : HttpConfig) (msg : JsonRpcMessage) (minted : Option String) :
    Handling Answer := do
  match ← ask .pollReady with
  | some e => pure (.served (RequestPost.protocolErrorResponse e) none)
  | none =>
      match ← ask (.call msg) with
      | .ok (some reply) => pure (.served (encodeJsonResponse c reply) (mintedHeader minted reply))
      | .ok none => pure (.served (.plain 202 .empty) none)
      | .error e => pure (.served (RequestPost.protocolErrorResponse e) none)

def isRequest : JsonRpcMessage → Bool
  | .request _ => true
  | _ => false

/-- What is left to do once the message is marked. -/
def dispatch (c : HttpConfig) (msg : JsonRpcMessage) (minted : Option String)
    (methodNotFound404 : Bool) : Handling Answer :=
  if msg.method = some methods.subscriptionsListen then listenSse c msg
  else if !isInitialize msg && isRequest msg then requestPost msg methodNotFound404
  else plainPost c msg minted

/-- The dual-stack routing, and what follows it. -/
def route (c : HttpConfig) (headers : HeaderMap) (msg : JsonRpcMessage) : Handling Answer :=
  let methodNotFound404 := declaredDraft msg && isRequest msg
  if isInitialize msg then do
    let sid ← ask .mint
    dispatch c (Meta.setRequestMeta msg Meta.internal.sessionId (.string sid)) (some sid)
      methodNotFound404
  else
    match sessionHeader headers with
    | some sid =>
        dispatch c (Meta.setRequestMeta (stampVersion msg) Meta.internal.sessionId (.string sid))
          none methodNotFound404
    | none =>
        if versionHeader headers = some ProtocolVersion.v2025_11_25.asStr then
          pure (.refused sessionRequiredRejection)
        else dispatch c msg none methodNotFound404

/-- The body, once its sender is cleared. -/
def mcpBody (c : HttpConfig) (req : HttpRequest) (principal : Option Value)
    (msg : JsonRpcMessage) : Handling Answer :=
  let msg := assertPrincipal principal msg
  match unrecognized req.headers with
  | some refusal => pure (.refused refusal)
  | none =>
      match validateRequestHeaders msg req.headers with
      | some rejection => pure (.refused (.rejected rejection))
      | none => route c req.headers msg

def mcpPost (c : HttpConfig) (req : HttpRequest) : Handling Answer :=
  match (checkOrigin c.origins req.headers).or (checkHost c.hosts req.headers) with
  | some refusal => pure (.refused refusal)
  | none =>
      if !(accepts c req.headers applicationJson && accepts c req.headers textEventStream) then
        pure (.refused (notAcceptableRejection
          "POST requires an Accept header listing both application/json and text/event-stream"))
      else
        match c.decode req.body with
        | .error e => pure (.refused (parseErrorResponse e))
        | .ok msg => do
            match ← clear c req with
            | .error refusal => pure (.refused refusal)
            | .ok principal => mcpBody c req principal (Meta.sanitizeInbound msg)

/-- The stream of a session. -/
def openStream (headers : HeaderMap) : Handling Answer :=
  match sessionHeader headers with
  | none =>
      pure (.refused (.notAllowed
        "no GET stream without Mcp-Session-Id: the draft subscribes via subscriptions/listen"))
  | some sid => do
      ask (.register (Outbound.sessionStreamId sid))
      pure (.stream (Outbound.sessionStreamId sid))

def mcpGet (c : HttpConfig) (req : HttpRequest) : Handling Answer :=
  match (checkOrigin c.origins req.headers).or (checkHost c.hosts req.headers) with
  | some refusal => pure (.refused refusal)
  | none =>
      if !accepts c req.headers textEventStream then
        pure (.refused
          (notAcceptableRejection "GET requires an Accept header listing text/event-stream"))
      else do
        match ← clear c req with
        | .error refusal => pure (.refused refusal)
        | .ok _ => openStream req.headers

/-- The end of a session. -/
def endSession (c : HttpConfig) (headers : HeaderMap) : Handling Answer :=
  if !c.sessionTerminator then
    pure (.refused (.notAllowed
      "client-initiated session termination is not supported; sessions expire by eviction"))
  else
    match sessionHeader headers with
    | none => pure (.refused (.text 400 "DELETE requires an Mcp-Session-Id header"))
    | some sid => do
        let existed ← ask (.terminate sid)
        pure (.terminated existed)

def mcpDelete (c : HttpConfig) (req : HttpRequest) : Handling Answer :=
  match (checkOrigin c.origins req.headers).or (checkHost c.hosts req.headers) with
  | some refusal => pure (.refused refusal)
  | none => do
      match ← clear c req with
      | .error refusal => pure (.refused refusal)
      | .ok _ => endSession c req.headers

def handler (c : HttpConfig) (req : HttpRequest) : Handling Answer :=
  match req.method with
  | .post => mcpPost c req
  | .get => mcpGet c req
  | .delete => mcpDelete c req

/-- A request from its arrival to its answer. -/
def exchange (c : HttpConfig) (req : HttpRequest) : Handling Unit := do
  let answer ← handler c req
  ask (.respond answer)

end TurboMcp.Transport.HttpEndpoint
