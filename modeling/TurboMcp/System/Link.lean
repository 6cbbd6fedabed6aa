import TurboMcp.Client.Handshake
import TurboMcp.Server.TrustBoundary

/-!
# Client to dispatcher

The two ways a client's requests reach a dispatcher that serves both protocols:
a byte pipe under the session adapter, and HTTP POSTs.  Either hands on the
request under its own parameters, with the version it states; a request that
states none becomes the session's.
-/

namespace TurboMcp.System

open TurboMcp.Core TurboMcp.Lib TurboMcp.Service TurboMcp.Transport TurboMcp.Server
  TurboMcp.Client

/-! ## Links -/

/-- What joins one client to the dispatcher, with the ids its server end mints. -/
inductive Link
  | pipe (connection : String) (config : ServeConfig) (candidate : String)
  | http (principal : Option Value) (minted stream : String)

namespace Link

/-- The dispatcher's end for one message of the client.  HTTP's checks compare
headers that the client's transport takes from the message, so they pass. -/
def endpoint (link : Link) (session : Option String) (msg : JsonRpcMessage) : Endpoint :=
  match link with
  | pipe connection config candidate => .adapted connection config candidate session
  | http principal minted stream =>
      .http
        { principal, minted, stream
          sessionHeader := session
          versionHeader := statedVersion msg
          passes := fun _ => true }

def deliver (link : Link) (session : Option String) (msg : JsonRpcMessage) :
    Option JsonRpcMessage :=
  (link.endpoint session msg).accept msg

/-- The session `initialize` is given. -/
def minted : Link → String
  | pipe _ _ candidate => candidate
  | http _ minted _ => minted

end Link

/-! ## What is delivered -/

/-- `msg` is `req` under other parameters, which state `version`. -/
def States (req : JsonRpcRequest) (version : Option Value) (msg : JsonRpcMessage) : Prop :=
  ∃ params, msg = .request { req with params } ∧
    Meta.entry Meta.keys.protocolVersion params = version ∧
    Meta.stampable params = Meta.stampable req.params

variable {req : JsonRpcRequest} {version : Option Value} {msg : JsonRpcMessage}

theorem states_self (req : JsonRpcRequest) :
    States req (Meta.entry Meta.keys.protocolVersion req.params) (.request req) :=
  ⟨req.params, rfl, rfl, rfl⟩

theorem States.sanitizeInbound (h : States req version msg) :
    States req version (Meta.sanitizeInbound msg) := by
  obtain ⟨params, rfl, hversion, hroom⟩ := h
  refine ⟨_, rfl, ?_, (Meta.stampable_retainMeta _ params).trans hroom⟩
  have hkept : (!Meta.internal.isInternalKey Meta.keys.protocolVersion) = true := by decide
  rw [Meta.entry_retainMeta, if_pos hkept]
  exact hversion

theorem States.setRequestMeta (h : States req version msg) {key : String}
    (hkey : Meta.keys.protocolVersion ≠ key) (value : Value) :
    States req version (Meta.setRequestMeta msg key value) := by
  obtain ⟨params, rfl, hversion, hroom⟩ := h
  refine ⟨_, rfl, ?_, (Meta.stampable_setMeta key value params).trans hroom⟩
  rw [Meta.entry_setMeta_of_ne hkey]
  exact hversion

theorem States.setVersion (h : States req version msg) (hroom : Meta.stampable req.params = true)
    (value : Value) :
    States req (some value) (Meta.setRequestMeta msg Meta.keys.protocolVersion value) := by
  obtain ⟨params, rfl, -, hsame⟩ := h
  refine ⟨_, rfl, ?_, (Meta.stampable_setMeta _ value params).trans hsame⟩
  exact Meta.entry_setMeta_self _ value (hsame.trans hroom)

theorem States.stampInbound (h : States req version msg) (connection : String)
    (config : ServeConfig) : States req version (stampInbound connection config msg) := by
  have hkey : Meta.keys.protocolVersion ≠ Meta.internal.connectionId := by decide
  have hconn := h.sanitizeInbound.setRequestMeta hkey (.string connection)
  unfold Service.stampInbound
  cases config.identity with
  | none => exact hconn
  | some principal => exact hconn.setRequestMeta (by decide) principal

theorem States.assertPrincipal (h : States req version msg) (principal : Option Value) :
    States req version (Http.assertPrincipal principal msg) := by
  unfold Http.assertPrincipal
  cases principal with
  | none => exact h
  | some principal => exact h.setRequestMeta (by decide) principal

theorem States.assertConnection (h : States req version msg) (post : Transport.Http.Post) :
    States req version (Http.assertConnection post msg) := by
  unfold Http.assertConnection
  split
  · exact h.setRequestMeta (by decide) _
  · exact h

theorem isInitialize_of_states (h : States req version msg) :
    LegacySessionAdapter.isInitialize msg = decide (req.method = methods.initializeRequest) ∧
      Http.isInitialize msg = decide (req.method = methods.initializeRequest) := by
  obtain ⟨params, rfl, -, -⟩ := h
  exact ⟨rfl, by simp [Http.isInitialize, JsonRpcMessage.method]⟩

/-- Outside a session, and for `initialize`, the version is the request's own. -/
theorem deliver_own (link : Link) (session : Option String) (req : JsonRpcRequest)
    (hown : req.method = methods.initializeRequest ∨
      session = none ∧ statedVersion (.request req) ≠ some ProtocolVersion.v2025_11_25.asStr) :
    ∃ msg, link.deliver session (.request req) = some msg ∧
      States req (Meta.entry Meta.keys.protocolVersion req.params) msg := by
  have hreq := states_self req
  cases link with
  | pipe connection config candidate =>
      have hpipe := hreq.stampInbound connection config
      have hinit := (isInitialize_of_states hpipe).1
      simp only [Link.deliver, Link.endpoint, Endpoint.accept, hinit, decide_eq_true_eq]
      rcases hown with hm | ⟨rfl, -⟩
      · rw [if_pos hm]
        exact ⟨_, rfl, hpipe.setRequestMeta (by decide) _⟩
      · split
        · exact ⟨_, rfl, hpipe.setRequestMeta (by decide) _⟩
        · exact ⟨_, rfl, hpipe⟩
  | http principal minted stream =>
      have hpost := hreq.sanitizeInbound.assertPrincipal principal
      have hinit := (isInitialize_of_states hpost).2
      simp only [Link.deliver, Link.endpoint, Endpoint.accept, Http.Post.accept, if_true,
        Http.assertSession, hinit, decide_eq_true_eq]
      rcases hown with hm | ⟨rfl, hstated⟩
      · rw [if_pos hm]
        exact ⟨_, rfl, (hpost.setRequestMeta (by decide) _).assertConnection _⟩
      · split
        · exact ⟨_, rfl, (hpost.setRequestMeta (by decide) _).assertConnection _⟩
        · exact ⟨_, rfl, hpost.assertConnection _⟩

/-- Under a session, a request with room that states no version gets the
session's. -/
theorem deliver_session (link : Link) (sid : String) (req : JsonRpcRequest)
    (hm : req.method ≠ methods.initializeRequest) (hroom : Meta.stampable req.params = true)
    (hnone : Meta.entry Meta.keys.protocolVersion req.params = none) :
    ∃ msg, link.deliver (some sid) (.request req) = some msg ∧
      States req (some (.string ProtocolVersion.v2025_11_25.asStr)) msg := by
  have hreq := hnone ▸ states_self req
  cases link with
  | pipe connection config candidate =>
      have hpipe := hreq.stampInbound connection config
      have hinit := (isInitialize_of_states hpipe).1
      simp only [Link.deliver, Link.endpoint, Endpoint.accept, hinit, decide_eq_true_eq, if_neg hm]
      have hfree : (Meta.requestProtocolVersion
          (stampInbound connection config (.request req)).params).isNone = true := by
        obtain ⟨params, hmsg, hversion, -⟩ := hpipe
        rw [hmsg]
        show (Meta.requestProtocolVersion params).isNone = true
        rw [Meta.requestProtocolVersion_eq, hversion]
        rfl
      refine ⟨_, rfl, ?_⟩
      simp only [LegacySessionAdapter.stampSession, hfree, if_true]
      exact (hpipe.setVersion hroom _).setRequestMeta (by decide) _
  | http principal minted stream =>
      have hpost := hreq.sanitizeInbound.assertPrincipal principal
      have hinit := (isInitialize_of_states hpost).2
      simp only [Link.deliver, Link.endpoint, Endpoint.accept, Http.Post.accept, if_true,
        Http.assertSession, hinit, decide_eq_true_eq, if_neg hm]
      have hfree : Http.messageHasVersion
          (Http.assertPrincipal principal (Meta.sanitizeInbound (.request req))) = false := by
        obtain ⟨params, hmsg, hversion, -⟩ := hpost
        rw [hmsg]
        show (Meta.entry Meta.keys.protocolVersion params).isSome = false
        rw [hversion]
        rfl
      refine ⟨_, rfl, ?_⟩
      simp only [Http.stampVersion, hfree, Bool.false_eq_true, if_false]
      exact ((hpost.setVersion hroom _).setRequestMeta (by decide) _).assertConnection _

end TurboMcp.System
