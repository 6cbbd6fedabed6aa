import TurboMcp.System.Contexts
import TurboMcp.System.Handout

/-!
# The version of a session

`initialize` settles a version: it is answered, stored and handed to handlers.
A later request of the session that states no version is given one by the
adapter or by the HTTP endpoint, and that one decides how it is dispatched.
-/

namespace TurboMcp.System

open TurboMcp.Core TurboMcp.Lib TurboMcp.Server TurboMcp.Service TurboMcp.Transport

variable {N : Type}

/-! ## The version that is settled -/

/-- The version a client asks for settles the session at `2025-11-25`. -/
def Settles (requested : String) (supported : List ProtocolVersion) : Prop :=
  .v2025_11_25 ∈ supported ∧
    (ProtocolVersion.fromWire requested = .v2025_11_25 ∨
      ProtocolVersion.fromWire requested ∉ supported)

theorem negotiated_eq_iff (requested : String) (supported : List ProtocolVersion) :
    negotiateInitializeVersion requested supported = .v2025_11_25 ↔
      Settles requested supported := by
  unfold negotiateInitializeVersion Settles
  simp only
  split
  · rename_i hrequested
    constructor
    · intro heq
      exact ⟨heq ▸ hrequested, Or.inl heq⟩
    · rintro ⟨-, heq | hnot⟩
      · exact heq
      · exact absurd hrequested hnot
  · rename_i hrequested
    split
    · rename_i hlegacy
      exact iff_of_true rfl ⟨hlegacy, Or.inr hrequested⟩
    · rename_i hlegacy
      refine iff_of_false (fun heq => ?_) fun h => hlegacy h.1
      cases supported with
      | nil => cases heq
      | cons v supported =>
          have hv : v = .v2025_11_25 := heq
          exact hlegacy (hv ▸ List.mem_cons_self)

/-- The version that an answer to `initialize` states. -/
def answeredVersion : JsonRpcMessage → Option String
  | .response resp => (resp.result.bind (·.get "protocolVersion")).bind Value.asStr
  | _ => none

variable {d : VersionDispatcher N} {rfc3339 : Nat → String} {sid requested : String}

theorem answeredVersion_initializeResult (id : RequestId) (tasksEnabled : Bool)
    (negotiated : ProtocolVersion) :
    answeredVersion (okValue id (initializeResult d tasksEnabled negotiated)) =
      some negotiated.asStr := by
  unfold answeredVersion okValue initializeResult optionalString
  cases d.instructions <;> rfl

/-- The version is answered as it is stored. -/
theorem answers_negotiated (tasksEnabled : Bool) {init : JsonRpcRequest} {v : Value}
    {params : InitializeParams} (hparams : init.params = some v)
    (hdecode : d.wire.decodeInitialize v = some params) :
    Program.wp (fun _ => True) (fun _ _ => True) (handleInitialize d tasksEnabled init)
      fun reply => answeredVersion reply =
        some (negotiateInitializeVersion params.protocolVersion d.supported).asStr := by
  unfold handleInitialize
  simp only [hparams, hdecode]
  have hstore : Program.wp (fun _ => True) (fun _ _ => True)
      (storeSession (N := N) init (negotiateInitializeVersion params.protocolVersion d.supported)
        params) fun _ => True := by
    unfold storeSession
    split
    · trivial
    · exact ⟨trivial, fun _ _ => trivial⟩
  exact Program.wp_seq hstore fun _ _ => answeredVersion_initializeResult _ _ _

/-! ## The version that is stated -/

theorem requestProtocolVersion_congr {params params' : Option Value}
    (h : Meta.entry Meta.keys.protocolVersion params =
      Meta.entry Meta.keys.protocolVersion params') :
    Meta.requestProtocolVersion params = Meta.requestProtocolVersion params' := by
  rw [Meta.requestProtocolVersion_eq, Meta.requestProtocolVersion_eq, h]

/-- What a stamp makes of a message that states no version. -/
theorem version_setRequestMeta (msg : JsonRpcMessage) :
    Meta.requestProtocolVersion (Meta.setRequestMeta msg Meta.keys.protocolVersion
      (.string ProtocolVersion.v2025_11_25.asStr)).params =
        if hasRoom msg then some .v2025_11_25 else none := by
  rw [Meta.requestProtocolVersion_eq]
  cases hroom : hasRoom msg with
  | true =>
      rw [entry_setRequestMeta_self hroom]
      decide
  | false =>
      rw [entry_of_no_room (by rw [hasRoom_setRequestMeta, hroom])]
      rfl

/-- The request arrives in its session as one of the legacy version, where there
is room to say so, and else without a version. -/
structure Arrives (sid : String) (room : Bool) (req : JsonRpcRequest) : Prop where
  version : Meta.requestProtocolVersion req.params = if room then some .v2025_11_25 else none
  session : room = true → sessionId req.params = some sid

variable {next req : JsonRpcRequest}

/-- Where there is room, the request carries the session that its endpoint
asserts. -/
theorem sessionId_accept (ep : Endpoint) (h : ep.accept (.request next) = some (.request req))
    (hroom : Meta.stampable next.params = true) :
    sessionId req.params = (ep.facts (.request next)).session := by
  have hcarries := (stamped_accept ep h).carries.session
  have hseen : (ep.facts (.request next)).seenIn (.request req) =
      (ep.facts (.request next)).asserted := if_pos ((hasRoom_accept h).trans hroom)
  rw [hseen] at hcarries
  exact hcarries

theorem arrives_adapted {conn : String} {config : ServeConfig} {candidate : String}
    (hmethod : next.method ≠ methods.initializeRequest)
    (hversion : Meta.requestProtocolVersion next.params = none)
    (h : (Endpoint.adapted conn config candidate (some sid)).accept (.request next) =
      some (.request req)) : Arrives sid (Meta.stampable next.params) req := by
  have hinit : LegacySessionAdapter.isInitialize (.request next) = false := decide_eq_false hmethod
  have hnone : Meta.requestProtocolVersion (JsonRpcMessage.request next).params = none := hversion
  have hsession := sessionId_accept (.adapted conn config candidate (some sid)) h
  simp only [Endpoint.accept, isInitialize_stampInbound, hinit, Bool.false_eq_true, if_false,
    Option.some.injEq] at h
  unfold LegacySessionAdapter.stampSession at h
  rw [version_stampInbound, hnone] at h
  simp only [Option.isNone_none, if_true] at h
  constructor
  · show Meta.requestProtocolVersion (JsonRpcMessage.request req).params = _
    rw [← h, requestProtocolVersion_congr (entry_setRequestMeta_of_ne (by decide) _ _),
      version_setRequestMeta, hasRoom_stampInbound]
    rfl
  · intro hroom
    rw [hsession hroom]
    simp [Endpoint.facts, hinit, hnone]

theorem entry_assertConnection (post : Http.Post) (msg : JsonRpcMessage) :
    Meta.entry Meta.keys.protocolVersion (Http.assertConnection post msg).params =
      Meta.entry Meta.keys.protocolVersion msg.params := by
  unfold Http.assertConnection
  split
  · exact entry_setRequestMeta_of_ne (by decide) _ _
  · rfl

theorem hasRoom_assertPrincipal (principal : Option Value) (msg : JsonRpcMessage) :
    hasRoom (Http.assertPrincipal principal (Meta.sanitizeInbound msg)) = hasRoom msg := by
  unfold Http.assertPrincipal
  cases principal <;> simp

theorem entry_assertPrincipal (principal : Option Value) (msg : JsonRpcMessage) :
    Meta.entry Meta.keys.protocolVersion
        (Http.assertPrincipal principal (Meta.sanitizeInbound msg)).params =
      Meta.entry Meta.keys.protocolVersion msg.params := by
  have hsanitized := (entry_sanitizeInbound Meta.keys.protocolVersion msg).trans
    (if_neg (by decide))
  unfold Http.assertPrincipal
  cases principal with
  | none => exact hsanitized
  | some principal => exact (entry_setRequestMeta_of_ne (by decide) _ _).trans hsanitized

/-- The endpoint gives no version to a message whose version is no string. -/
theorem version_stampVersion {msg : JsonRpcMessage}
    (h : Meta.requestProtocolVersion msg.params = none) :
    Meta.requestProtocolVersion (Http.stampVersion msg).params =
      if hasRoom msg && !Http.messageHasVersion msg then some .v2025_11_25 else none := by
  unfold Http.stampVersion
  split
  · rename_i hhas
    rw [h, hhas, Bool.not_true, Bool.and_false]
    rfl
  · rename_i hfree
    rw [version_setRequestMeta, Bool.eq_false_iff.mpr hfree, Bool.not_false, Bool.and_true]

theorem arrives_http {post : Http.Post} (hheader : post.sessionHeader = some sid)
    (hmethod : next.method ≠ methods.initializeRequest)
    (hversion : Meta.requestProtocolVersion next.params = none)
    (h : post.accept (.request next) = some (.request req)) :
    Arrives sid (Meta.stampable next.params && !Http.messageHasVersion (.request next)) req := by
  have hsession := sessionId_accept (.http post) h
  have hinit : Http.isInitialize (.request next) = false :=
    decide_eq_false fun heq => hmethod (Option.some.inj heq)
  have hasserted := (http_kinds_assertPrincipal post.principal (.request next)).1.trans hinit
  have hhas : Http.messageHasVersion
      (Http.assertPrincipal post.principal (Meta.sanitizeInbound (.request next))) =
        Http.messageHasVersion (.request next) :=
    congrArg Option.isSome (entry_assertPrincipal post.principal (.request next))
  unfold Http.Post.accept at h
  simp only at h
  split at h
  · unfold Http.assertSession at h
    simp only [hasserted, Bool.false_eq_true, if_false, hheader, Option.map_some,
      Option.some.injEq] at h
    constructor
    · show Meta.requestProtocolVersion (JsonRpcMessage.request req).params = _
      rw [← h, requestProtocolVersion_congr (entry_assertConnection _ _),
        requestProtocolVersion_congr (entry_setRequestMeta_of_ne (by decide) _ _),
        version_stampVersion, hasRoom_assertPrincipal, hhas]
      · rfl
      · rw [requestProtocolVersion_congr (entry_assertPrincipal _ _)]
        exact hversion
    · intro hroom
      rw [hsession (Bool.and_eq_true_iff.mp hroom).1]
      show (if Http.isInitialize (.request next) then _ else post.sessionHeader) = _
      rw [hinit]
      exact hheader
  · cases h

/-! ## The version in a run -/

theorem sessionContext_version (state : SessionState) (params : Option Value) :
    (sessionContext state params).protocolVersion = state.version := by
  unfold sessionContext
  cases Meta.metaObject params <;> rfl

def versionTerms (sid : String) (version : ProtocolVersion) (supported : List ProtocolVersion)
    (f : Frame) : Terms where
  stores := fun sid' state => sid' = sid → state.version = version
  finds := fun sid' state => sid' = sid → state.version = version
  hands := fun ctx => ∀ req, f = .message (.request req) →
    classifyVersion req.params supported = .legacy → sessionId req.params = some sid →
      ctx.protocolVersion = version

/-- Every `initialize` that is started under the session's id asks for the same
version: an id is minted for one `initialize`. -/
def Requests (d : VersionDispatcher N) (sid requested : String) (a : Act Frame (Choice N)) : Prop :=
  ∀ init v params, a = .spawn (.message (.request init)) →
    init.method = methods.initializeRequest → sessionId init.params = some sid →
      init.params = some v → d.wire.decodeInitialize v = some params →
        params.protocolVersion = requested

theorem meets_versionTerms {a : Act Frame (Choice N)} (h : Requests d sid requested a) {f : Frame}
    (ha : a = .spawn f) :
    f.Meets d
      (versionTerms sid (negotiateInitializeVersion requested d.supported) d.supported) := by
  rintro msg rfl
  cases msg with
  | notification n => trivial
  | response r => trivial
  | request req =>
      constructor
      · rintro sid' v params hmethod hsid hv hdecode rfl
        show negotiateInitializeVersion params.protocolVersion d.supported = _
        rw [h req v params ha hmethod hsid hv hdecode]
      · intro hmodern level req' hreq hlegacy
        cases hreq
        rw [hmodern] at hlegacy
        cases hlegacy
      · intro hlegacy sid' state hsid hfound req' hreq _ hsid'
        cases hreq
        rw [hsid] at hsid'
        rw [sessionContext_version]
        exact hfound (Option.some.inj hsid')

/-- The contexts that a run hands on for a request. -/
def HandedOn (P₀ : Server N) (tr : List (Act Frame (Choice N) × Server N))
    (req : JsonRpcRequest) (ctx : RequestContext) : Prop :=
  ∃ P ∈ states P₀ tr, ∃ n e k, P.threads.get n = some (.call (.effect e) k) ∧
    P.born[n]? = some (.message (.request req)) ∧ ctx ∈ e.contexts

/-- The version governs the request: the request states it, takes the stateful
path, and has it in every context that is handed on. -/
structure Governs (d : VersionDispatcher N) (version : ProtocolVersion) (P₀ : Server N)
    (tr : List (Act Frame (Choice N) × Server N)) (req : JsonRpcRequest) : Prop where
  stated : Meta.requestProtocolVersion req.params = some version
  dispatched : classifyVersion req.params d.supported = .legacy
  contexts : ∀ ctx, HandedOn P₀ tr req ctx → ctx.protocolVersion = version

theorem sound_versions {sessions : SessionStore} {taskCapacity : Nat}
    (hfresh : sessions.contains sid = false) {tr : List (Act Frame (Choice N) × Server N)}
    (hrun : Run (server d rfc3339).Step (Pool.init (Shared.init sessions taskCapacity)) tr)
    (hrequests : ∀ x ∈ steps (Pool.init (Shared.init sessions taskCapacity)) tr,
      Requests d sid requested x.2.1) :
    ∀ P ∈ states (Pool.init (Shared.init sessions taskCapacity)) tr,
      Sound (fun sid' state => sid' = sid →
          state.version = negotiateInitializeVersion requested d.supported)
        (versionTerms sid (negotiateInitializeVersion requested d.supported) d.supported) P := by
  refine sound_of_run (t := versionTerms sid _ d.supported) (fun _ => rfl) (fun _ _ _ h => h)
    (fun _ _ _ h => h) ?_ hrun ?_
  · refine ⟨?_, nofun⟩
    rintro sid' entry hentry rfl
    change sessions.inner.get sid' = some entry at hentry
    rw [SessionStore.contains, hentry] at hfresh
    cases hfresh
  · exact fun x hx f hf => meets_versionTerms (hrequests x hx) hf

theorem classifyVersion_legacy {params : Option Value} {supported : List ProtocolVersion}
    (h : Meta.requestProtocolVersion params = some .v2025_11_25)
    (hsupported : .v2025_11_25 ∈ supported) : classifyVersion params supported = .legacy := by
  unfold classifyVersion
  rw [h]
  exact (if_neg (not_not.mpr hsupported)).trans (if_pos rfl)

/-- A request that arrives in its session is governed by the session's version
just when it has room and that version is the one it is stamped with. -/
theorem Arrives.governs_iff {P₀ : Server N} {tr : List (Act Frame (Choice N) × Server N)}
    {room : Bool} (h : Arrives sid room req)
    (hsound : ∀ P ∈ states P₀ tr,
      Sound (fun sid' state => sid' = sid →
          state.version = negotiateInitializeVersion requested d.supported)
        (versionTerms sid (negotiateInitializeVersion requested d.supported) d.supported) P) :
    Governs d (negotiateInitializeVersion requested d.supported) P₀ tr req ↔
      Settles requested d.supported ∧ room = true := by
  constructor
  · intro hgoverns
    have hstated := h.version.symm.trans hgoverns.stated
    cases room with
    | false => cases hstated
    | true => exact ⟨(negotiated_eq_iff requested d.supported).mp (Option.some.inj hstated).symm, rfl⟩
  · rintro ⟨hsettles, rfl⟩
    have hlegacy := classifyVersion_legacy h.version hsettles.1
    refine ⟨?_, hlegacy, ?_⟩
    · rw [(negotiated_eq_iff requested d.supported).mpr hsettles]
      exact h.version
    · rintro ctx ⟨P, hP, n, e, k, hget, hborn, hctx⟩
      have hwithin := (hsound P hP).within hget hborn
      exact Effect.Within.contexts hwithin ctx hctx req rfl hlegacy (h.session rfl)

/-- **The negotiated version governs the session**, through the adapter and
through the HTTP endpoint, just when it is the version that requests are stamped
with; it is answered and stored as it is whatever it is. -/
theorem negotiated_version_governs_iff (d : VersionDispatcher N) (rfc3339 : Nat → String)
    (sessions : SessionStore) (taskCapacity : Nat) {sid requested : String}
    (hfresh : sessions.contains sid = false) {tr : List (Act Frame (Choice N) × Server N)}
    (hrun : Run (server d rfc3339).Step (Pool.init (Shared.init sessions taskCapacity)) tr)
    (hrequests : ∀ x ∈ steps (Pool.init (Shared.init sessions taskCapacity)) tr,
      Requests d sid requested x.2.1)
    {next : JsonRpcRequest} (hmethod : next.method ≠ methods.initializeRequest)
    (hversion : Meta.requestProtocolVersion next.params = none) :
    (∀ tasksEnabled init v params, init.params = some v →
      d.wire.decodeInitialize v = some params → params.protocolVersion = requested →
        Program.wp (fun _ => True) (fun _ _ => True) (handleInitialize d tasksEnabled init)
          fun reply => answeredVersion reply =
            some (negotiateInitializeVersion requested d.supported).asStr) ∧
    (∀ P ∈ states (Pool.init (Shared.init sessions taskCapacity)) tr, ∀ entry,
      P.shared.sessions.inner.get sid = some entry →
        entry.state.version = negotiateInitializeVersion requested d.supported) ∧
    (∀ conn config candidate req,
      (Endpoint.adapted conn config candidate (some sid)).accept (.request next) =
        some (.request req) →
          (Governs d (negotiateInitializeVersion requested d.supported)
              (Pool.init (Shared.init sessions taskCapacity)) tr req ↔
            Settles requested d.supported ∧ Meta.stampable next.params = true)) ∧
    ∀ post : Http.Post, post.sessionHeader = some sid → ∀ req,
      (Endpoint.http post).accept (.request next) = some (.request req) →
        (Governs d (negotiateInitializeVersion requested d.supported)
            (Pool.init (Shared.init sessions taskCapacity)) tr req ↔
          Settles requested d.supported ∧
            (Meta.stampable next.params && !Http.messageHasVersion (.request next)) = true) := by
  have hsound := sound_versions hfresh hrun hrequests
  refine ⟨?_, ?_, ?_, ?_⟩
  · rintro tasksEnabled init v params hparams hdecode rfl
    exact answers_negotiated tasksEnabled hparams hdecode
  · intro P hP entry hentry
    exact (hsound P hP).found sid entry hentry rfl
  · intro conn config candidate req haccept
    exact (arrives_adapted hmethod hversion haccept).governs_iff hsound
  · intro post hheader req haccept
    exact (arrives_http hheader hmethod hversion haccept).governs_iff hsound

/-! ## A session on a pipe -/

/-- A server of both versions. -/
def sessionServer : VersionDispatcher Unit :=
  { declaringServer with supported := ProtocolVersion.supported }

/-- Off a pipe, through an adapter that mints "s". -/
def pipe (session : Option String) : Endpoint :=
  .adapted "c" { maxInFlight := 1, identity := none } "s" session

/-- The handshake and the request for the tools as they arrive. -/
def handshakeStamped (requested : String) : JsonRpcRequest where
  id := .number 1
  method := "initialize"
  params := some (.object
    [("capabilities", .object []),
      ("clientInfo", .object [("name", .string "client"), ("version", .string "1")]),
      ("protocolVersion", .string requested),
      ("_meta", .object
        [(Meta.internal.connectionId, .string "c"), (Meta.internal.sessionId, .string "s")])])

def listToolsStamped : JsonRpcRequest :=
  { listTools with
    params := some (.object [("_meta", .object
      [(Meta.internal.connectionId, .string "c"), (Meta.keys.protocolVersion, .string "2025-11-25"),
        (Meta.internal.sessionId, .string "s")])]) }

theorem accept_listTools :
    (pipe (some "s")).accept (.request listTools) = some (.request listToolsStamped) := by decide

/-- A client shakes hands for a version and lists the tools, up to where the
handler is called. -/
def settledThenListed (requested : String) : List (Act Frame (Choice Unit)) :=
  .spawn (.message (.request (handshakeStamped requested))) ::
    List.replicate 6 (.run 0 (.declined "")) ++
    .spawn (.message (.request listToolsStamped)) :: List.replicate 4 (.run 1 (.declined ""))

theorem decode_handshakeStamped (requested : String) :
    ((handshakeStamped requested).params.bind decodeInitializeParams).map (·.protocolVersion) =
      some requested := rfl

theorem requests_settledThenListed (requested : String) :
    ∀ a ∈ settledThenListed requested, Requests sessionServer "s" requested a := by
  intro a ha init v params hspawn hmethod _ hparams hdecode
  subst hspawn
  unfold settledThenListed at ha
  rw [List.mem_append] at ha
  rcases ha with ha | ha
  · rcases List.mem_cons.mp ha with heq | ha
    · cases heq
      have hasked := decode_handshakeStamped requested
      rw [hparams, Option.bind_some, show decodeInitializeParams v = some params from hdecode] at hasked
      exact Option.some.inj hasked
    · cases List.eq_of_mem_replicate ha
  · rcases List.mem_cons.mp ha with heq | ha
    · cases heq
      exact absurd hmethod (by decide)
    · cases List.eq_of_mem_replicate ha

/-- Where the call is about to be made, the context has the version that was
asked for. -/
theorem handedOn_listTools (requested : String) (version : ProtocolVersion)
    (h : (reach (server sessionServer fun _ => "").step
        (Pool.init (Shared.init (SessionStore.withCapacity 8) 8))
        (settledThenListed requested)).map (fun P =>
          ((contextsNext P 1).map (·.protocolVersion), P.born[1]?)) =
      some ([version], some (.message (.request listToolsStamped)))) :
    ∃ tr, Run (server sessionServer fun _ => "").Step
        (Pool.init (Shared.init (SessionStore.withCapacity 8) 8)) tr ∧
      (∀ x ∈ steps (Pool.init (Shared.init (SessionStore.withCapacity 8) 8)) tr,
        Requests sessionServer "s" requested x.2.1) ∧
      ∃ ctx, HandedOn (Pool.init (Shared.init (SessionStore.withCapacity 8) 8)) tr
        listToolsStamped ctx ∧ ctx.protocolVersion = version := by
  obtain ⟨P, hreach, hP⟩ := Option.map_eq_some_iff.mp h
  obtain ⟨hversions, hborn⟩ := Prod.mk.inj hP
  have hmem : version ∈ (contextsNext P 1).map (·.protocolVersion) := by
    rw [hversions]
    exact List.mem_singleton_self _
  obtain ⟨ctx, hctx, hversion⟩ := List.mem_map.mp hmem
  obtain ⟨e, k, hget, hctx⟩ := exists_of_contextsNext hctx
  obtain ⟨tr, hrun, hmem, hlabels⟩ := exists_run_of_reach hreach
  refine ⟨tr, hrun, fun x hx => requests_settledThenListed requested _ (hlabels x hx), ctx, ?_,
    hversion⟩
  exact ⟨P, hmem, 1, e, k, hget, hborn, hctx⟩

/-- A client that asks for the legacy version is served under it. -/
theorem negotiated_version_governs_listTools :
    ∃ tr, Run (server sessionServer fun _ => "").Step
        (Pool.init (Shared.init (SessionStore.withCapacity 8) 8)) tr ∧
      (∃ ctx, HandedOn (Pool.init (Shared.init (SessionStore.withCapacity 8) 8)) tr
        listToolsStamped ctx) ∧
      Governs sessionServer .v2025_11_25
        (Pool.init (Shared.init (SessionStore.withCapacity 8) 8)) tr listToolsStamped := by
  obtain ⟨tr, hrun, hrequests, ctx, hctx, -⟩ := handedOn_listTools "2025-11-25"
    .v2025_11_25 (by decide +kernel)
  have hmethod : listTools.method ≠ methods.initializeRequest := by decide
  obtain ⟨-, -, hadapter, -⟩ := negotiated_version_governs_iff sessionServer (fun _ => "")
    (SessionStore.withCapacity 8) 8 rfl hrun hrequests hmethod rfl
  have hgoverns := hadapter "c" { maxInFlight := 1, identity := none } "s" listToolsStamped
    accept_listTools
  have hsettles : Settles "2025-11-25" sessionServer.supported := by
    refine ⟨?_, Or.inl ?_⟩ <;> decide
  exact ⟨tr, hrun, ⟨ctx, hctx⟩, hgoverns.mpr ⟨hsettles, rfl⟩⟩

/-- **A session of the draft served as one of `2025-11-25`**: a client that asks
for the draft is told that it has it; its requests are stamped with the legacy
version and take the stateful path, with the draft in their contexts. -/
theorem negotiated_draft_not_governing :
    negotiateInitializeVersion "2026-07-28" sessionServer.supported = .draft ∧
      (pipe (some "s")).accept (.request listTools) = some (.request listToolsStamped) ∧
      Meta.requestProtocolVersion listToolsStamped.params = some .v2025_11_25 ∧
      classifyVersion listToolsStamped.params sessionServer.supported = .legacy ∧
      ∃ tr, Run (server sessionServer fun _ => "").Step
          (Pool.init (Shared.init (SessionStore.withCapacity 8) 8)) tr ∧
        (∀ x ∈ steps (Pool.init (Shared.init (SessionStore.withCapacity 8) 8)) tr,
          Requests sessionServer "s" "2026-07-28" x.2.1) ∧
        (∃ ctx, HandedOn (Pool.init (Shared.init (SessionStore.withCapacity 8) 8)) tr
          listToolsStamped ctx ∧ ctx.protocolVersion = .draft) ∧
        ¬ Governs sessionServer .draft
          (Pool.init (Shared.init (SessionStore.withCapacity 8) 8)) tr listToolsStamped := by
  refine ⟨by decide, accept_listTools, by decide, by decide, ?_⟩
  obtain ⟨tr, hrun, hrequests, hctx⟩ := handedOn_listTools "2026-07-28" .draft
    (by decide +kernel)
  refine ⟨tr, hrun, hrequests, hctx, fun hgoverns => ?_⟩
  exact absurd hgoverns.stated (by decide)

end TurboMcp.System
