import TurboMcp.Server.Adapter

/-!
# What dispatching a frame uses

Every context, session id and connection id the dispatcher hands to a handler,
an extension or a store is the one its frame carries.  `Effect.Uses` says so of
one effect; the lemmas below say it of each helper, whatever the surroundings
answer.
-/

namespace TurboMcp.Server

open TurboMcp.Core TurboMcp.Lib

/-- Who a frame comes from: its principal, its session and its connection. -/
structure Asserted where
  identity : Identity
  session : Option String
  connection : Option String
  deriving DecidableEq

/-- The frame's `params` carry `a`. Without a `_meta` object there is no identity
to read, and no context is built from such a frame. -/
structure Carries (a : Asserted) (params : Option Value) : Prop where
  session : sessionId params = a.session
  connection : connectionId params = a.connection
  identity : ∀ m, Meta.metaObject params = some m → Meta.extractIdentity m = a.identity

/-! ## Effects -/

def HandleMode.Uses (a : Asserted) : HandleMode → Prop
  | .bidi session connection =>
      a.session = some session ∧ connection = a.connection.getD ""
  | .mrtr _ _ _ | .taskMediated | .unavailable _ => True

/-- A notification channel goes to the frame's connection, or falls back to its
session. -/
def channelUses (a : Asserted) (connection session : String) : Prop :=
  connection = a.connection.getD "" ∧ (session = "" ∨ session = a.session.getD "")

structure CapabilityCall.Uses (a : Asserted) (call : CapabilityCall) : Prop where
  identity : call.ctx.identity = a.identity
  client : ∀ c, call.client = some c → c.mode.Uses a
  progress : ∀ p, call.progress = some p → channelUses a p.connection p.session
  log : ∀ l, call.log = some l → channelUses a l.connection l.session

/-- The identity, session and connection an effect uses are `a`'s; where the
source falls back on an empty id, so does this. -/
def Effect.Uses (a : Asserted) : Effect → Prop
  | .sessionGet sid | .sessionInsert sid _ => a.session = some sid
  | .sessionSetLogLevel sid _ | .legacyUnsubscribe sid _ | .taskCreate sid _
  | .taskList sid _ _ | .taskGet sid _ | .taskCancel sid _ | .taskWaitResult sid _ =>
      sid = a.session.getD ""
  | .inflightRegister conn _ | .inflightRelease conn _ | .inflightCancel conn _
  | .writer conn => a.connection = some conn
  | .isCancelled conn _ => conn = a.connection
  | .legacyTouch sid conn => a.session = some sid ∧ conn = a.connection
  | .legacySubscribe sid conn _ => sid = a.session.getD "" ∧ conn = a.connection
  | .subscriptionInsert conn _ _ | .subscriptionRemove conn _ | .send conn _
  | .onSubscribe _ conn _ _ _ => conn = a.connection.getD ""
  | .stateVerify _ subject _ | .stateSign _ subject _ => subject = a.identity.subject
  | .capability call | .taskSpawn _ call => call.Uses a
  | .extensionDispatch _ r => r.context.identity = a.identity ∧ r.connectionId = a.connection
  | .augmentCall _ r =>
      r.context.identity = a.identity ∧ r.connectionId = a.connection ∧ r.run.Uses a
  -- reclaiming idle sessions, routing a client's response and the adapter's own
  -- bookkeeping concern no frame's ids
  | .sweepExpired | .legacyRemove _ | .pendingComplete _ | .mintSession | .adapterSession
  | .commitSession _ => True

/-- Whatever the surroundings answer, `p` performs only effects that use `a`. -/
abbrev UsesOnly {N α : Type} (a : Asserted) (p : Dispatch N α) (Q : α → Prop) : Prop :=
  Program.wp (Effect.Uses a) (fun _ _ => True) p Q

variable {N : Type} {a : Asserted} {d : VersionDispatcher N} {req : JsonRpcRequest}

/-- `asserted` reads off a frame's version that it has a `_meta` object. -/
theorem Carries.assertedIdentity {params : Option Value} (h : Carries a params)
    (hversion : (Meta.requestProtocolVersion params).isSome) :
    assertedIdentity params = a.identity := by
  unfold Server.assertedIdentity
  cases hm : Meta.metaObject params with
  | none => simp [Meta.requestProtocolVersion, hm] at hversion
  | some m => exact h.identity m hm

theorem Carries.session_eq {params : Option Value} (h : Carries a params) {sid : String}
    (hsid : sessionId params = some sid) : a.session = some sid := h.session.symm.trans hsid

theorem Carries.connection_eq {params : Option Value} (h : Carries a params) {conn : String}
    (hconn : connectionId params = some conn) : a.connection = some conn :=
  h.connection.symm.trans hconn

theorem Carries.session_getD {params : Option Value} (h : Carries a params) :
    (sessionId params).getD "" = a.session.getD "" := congrArg (·.getD "") h.session

theorem Carries.connection_getD {params : Option Value} (h : Carries a params) :
    (connectionId params).getD "" = a.connection.getD "" :=
  congrArg (·.getD "") h.connection

theorem version_of_classify {params : Option Value} {supported : List ProtocolVersion}
    {route : VersionRoute} (h : classifyVersion params supported = route)
    (hroute : route = .modern ∨ route = .legacy) :
    (Meta.requestProtocolVersion params).isSome := by
  unfold classifyVersion at h
  split at h
  · subst h
    simp at hroute
  · rename_i v hv
    simp [hv]

/-! ## Capability calls -/

theorem usesOnly_callHandler {call : CapabilityCall} (h : call.Uses a) :
    UsesOnly a (callHandler (N := N) d.router call) fun _ => True := by
  unfold callHandler
  split
  · exact ⟨h, fun _ _ => trivial⟩
  · trivial

theorem uses_plain {c : Capability} {ctx : RequestContext} {params : Params}
    (hctx : ctx.identity = a.identity) :
    CapabilityCall.Uses a
      { capability := c, ctx, client := none, progress := none, log := none, params } where
  identity := hctx
  client := fun _ h => nomatch h
  progress := fun _ h => nomatch h
  log := fun _ h => nomatch h

theorem usesOnly_mrtrHandle (strictKeys : Bool) (family : WireFamily) {ctx : RequestContext}
    (h : Carries a req.params) (hctx : ctx.identity = a.identity) :
    UsesOnly a (mrtrHandle (N := N) strictKeys family req ctx) fun out =>
      ∀ handle, out = .ok handle → handle.mode.Uses a := by
  unfold mrtrHandle
  split
  · split
    · rename_i session hsession
      rintro handle ⟨⟩
      exact ⟨h.session_eq hsession, h.connection_getD⟩
    · rintro handle ⟨⟩
      trivial
  · simp only
    split
    · rintro handle ⟨⟩
      trivial
    · refine ⟨congrArg Identity.subject hctx, fun verified _ => ?_⟩
      cases verified with
      | error e => exact fun _ h => nomatch h
      | ok state =>
          rintro handle ⟨⟩
          trivial

theorem channelUses_request (family : WireFamily) (h : Carries a req.params) :
    channelUses a ((connectionId req.params).getD "") (fallbackSession family req) := by
  refine ⟨h.connection_getD, ?_⟩
  cases family with
  | draft => exact .inl rfl
  | legacy => exact .inr (h.session_getD)

theorem usesOnly_finishMrtr (family : WireFamily) (c : Capability) {subject : Option String}
    (out : Option (HandlerOutcome N)) (hsubject : subject = a.identity.subject) :
    UsesOnly a (finishMrtr d family c req.id subject out) fun _ => True := by
  unfold finishMrtr
  rcases out with _ | ⟨result, collected, stateOut⟩
  · trivial
  · cases result with
    | ok result => trivial
    | error e =>
        simp only
        split
        · split
          · trivial
          · cases stateOut with
            | none => trivial
            | some data =>
                refine ⟨hsubject, fun signed _ => ?_⟩
                cases signed <;> trivial
        · trivial

theorem uses_mediated {family : WireFamily} {c : Capability} {ctx : RequestContext}
    {handle : ClientHandle} {loggingEnabled : Bool} {params : Params}
    (h : Carries a req.params) (hctx : ctx.identity = a.identity)
    (hhandle : handle.mode.Uses a) :
    CapabilityCall.Uses a
      { capability := c, ctx, client := some handle, progress := progressReporter family req,
        log := logSender family req ctx loggingEnabled, params } where
  identity := hctx
  client := by
    rintro c ⟨⟩
    exact hhandle
  progress := by
    intro p hp
    simp only [progressReporter] at hp
    split at hp <;> cases hp <;> exact channelUses_request family h
  log := by
    intro l hl
    simp only [logSender, Option.map_eq_some_iff] at hl
    obtain ⟨min, -, rfl⟩ := hl
    exact channelUses_request family h

theorem usesOnly_dispatchCapability (family : WireFamily) (c : Capability)
    {ctx : RequestContext} (h : Carries a req.params) (hctx : ctx.identity = a.identity) :
    UsesOnly a (dispatchCapability d family c req ctx req.id) fun _ => True := by
  unfold dispatchCapability
  split
  · trivial
  · split
    · refine Program.wp_seq (usesOnly_mrtrHandle _ _ h hctx) fun handle hhandle => ?_
      cases handle with
      | error e => trivial
      | ok handle =>
          refine Program.wp_seq (usesOnly_callHandler (uses_mediated h hctx (hhandle _ rfl)))
            fun out _ => ?_
          exact usesOnly_finishMrtr _ _ out (congrArg Identity.subject hctx)
    · exact Program.wp_seq (usesOnly_callHandler (uses_plain hctx)) fun _ _ => trivial

/-! ## Draft and legacy requests -/

theorem usesOnly_tryAugmentCall {ctx : RequestContext} (h : Carries a req.params)
    (hctx : ctx.identity = a.identity) (extensions : List Extension) :
    UsesOnly a (tryAugmentCall d req ctx extensions) fun _ => True := by
  induction extensions with
  | nil => trivial
  | cons ext extensions ih =>
      unfold tryAugmentCall
      split
      · split
        · trivial
        · rename_i run hrun
          refine ⟨⟨hctx, h.connection, ?_⟩, fun reply _ => ?_⟩
          · unfold buildCallRunner at hrun
            cases hp : parseCallToolParams d.texts req.params with
            | error e => simp [hp, Except.map] at hrun
            | ok params =>
                simp only [hp, Except.map, Except.ok.injEq] at hrun
                subst hrun
                refine ⟨hctx, ?_, (fun _ hn => nomatch hn), (fun _ hn => nomatch hn)⟩
                rintro c ⟨⟩
                trivial
          · cases reply with
            | some resp => trivial
            | none => exact ih
      · exact ih

theorem usesOnly_handleModern (c : Capability) (h : Carries a req.params)
    (hversion : (Meta.requestProtocolVersion req.params).isSome) :
    UsesOnly a (handleModern d c req) fun _ => True := by
  have hctx : (buildContext req).identity = a.identity := by
    rw [buildContext_identity, h.assertedIdentity hversion]
  unfold handleModern
  split
  · trivial
  · rename_i level _
    have hlevel : ({ buildContext req with logLevel := level } : RequestContext).identity =
        a.identity := hctx
    have hoffer : UsesOnly a
        (offerAugmentation d c req { buildContext req with logLevel := level })
        fun _ => True := by
      unfold offerAugmentation
      split
      · exact usesOnly_tryAugmentCall h hlevel _
      · trivial
    refine Program.wp_seq hoffer fun out _ => ?_
    cases out with
    | some resp => trivial
    | none => exact usesOnly_dispatchCapability _ _ h hlevel

theorem usesOnly_taskById (poll : Int)
    {op : String → Dispatch N (Except TaskError TaskSnapshot)}
    (hop : ∀ tid, UsesOnly a (op tid) fun _ => True) :
    UsesOnly a (taskById d poll req op) fun _ => True := by
  unfold taskById
  split
  · trivial
  · refine Program.wp_seq (hop _) fun out _ => ?_
    cases out <;> trivial

theorem usesOnly_handleTasksMethod (poll : Int) {sid : String}
    (hsid : sid = a.session.getD "") :
    UsesOnly a (handleTasksMethod d poll sid req) fun _ => True := by
  unfold handleTasksMethod
  split
  · refine ⟨hsid, fun out _ => ?_⟩
    cases out <;> trivial
  · split
    · exact usesOnly_taskById poll fun _ => ⟨hsid, fun _ _ => trivial⟩
    · split
      · exact usesOnly_taskById poll fun _ => ⟨hsid, fun _ _ => trivial⟩
      · split
        · trivial
        · refine ⟨hsid, fun out _ => ?_⟩
          rcases out with e | value | err <;> trivial

theorem usesOnly_taskAugmentedCall (poll : Int) {ctx : RequestContext}
    (h : Carries a req.params) (hctx : ctx.identity = a.identity) :
    UsesOnly a (taskAugmentedCall d poll ctx req) fun _ => True := by
  unfold taskAugmentedCall
  split
  · trivial
  · split
    · trivial
    · split
      · refine ⟨h.session_getD, fun out _ => ?_⟩
        cases out with
        | ok snap => exact ⟨uses_plain hctx, fun _ _ => trivial⟩
        | error e => trivial
      · trivial

theorem usesOnly_legacyListTools {ctx : RequestContext} (hctx : ctx.identity = a.identity) :
    UsesOnly a (legacyListToolsWithTaskSupport d req ctx) fun _ => True := by
  refine Program.wp_seq (usesOnly_callHandler (uses_plain hctx)) fun out _ => ?_
  rcases out with _ | ⟨result, collected, stateOut⟩
  · trivial
  · cases result <;> trivial

theorem usesOnly_touchSession (h : Carries a req.params) :
    UsesOnly a (touchSession (N := N) req) fun _ => True := by
  unfold touchSession
  split
  · trivial
  · rename_i sid hsid
    exact ⟨⟨h.session_eq hsid, h.connection⟩, fun _ _ => trivial⟩

theorem usesOnly_handleLegacy (c : Capability) {ctx : RequestContext}
    (h : Carries a req.params) (hctx : ctx.identity = a.identity) :
    UsesOnly a (handleLegacy d c req ctx) fun _ => True := by
  refine Program.wp_seq (usesOnly_touchSession h) fun _ _ => ?_
  unfold legacyCall
  split
  · exact usesOnly_dispatchCapability _ _ h hctx
  · split
    · exact usesOnly_taskAugmentedCall _ h hctx
    · split
      · exact usesOnly_legacyListTools hctx
      · exact usesOnly_dispatchCapability _ _ h hctx

theorem usesOnly_legacyContext (h : Carries a req.params)
    (hversion : (Meta.requestProtocolVersion req.params).isSome) :
    UsesOnly a (legacyContext (N := N) req) fun out =>
      ∀ ctx, out = .ok (.ok ctx) → ctx.identity = a.identity := by
  unfold legacyContext
  split
  · exact fun _ hout => nomatch hout
  · rename_i sid hsid
    refine ⟨h.session_eq hsid, fun state _ => ?_⟩
    cases state with
    | none => exact fun _ hout => nomatch hout
    | some state =>
        rintro ctx ⟨⟩
        rw [sessionContext_identity, h.assertedIdentity hversion]

theorem usesOnly_withSession {modern : Dispatch N JsonRpcMessage}
    {legacy : RequestContext → Dispatch N JsonRpcMessage} (h : Carries a req.params)
    (hmodern : (Meta.requestProtocolVersion req.params).isSome →
      UsesOnly a modern fun _ => True)
    (hlegacy : ∀ ctx, ctx.identity = a.identity → UsesOnly a (legacy ctx) fun _ => True) :
    UsesOnly a (withSession d req modern legacy) fun _ => True := by
  unfold withSession
  split
  · rename_i hroute
    have hversion := version_of_classify hroute (.inl rfl)
    exact Program.wp_seq (hmodern hversion) fun _ _ => trivial
  · trivial
  · rename_i hroute
    have hversion := version_of_classify hroute (.inr rfl)
    refine Program.wp_seq (usesOnly_legacyContext h hversion) fun out hout => ?_
    rcases out with e | resp | ctx
    · trivial
    · trivial
    · exact Program.wp_seq (hlegacy ctx (hout ctx rfl)) fun _ _ => trivial

theorem usesOnly_handleResourceSubscription (h : Carries a req.params) :
    UsesOnly a (handleResourceSubscription d req) fun _ => True := by
  have hsid := h.session_getD
  unfold handleResourceSubscription
  split
  · split
    · trivial
    · split
      · exact ⟨⟨hsid, h.connection⟩, fun _ _ => trivial⟩
      · exact ⟨hsid, fun _ _ => trivial⟩
  · trivial

theorem usesOnly_handleSetLevel (h : Carries a req.params) :
    UsesOnly a (handleSetLevel d req) fun _ => True := by
  unfold handleSetLevel
  split
  · split
    · trivial
    · exact ⟨h.session_getD, fun _ _ => trivial⟩
  · trivial

theorem usesOnly_removeRoutes (sids : List String) :
    UsesOnly a (removeRoutes (N := N) sids) fun _ => True := by
  induction sids with
  | nil => trivial
  | cons sid sids ih => exact ⟨trivial, fun _ _ => ih⟩

theorem usesOnly_handleInitialize (tasksEnabled : Bool) (h : Carries a req.params) :
    UsesOnly a (handleInitialize d tasksEnabled req) fun _ => True := by
  unfold handleInitialize
  split
  · trivial
  · split
    · trivial
    · unfold storeSession
      split
      · trivial
      · rename_i sid hsid
        exact ⟨h.session_eq hsid, fun _ _ => trivial⟩

theorem usesOnly_handleInitializeRequest (h : Carries a req.params) :
    UsesOnly a (handleInitializeRequest d req) fun _ => True := by
  have hswept : UsesOnly a (Dispatch.sweepExpired (N := N)) fun _ => True :=
    ⟨trivial, fun _ _ => trivial⟩
  refine Program.wp_seq hswept fun swept _ => ?_
  refine Program.wp_seq (usesOnly_removeRoutes swept) fun _ _ => ?_
  refine Program.wp_seq (usesOnly_handleInitialize _ h) fun reply _ => ?_
  split
  · split
    · exact Program.wp_seq (usesOnly_touchSession h) fun _ _ => trivial
    · trivial
  · trivial

theorem usesOnly_handleExtension (ext : Extension) (h : Carries a req.params)
    (hversion : (Meta.requestProtocolVersion req.params).isSome) :
    UsesOnly a (handleExtension (N := N) ext req) fun _ => True := by
  unfold handleExtension
  simp only
  split
  · refine ⟨⟨?_, h.connection⟩, fun _ _ => trivial⟩
    rw [buildContext_identity, h.assertedIdentity hversion]
  · trivial

theorem version_of_extensionFor {ext : Extension} (h : extensionFor d req = some ext) :
    (Meta.requestProtocolVersion req.params).isSome := by
  unfold extensionFor at h
  split at h
  · split at h
    · rename_i hroute
      exact version_of_classify hroute (.inl rfl)
    · cases h
  · cases h

theorem usesOnly_handleRequest (h : Carries a req.params) :
    UsesOnly a (handleRequest d req) fun _ => True := by
  have hok {p : Dispatch N JsonRpcMessage} (hp : UsesOnly a p fun _ => True) :
      UsesOnly a (Except.ok <$> p : Dispatch N (Except ProtocolError JsonRpcMessage))
        fun _ => True := Program.wp_seq hp fun _ _ => trivial
  have hmissing : (Meta.requestProtocolVersion req.params).isSome →
      UsesOnly a (pure (methodNotFound req) : Dispatch N JsonRpcMessage) fun _ => True :=
    fun _ => trivial
  unfold handleRequest
  split
  · rename_i ext hext
    exact hok (usesOnly_handleExtension ext h (version_of_extensionFor hext))
  · split
    · trivial
    · split
      · trivial
      · split
        · exact hok (usesOnly_handleInitializeRequest h)
        · split
          · exact usesOnly_withSession h (usesOnly_handleModern _ h)
              fun _ hctx => usesOnly_handleLegacy _ h hctx
          · split
            · exact usesOnly_withSession h hmissing
                fun _ _ => usesOnly_handleResourceSubscription h
            · split
              · exact usesOnly_withSession h hmissing fun _ _ => usesOnly_handleSetLevel h
              · split
                · refine usesOnly_withSession h hmissing fun _ _ => ?_
                  cases d.tasks with
                  | none => trivial
                  | some poll =>
                      exact usesOnly_handleTasksMethod _ (h.session_getD)
                · trivial

/-! ## Frames -/

theorem usesOnly_offerSubscription {conn : String} (id : RequestId) (raw : Value)
    (ctx : RequestContext) (hconn : conn = a.connection.getD "")
    (extensions : List Extension) (ack : Map) :
    UsesOnly a (offerSubscription (N := N) conn id raw ctx extensions ack) fun _ => True := by
  induction extensions generalizing ack with
  | nil => trivial
  | cons ext extensions ih =>
      refine ⟨hconn, fun outcome _ => ?_⟩
      cases outcome with
      | notApplicable => exact ih ack
      | missingCapability => trivial
      | subscribed contribution => exact ih _

theorem usesOnly_acknowledge {conn : String} (agreed : SubscriptionFilter) (ack : Map)
    (hconn : conn = a.connection.getD "") (h : Carries a req.params) :
    UsesOnly a (acknowledge (N := N) conn req agreed ack) fun _ => True := by
  refine ⟨hconn, fun (sent : Bool) _ => ?_⟩
  cases sent with
  | false => trivial
  | true =>
      refine ⟨hconn, fun _ _ => ⟨h.connection, fun (fired : Bool) _ => ?_⟩⟩
      cases fired with
      | false => trivial
      | true => exact ⟨hconn, fun _ _ => trivial⟩

theorem usesOnly_handleSubscriptionsListen (h : Carries a req.params) :
    UsesOnly a (handleSubscriptionsListen d req) fun _ => True := by
  have hconn := h.connection_getD
  have hwriter : UsesOnly a (listenWriter (N := N) req) fun _ => True := by
    unfold listenWriter
    split
    · trivial
    · rename_i conn hc
      exact ⟨h.connection_eq hc, fun _ _ => trivial⟩
  unfold handleSubscriptionsListen
  split
  · trivial
  · trivial
  · refine Program.wp_seq hwriter fun streams _ => ?_
    split
    · split
      · trivial
      · refine Program.wp_seq (usesOnly_offerSubscription _ _ _ hconn _ _) fun out _ => ?_
        cases out with
        | error ext => trivial
        | ok ack =>
            exact Program.wp_seq (usesOnly_acknowledge _ ack hconn h) fun _ _ => trivial
    · trivial

theorem usesOnly_handleTracked (h : Carries a req.params) :
    UsesOnly a (handleTracked d req) fun _ => True := by
  unfold handleTracked
  split
  · exact Program.wp_seq (usesOnly_handleSubscriptionsListen h) fun _ _ => trivial
  · refine Program.wp_seq (Q := fun _ => True) ?_ fun out _ => ?_
    · exact wp_untilCancelled h.connection (fun _ => trivial) (usesOnly_handleRequest h)
    · rcases out with _ | e | reply <;> trivial

theorem usesOnly_handleNotification {n : JsonRpcNotification} (h : Carries a n.params) :
    UsesOnly a (handleNotification (N := N) n) fun _ => True := by
  unfold handleNotification
  split
  · split
    · rename_i conn id hconn _
      have hc : a.connection = some conn := h.connection_eq hconn
      exact ⟨hc, fun _ _ => ⟨by simp [Effect.Uses, hc], fun _ _ => trivial⟩⟩
    · trivial
  · trivial

/-- **Dispatching uses what the frame carries**: every context, session id and
connection id in an effect of `handle` is the frame's own. -/
theorem usesOnly_handle {msg : JsonRpcMessage} (h : Carries a msg.params) :
    UsesOnly a (handle d msg) fun _ => True := by
  unfold handle
  split
  · cases msg with
    | request req =>
        exact wp_whileInFlight (fun _ hc => h.connection_eq hc) (fun _ hc => h.connection_eq hc)
          (usesOnly_handleTracked h)
    | notification n => exact Program.wp_seq (usesOnly_handleNotification h) fun _ _ => trivial
    | response resp => exact ⟨trivial, fun _ _ => trivial⟩
  · cases msg <;> trivial

end TurboMcp.Server
