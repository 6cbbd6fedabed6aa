import TurboMcp.Protocol.Initialize
import TurboMcp.Server.Footprint
import TurboMcp.Server.Serve

/-!
# Contexts and the states they are built from

A request's handler is given a context: on the draft one that is built from the
frame, on a legacy version one that is built from the state its session stored
at `initialize`.  `Terms` are conditions on what is stored, found and handed on;
a request that meets them, as `Meets` says, performs no effect outside them.
-/

namespace TurboMcp.Server

open TurboMcp.Core TurboMcp.Lib

variable {N : Type}

/-! ## What `initialize` reads -/

def fromLegacyImpl (i : Protocol.Wire.Implementation) : Implementation :=
  { name := i.name, title := i.title, version := i.version }

/-- The generated decoder of `initialize`'s params, with the capabilities written
back as the session keeps them. -/
def decodeInitializeParams (v : Value) : Option InitializeParams :=
  (Protocol.Wire.Legacy.InitializeRequestParams.decode v).map fun params =>
    { protocolVersion := params.protocolVersion
      clientInfo := fromLegacyImpl params.clientInfo
      capabilities := params.capabilities.encode }

/-! ## What contexts carry -/

theorem sessionContext_clientCapabilities (state : SessionState) (params : Option Value) :
    (sessionContext state params).clientCapabilities = some state.clientCapabilities := by
  unfold sessionContext
  cases Meta.metaObject params <;> rfl

theorem isFrameworkKey_clientCapabilities :
    Meta.isFrameworkKey Meta.keys.clientCapabilities = true := by decide

/-- The draft hands on the declaration of the request itself. -/
theorem buildContext_clientCapabilities (req : JsonRpcRequest) :
    (buildContext req).clientCapabilities = Meta.entry Meta.keys.clientCapabilities req.params := by
  unfold buildContext Meta.entry
  cases Meta.metaObject req.params with
  | none => rfl
  | some m =>
      show Map.get (Map.retain m _) _ = _
      rw [Map.get_retain, if_pos isFrameworkKey_clientCapabilities]
      rfl

/-! ## Terms -/

/-- The contexts an effect hands to a handler or an extension. -/
def Effect.contexts : Effect → List RequestContext
  | .capability call | .taskSpawn _ call => [call.ctx]
  | .extensionDispatch _ r => [r.context]
  | .augmentCall _ r => [r.context, r.run.ctx]
  | _ => []

/-- The state `initialize` stores. -/
def initialState (d : VersionDispatcher N) (params : InitializeParams) : SessionState :=
  { version := negotiateInitializeVersion params.protocolVersion d.supported
    clientInfo := params.clientInfo
    clientCapabilities := params.capabilities
    logLevel := none }

/-- Conditions on the states that are stored and found under an id, and on the
contexts that are handed on. -/
structure Terms where
  stores : String → SessionState → Prop
  finds : String → SessionState → Prop
  hands : RequestContext → Prop

def Effect.Within (t : Terms) : Effect → Prop
  | .sessionInsert sid state => t.stores sid state
  | .capability call | .taskSpawn _ call => t.hands call.ctx
  | .extensionDispatch _ r => t.hands r.context
  | .augmentCall _ r => t.hands r.context ∧ t.hands r.run.ctx
  | _ => True

/-- A session that is looked up is one the terms expect. -/
def Finds (t : Terms) : (e : Effect) → Answer N e → Prop
  | .sessionGet sid, (found : Option SessionState) => ∀ state, found = some state → t.finds sid state
  | _, _ => True

theorem Effect.Within.contexts {t : Terms} {e : Effect} (h : e.Within t) :
    ∀ ctx ∈ e.contexts, t.hands ctx := by
  intro ctx hctx
  cases e
  case capability | taskSpawn | extensionDispatch =>
    obtain rfl := List.mem_singleton.mp hctx
    exact h
  case augmentCall =>
    rcases List.mem_cons.mp hctx with rfl | hctx
    · exact h.1
    · obtain rfl := List.mem_singleton.mp hctx
      exact h.2
  all_goals cases hctx

/-- What a request has to offer for its program to stay within the terms. -/
structure Meets (d : VersionDispatcher N) (req : JsonRpcRequest) (t : Terms) : Prop where
  stores : ∀ sid v params, req.method = methods.initializeRequest →
    sessionId req.params = some sid → req.params = some v →
    d.wire.decodeInitialize v = some params → t.stores sid (initialState d params)
  modern : classifyVersion req.params d.supported = .modern →
    ∀ level, t.hands { buildContext req with logLevel := level }
  legacy : classifyVersion req.params d.supported = .legacy →
    ∀ sid state, sessionId req.params = some sid → t.finds sid state →
      t.hands (sessionContext state req.params)

/-- `p` keeps within the terms as long as the sessions it finds do. -/
abbrev KeepsWithin {α : Type} (t : Terms) (p : Dispatch N α) (Q : α → Prop) : Prop :=
  Program.wp (Effect.Within t) (Finds t) p Q

variable {t : Terms} {d : VersionDispatcher N} {req : JsonRpcRequest}

/-! ## Capability calls -/

theorem within_callHandler {call : CapabilityCall} (h : t.hands call.ctx) :
    KeepsWithin t (callHandler (N := N) d.router call) fun _ => True := by
  unfold callHandler
  split
  · exact ⟨h, fun _ _ => trivial⟩
  · trivial

theorem within_mrtrHandle (strictKeys : Bool) (family : WireFamily) (ctx : RequestContext) :
    KeepsWithin t (mrtrHandle (N := N) strictKeys family req ctx) fun _ => True := by
  unfold mrtrHandle
  split
  · split <;> trivial
  · simp only
    split
    · trivial
    · refine ⟨trivial, fun verified _ => ?_⟩
      cases verified <;> trivial

theorem within_finishMrtr (family : WireFamily) (c : Capability) (id : RequestId)
    (subject : Option String) (out : Option (HandlerOutcome N)) :
    KeepsWithin t (finishMrtr d family c id subject out) fun _ => True := by
  unfold finishMrtr
  rcases out with _ | ⟨result, collected, stateOut⟩
  · trivial
  · cases result with
    | ok result => trivial
    | error e =>
        simp only
        split
        · split
          · trivial
          · cases stateOut with
            | none => trivial
            | some data =>
                refine ⟨trivial, fun signed _ => ?_⟩
                cases signed <;> trivial
        · trivial

theorem within_dispatchCapability (family : WireFamily) (c : Capability) {ctx : RequestContext}
    (h : t.hands ctx) :
    KeepsWithin t (dispatchCapability d family c req ctx req.id) fun _ => True := by
  unfold dispatchCapability
  split
  · trivial
  · split
    · refine Program.wp_seq (within_mrtrHandle _ _ _) fun handle _ => ?_
      cases handle with
      | error e => trivial
      | ok handle =>
          refine Program.wp_seq (within_callHandler h) fun out _ => ?_
          exact within_finishMrtr _ _ _ _ out
    · exact Program.wp_seq (within_callHandler h) fun _ _ => trivial

/-! ## Draft requests -/

theorem within_tryAugmentCall {ctx : RequestContext} (h : t.hands ctx)
    (extensions : List Extension) :
    KeepsWithin t (tryAugmentCall d req ctx extensions) fun _ => True := by
  induction extensions with
  | nil => trivial
  | cons ext extensions ih =>
      unfold tryAugmentCall
      split
      · cases hrun : buildCallRunner d req ctx with
        | error e => trivial
        | ok run =>
            have hctx : run.ctx = ctx := by
              unfold buildCallRunner at hrun
              cases hp : parseCallToolParams d.texts req.params with
              | error e => simp [hp, Except.map] at hrun
              | ok params =>
                  simp only [hp, Except.map, Except.ok.injEq] at hrun
                  rw [← hrun]
            refine ⟨⟨h, hctx ▸ h⟩, fun reply _ => ?_⟩
            cases reply with
            | some resp => trivial
            | none => exact ih
      · exact ih

theorem within_handleModern (c : Capability) (h : Meets d req t)
    (hroute : classifyVersion req.params d.supported = .modern) :
    KeepsWithin t (handleModern d c req) fun _ => True := by
  unfold handleModern
  split
  · trivial
  · rename_i level _
    have hctx := h.modern hroute level
    refine Program.wp_seq (Q := fun _ => True) ?_ fun reply _ => ?_
    · unfold offerAugmentation
      split
      · exact within_tryAugmentCall hctx _
      · trivial
    · cases reply with
      | some resp => trivial
      | none => exact within_dispatchCapability _ _ hctx

theorem within_handleExtension (ext : Extension) (h : Meets d req t)
    (hroute : classifyVersion req.params d.supported = .modern) :
    KeepsWithin t (handleExtension (N := N) ext req) fun _ => True := by
  unfold handleExtension
  simp only
  split
  · exact ⟨h.modern hroute (buildContext req).logLevel, fun _ _ => trivial⟩
  · trivial

/-! ## Legacy requests -/

theorem within_touchSession : KeepsWithin t (touchSession (N := N) req) fun _ => True := by
  unfold touchSession
  split
  · trivial
  · exact ⟨trivial, fun _ _ => trivial⟩

theorem within_handleLegacy (c : Capability) {ctx : RequestContext} (h : t.hands ctx) :
    KeepsWithin t (handleLegacy d c req ctx) fun _ => True := by
  refine Program.wp_seq within_touchSession fun _ _ => ?_
  unfold legacyCall
  split
  · exact within_dispatchCapability _ _ h
  · split
    · unfold taskAugmentedCall
      split
      · trivial
      · split
        · trivial
        · split
          · refine ⟨trivial, fun snap _ => ?_⟩
            cases snap with
            | error e => trivial
            | ok snap => exact ⟨h, fun _ _ => trivial⟩
          · trivial
    · split
      · refine Program.wp_seq (within_callHandler h) fun out _ => ?_
        rcases out with _ | ⟨result, collected, stateOut⟩
        · trivial
        · cases result <;> trivial
      · exact within_dispatchCapability _ _ h

theorem within_legacyContext (h : Meets d req t)
    (hroute : classifyVersion req.params d.supported = .legacy) :
    KeepsWithin t (legacyContext (N := N) req) fun out =>
      ∀ ctx, out = .ok (.ok ctx) → t.hands ctx := by
  unfold legacyContext
  split
  · exact fun _ hout => nomatch hout
  · rename_i sid hsid
    refine ⟨trivial, fun found hfound => ?_⟩
    cases found with
    | none => exact fun _ hout => nomatch hout
    | some state =>
        rintro ctx ⟨⟩
        exact h.legacy hroute sid state hsid (hfound state rfl)

theorem within_withSession {modern : Dispatch N JsonRpcMessage}
    {legacy : RequestContext → Dispatch N JsonRpcMessage} (h : Meets d req t)
    (hmodern : classifyVersion req.params d.supported = .modern →
      KeepsWithin t modern fun _ => True)
    (hlegacy : ∀ ctx, t.hands ctx → KeepsWithin t (legacy ctx) fun _ => True) :
    KeepsWithin t (withSession d req modern legacy) fun _ => True := by
  unfold withSession
  split
  · rename_i hroute
    exact Program.wp_seq (hmodern hroute) fun _ _ => trivial
  · trivial
  · rename_i hroute
    refine Program.wp_seq (within_legacyContext h hroute) fun out hout => ?_
    rcases out with e | resp | ctx
    · trivial
    · trivial
    · exact Program.wp_seq (hlegacy ctx (hout ctx rfl)) fun _ _ => trivial

theorem within_taskById (poll : Int) {op : String → Dispatch N (Except TaskError TaskSnapshot)}
    (hop : ∀ tid, KeepsWithin t (op tid) fun _ => True) :
    KeepsWithin t (taskById d poll req op) fun _ => True := by
  unfold taskById
  split
  · trivial
  · refine Program.wp_seq (hop _) fun out _ => ?_
    cases out <;> trivial

theorem within_handleTasksMethod (poll : Int) (sid : String) :
    KeepsWithin t (handleTasksMethod d poll sid req) fun _ => True := by
  unfold handleTasksMethod
  split
  · refine ⟨trivial, fun page _ => ?_⟩
    cases page <;> trivial
  · split
    · exact within_taskById poll fun _ => ⟨trivial, fun _ _ => trivial⟩
    · split
      · exact within_taskById poll fun _ => ⟨trivial, fun _ _ => trivial⟩
      · split
        · trivial
        · refine ⟨trivial, fun out _ => ?_⟩
          rcases out with e | value | err <;> trivial

theorem within_handleResourceSubscription :
    KeepsWithin t (handleResourceSubscription d req) fun _ => True := by
  unfold handleResourceSubscription
  split
  · split
    · trivial
    · split <;> exact ⟨trivial, fun _ _ => trivial⟩
  · trivial

theorem within_handleSetLevel : KeepsWithin t (handleSetLevel d req) fun _ => True := by
  unfold handleSetLevel
  split
  · split
    · trivial
    · exact ⟨trivial, fun _ _ => trivial⟩
  · trivial

/-! ## `initialize` -/

theorem within_removeRoutes (sids : List String) :
    KeepsWithin t (removeRoutes (N := N) sids) fun _ => True := by
  induction sids with
  | nil => trivial
  | cons sid sids ih => exact ⟨trivial, fun _ _ => ih⟩

theorem within_handleInitialize (tasksEnabled : Bool) (h : Meets d req t)
    (hmethod : req.method = methods.initializeRequest) :
    KeepsWithin t (handleInitialize d tasksEnabled req) fun _ => True := by
  unfold handleInitialize
  cases hparams : req.params with
  | none => trivial
  | some v =>
      cases hdecode : d.wire.decodeInitialize v with
      | none =>
          simp only [hdecode]
          trivial
      | some params =>
          simp only [hdecode]
          unfold storeSession
          split
          · trivial
          · rename_i sid hsid
            exact ⟨h.stores sid v params hmethod hsid hparams hdecode, fun _ _ => trivial⟩

theorem within_handleInitializeRequest (h : Meets d req t)
    (hmethod : req.method = methods.initializeRequest) :
    KeepsWithin t (handleInitializeRequest d req) fun _ => True := by
  have hswept : KeepsWithin t (Dispatch.sweepExpired (N := N)) fun _ => True :=
    ⟨trivial, fun _ _ => trivial⟩
  refine Program.wp_seq hswept fun swept _ => ?_
  refine Program.wp_seq (within_removeRoutes swept) fun _ _ => ?_
  refine Program.wp_seq (within_handleInitialize _ h hmethod) fun reply _ => ?_
  split
  · split
    · exact Program.wp_seq within_touchSession fun _ _ => trivial
    · trivial
  · trivial

/-! ## Frames -/

theorem modern_of_extensionFor {ext : Extension} (h : extensionFor d req = some ext) :
    classifyVersion req.params d.supported = .modern := by
  unfold extensionFor at h
  split at h
  · split at h
    · assumption
    · cases h
  · cases h

/-- **A request keeps within the terms it meets.** -/
theorem within_handleRequest (h : Meets d req t) :
    KeepsWithin t (handleRequest d req) fun _ => True := by
  have hok {p : Dispatch N JsonRpcMessage} (hp : KeepsWithin t p fun _ => True) :
      KeepsWithin t (Except.ok <$> p : Dispatch N (Except ProtocolError JsonRpcMessage))
        fun _ => True := Program.wp_seq hp fun _ _ => trivial
  have hmissing : KeepsWithin t (pure (methodNotFound req) : Dispatch N JsonRpcMessage)
      fun _ => True := trivial
  unfold handleRequest
  split
  · rename_i ext hext
    exact hok (within_handleExtension ext h (modern_of_extensionFor hext))
  · split
    · trivial
    · split
      · trivial
      · split
        · rename_i hmethod
          exact hok (within_handleInitializeRequest h hmethod)
        · split
          · exact within_withSession h (within_handleModern _ h)
              fun _ hctx => within_handleLegacy _ hctx
          · split
            · exact within_withSession h (fun _ => hmissing)
                fun _ _ => within_handleResourceSubscription
            · split
              · exact within_withSession h (fun _ => hmissing) fun _ _ => within_handleSetLevel
              · split
                · refine within_withSession h (fun _ => hmissing) fun _ _ => ?_
                  cases d.tasks with
                  | none => trivial
                  | some poll => exact within_handleTasksMethod _ _
                · trivial

theorem within_untilDropped {α : Type} (connection : Option String) (id : RequestId)
    {p : Dispatch N α} (h : KeepsWithin t p fun _ => True) :
    KeepsWithin t (untilDropped connection id p) fun _ => True := by
  induction p with
  | ret a => trivial
  | call e k ih =>
      obtain ⟨he, hk⟩ := h
      unfold untilDropped
      split
      · refine ⟨he, fun r hr => ⟨trivial, fun (cancelled : Bool) _ => ?_⟩⟩
        cases cancelled with
        | true => trivial
        | false => exact ih r (hk r hr)
      · exact ⟨he, fun r hr => ih r (hk r hr)⟩

theorem within_serveRequest (h : Meets d req t) :
    KeepsWithin t (serveRequest d req) fun _ => True := by
  have hcancelled : KeepsWithin t
      (Dispatch.isCancelled (N := N) (connectionId req.params) req.id) fun _ => True :=
    ⟨trivial, fun _ _ => trivial⟩
  have hrun := within_untilDropped (connectionId req.params) req.id (within_handleRequest h)
  refine Program.wp_seq hcancelled fun cancelled _ => ?_
  cases cancelled with
  | true => trivial
  | false => exact Program.wp_seq hrun fun _ _ => trivial

theorem within_offerSubscription (conn : String) (id : RequestId) (raw : Value)
    (ctx : RequestContext) (extensions : List Extension) (ack : Map) :
    KeepsWithin t (offerSubscription (N := N) conn id raw ctx extensions ack) fun _ => True := by
  induction extensions generalizing ack with
  | nil => trivial
  | cons ext extensions ih =>
      refine ⟨trivial, fun outcome _ => ?_⟩
      cases outcome with
      | notApplicable => exact ih ack
      | missingCapability => trivial
      | subscribed contribution => exact ih _

theorem within_acknowledge (conn : String) (agreed : SubscriptionFilter) (ack : Map) :
    KeepsWithin t (acknowledge (N := N) conn req agreed ack) fun _ => True := by
  refine ⟨trivial, fun (sent : Bool) _ => ?_⟩
  cases sent with
  | false => trivial
  | true =>
      refine ⟨trivial, fun _ _ => ⟨trivial, fun (fired : Bool) _ => ?_⟩⟩
      cases fired with
      | false => trivial
      | true => exact ⟨trivial, fun _ _ => trivial⟩

/-- A listen request's context goes to no handler. -/
theorem within_handleSubscriptionsListen :
    KeepsWithin t (handleSubscriptionsListen d req) fun _ => True := by
  have hwriter : KeepsWithin t (listenWriter (N := N) req) fun _ => True := by
    unfold listenWriter
    split
    · trivial
    · exact ⟨trivial, fun _ _ => trivial⟩
  unfold handleSubscriptionsListen
  split
  · trivial
  · trivial
  · refine Program.wp_seq hwriter fun streams _ => ?_
    split
    · split
      · trivial
      · refine Program.wp_seq (within_offerSubscription _ _ _ _ _ _) fun out _ => ?_
        cases out with
        | error ext => trivial
        | ok ack => exact Program.wp_seq (within_acknowledge _ _ ack) fun _ _ => trivial
    · trivial

theorem within_handleNotification (n : JsonRpcNotification) :
    KeepsWithin t (handleNotification (N := N) n) fun _ => True := by
  unfold handleNotification
  split
  · split
    · exact ⟨trivial, fun _ _ => ⟨trivial, fun _ _ => trivial⟩⟩
    · trivial
  · trivial

/-- A frame meets the terms when it is no request, or a request that does. -/
def FrameMeets (d : VersionDispatcher N) (t : Terms) : JsonRpcMessage → Prop
  | .request req => Meets d req t
  | _ => True

theorem within_serve {msg : JsonRpcMessage} (h : FrameMeets d t msg) :
    KeepsWithin t (serve d msg) fun _ => True := by
  unfold serve
  split
  · cases msg with
    | request req =>
        refine wp_whileInFlight (fun _ _ => trivial) (fun _ _ => trivial) ?_
        split
        · exact Program.wp_seq within_handleSubscriptionsListen fun _ _ => trivial
        · exact within_serveRequest h
    | notification n => exact within_handleNotification n
    | response resp => exact ⟨trivial, fun _ _ => trivial⟩
  · trivial

end TurboMcp.Server
