import TurboMcp.Server.Dispatcher

/-!
# Every request is answered

`handle` answers a request with one response under its id.  The exits that do
not are named by what the surroundings do: the request's token fires, a
`subscriptions/listen` is acknowledged, or a legacy request names a session that
is not live.  `Regular` leaves those out, and each helper of the dispatcher has
one lemma that says what it returns then.
-/

namespace TurboMcp.Server

open TurboMcp.Core TurboMcp.Lib

variable {N : Type}

/-- A response carrying `id`. -/
def IsReply (id : RequestId) (msg : JsonRpcMessage) : Prop :=
  ∃ resp, msg = .response resp ∧ resp.id = id

@[simp] theorem isReply_response (id : RequestId) (resp : JsonRpcResponse) :
    IsReply id (.response resp) ↔ resp.id = id := by
  simp [IsReply]

@[simp] theorem isReply_okValue (id : RequestId) (v : Value) : IsReply id (okValue id v) := by
  simp [okValue]

@[simp] theorem isReply_errorResponse (id : RequestId) (e : McpError) :
    IsReply id (errorResponse id e) := by
  simp [errorResponse]

@[simp] theorem isReply_methodNotFound (req : JsonRpcRequest) :
    IsReply req.id (methodNotFound req) := by
  simp [methodNotFound]

@[simp] theorem isReply_unsupportedVersion (d : VersionDispatcher N) (id : RequestId)
    (requested : Option String) : IsReply id (unsupportedVersion d id requested) := by
  simp [unsupportedVersion, ProtocolError.intoResponse]

@[simp] theorem isReply_missingCapabilityResponse (id : RequestId) (ext : String) :
    IsReply id (missingCapabilityResponse id ext) := by
  simp [missingCapabilityResponse]

@[simp] theorem isReply_taskErrorResponse (id : RequestId) (e : TaskError) :
    IsReply id (taskErrorResponse id e) := by
  simp [taskErrorResponse]

@[simp] theorem isReply_finish (d : VersionDispatcher N) (family : WireFamily)
    (c : Capability) (id : RequestId) (out : Option (HandlerOutcome N)) :
    IsReply id (finish d family c id out) := by
  unfold finish
  split
  · exact isReply_errorResponse _ _
  · split
    · exact isReply_okValue _ _
    · exact isReply_errorResponse _ _

theorem isReply_stampServerInfo {id : RequestId} {msg : JsonRpcMessage}
    (h : IsReply id msg) (info : Implementation) : IsReply id (stampServerInfo msg info) := by
  obtain ⟨resp, rfl, rfl⟩ := h
  unfold stampServerInfo
  simp only
  split
  · split
    · exact isReply_response _ _ |>.mpr rfl
    · split
      · exact isReply_response _ _ |>.mpr rfl
      · exact isReply_response _ _ |>.mpr rfl
    · exact isReply_response _ _ |>.mpr rfl
  · exact isReply_response _ _ |>.mpr rfl

/-! ## The surroundings of a plain request -/

/-- The answers to `req` that leave it neither cancelled, nor acknowledged as a
stream, nor without its session; extensions answer with a response. -/
def Regular (req : JsonRpcRequest) : (e : Effect) → Answer N e → Prop
  | .sessionGet _, (state : Option SessionState) => state ≠ none
  | .isCancelled _ _, (fired : Bool) => fired = false
  | .send _ _, _ => req.method ≠ methods.subscriptionsListen
  | .extensionDispatch _ r, (reply : JsonRpcMessage) => IsReply r.request.id reply
  | .augmentCall _ r, (reply : Option JsonRpcMessage) =>
      ∀ m, reply = some m → IsReply r.request.id m
  | _, _ => True

/-- `p`, met with regular answers to `req`, returns a value in `Q`. -/
abbrev Returns {α : Type} (req : JsonRpcRequest) (p : Dispatch N α) (Q : α → Prop) : Prop :=
  Program.wp (fun _ => True) (Regular req) p Q

variable {d : VersionDispatcher N} {req : JsonRpcRequest}

theorem returns_callHandler (call : CapabilityCall) :
    Returns req (callHandler (N := N) d.router call) fun _ => True := by
  unfold callHandler
  split
  · exact ⟨trivial, fun _ _ => trivial⟩
  · trivial

theorem returns_finishMrtr (family : WireFamily) (c : Capability) (subject : Option String)
    (out : Option (HandlerOutcome N)) :
    Returns req (finishMrtr d family c req.id subject out) (IsReply req.id) := by
  unfold finishMrtr
  rcases out with _ | ⟨result, collected, stateOut⟩
  · exact isReply_errorResponse _ _
  · cases result with
    | ok result => exact isReply_okValue _ _
    | error e =>
        simp only
        split
        · split
          · exact isReply_errorResponse _ _
          · cases stateOut with
            | none => exact isReply_okValue _ _
            | some data =>
                refine ⟨trivial, fun signed _ => ?_⟩
                cases signed with
                | ok token => exact isReply_okValue _ _
                | error e => exact isReply_errorResponse _ _
        · exact isReply_errorResponse _ _

theorem returns_mrtrHandle (strictKeys : Bool) (family : WireFamily) (ctx : RequestContext) :
    Returns req (mrtrHandle (N := N) strictKeys family req ctx) fun _ => True := by
  unfold mrtrHandle
  split
  · split <;> trivial
  · simp only
    split
    · trivial
    · refine ⟨trivial, fun verified _ => ?_⟩
      cases verified <;> trivial

theorem returns_dispatchCapability (family : WireFamily) (c : Capability)
    (ctx : RequestContext) :
    Returns req (dispatchCapability d family c req ctx req.id) (IsReply req.id) := by
  unfold dispatchCapability
  split
  · exact isReply_errorResponse _ _
  · split
    · refine Program.wp_seq (returns_mrtrHandle _ _ _) fun handle _ => ?_
      cases handle with
      | error e => exact isReply_errorResponse _ _
      | ok handle =>
          exact Program.wp_seq (returns_callHandler _) fun out _ =>
            returns_finishMrtr _ _ _ out
    · exact Program.wp_seq (returns_callHandler _) fun out _ => isReply_finish _ _ _ _ out

theorem returns_tryAugmentCall (ctx : RequestContext) (extensions : List Extension) :
    Returns req (tryAugmentCall d req ctx extensions) fun out =>
      ∀ m, out = some m → IsReply req.id m := by
  induction extensions with
  | nil => exact fun m h => nomatch h
  | cons ext extensions ih =>
      unfold tryAugmentCall
      split
      · split
        · rintro m ⟨⟩
          exact isReply_errorResponse _ _
        · refine ⟨trivial, fun reply hreply => ?_⟩
          cases reply with
          | some resp => exact fun m h => hreply m h
          | none => exact ih
      · exact ih

theorem returns_offerAugmentation (c : Capability) (ctx : RequestContext) :
    Returns req (offerAugmentation d c req ctx) fun out =>
      ∀ m, out = some m → IsReply req.id m := by
  unfold offerAugmentation
  split
  · exact returns_tryAugmentCall _ _
  · exact fun m h => nomatch h

theorem returns_handleModern (c : Capability) :
    Returns req (handleModern d c req) (IsReply req.id) := by
  unfold handleModern
  split
  · exact isReply_errorResponse _ _
  · refine Program.wp_seq (returns_offerAugmentation _ _) fun out hout => ?_
    cases out with
    | some resp => exact hout resp rfl
    | none => exact returns_dispatchCapability _ _ _

theorem returns_taskById (poll : Int)
    (op : String → Dispatch N (Except TaskError TaskSnapshot))
    (hop : ∀ tid, Returns req (op tid) fun _ => True) :
    Returns req (taskById d poll req op) (IsReply req.id) := by
  unfold taskById
  split
  · exact isReply_errorResponse _ _
  · rename_i tid _
    refine Program.wp_seq (hop tid) fun out _ => ?_
    cases out with
    | ok s => exact isReply_okValue _ _
    | error e => exact isReply_taskErrorResponse _ _

theorem returns_handleTasksMethod (poll : Int) (sid : String) :
    Returns req (handleTasksMethod d poll sid req) (IsReply req.id) := by
  unfold handleTasksMethod
  split
  · refine ⟨trivial, fun out _ => ?_⟩
    cases out with
    | ok page => exact isReply_okValue _ _
    | error e => exact isReply_taskErrorResponse _ _
  · split
    · exact returns_taskById poll _ fun _ => ⟨trivial, fun _ _ => trivial⟩
    · split
      · exact returns_taskById poll _ fun _ => ⟨trivial, fun _ _ => trivial⟩
      · split
        · exact isReply_errorResponse _ _
        · refine ⟨trivial, fun out _ => ?_⟩
          rcases out with e | value | err
          · exact isReply_taskErrorResponse _ _
          · exact isReply_response _ _ |>.mpr rfl
          · exact isReply_okValue _ _

theorem returns_taskAugmentedCall (poll : Int) (ctx : RequestContext) :
    Returns req (taskAugmentedCall d poll ctx req) (IsReply req.id) := by
  unfold taskAugmentedCall
  split
  · exact isReply_errorResponse _ _
  · split
    · exact isReply_errorResponse _ _
    · split
      · refine ⟨trivial, fun out _ => ?_⟩
        cases out with
        | ok snap => exact ⟨trivial, fun _ _ => isReply_okValue _ _⟩
        | error e => exact isReply_taskErrorResponse _ _
      · exact isReply_errorResponse _ _

theorem returns_legacyListTools (ctx : RequestContext) :
    Returns req (legacyListToolsWithTaskSupport d req ctx) (IsReply req.id) := by
  refine Program.wp_seq (returns_callHandler _) fun out _ => ?_
  rcases out with _ | ⟨result, collected, stateOut⟩
  · exact isReply_errorResponse _ _
  · cases result with
    | ok result => exact isReply_okValue _ _
    | error e => exact isReply_errorResponse _ _

theorem returns_touchSession :
    Returns req (touchSession (N := N) req) fun _ => True := by
  unfold touchSession
  split
  · trivial
  · exact ⟨trivial, fun _ _ => trivial⟩

theorem returns_legacyCall (c : Capability) (ctx : RequestContext) :
    Returns req (legacyCall d c req ctx) (IsReply req.id) := by
  unfold legacyCall
  split
  · exact returns_dispatchCapability _ _ _
  · split
    · exact returns_taskAugmentedCall _ _
    · split
      · exact returns_legacyListTools _
      · exact returns_dispatchCapability _ _ _

theorem returns_handleLegacy (c : Capability) (ctx : RequestContext) :
    Returns req (handleLegacy d c req ctx) (IsReply req.id) :=
  Program.wp_seq returns_touchSession fun _ _ => returns_legacyCall c ctx

theorem returns_legacyContext :
    Returns req (legacyContext (N := N) req) fun out => ∃ c, out = .ok c ∧
      ∀ reply, c = .error reply → IsReply req.id reply := by
  unfold legacyContext
  split
  · refine ⟨_, rfl, fun reply h => ?_⟩
    cases h
    exact isReply_response _ _ |>.mpr rfl
  · refine ⟨trivial, fun state hstate => ?_⟩
    cases state with
    | none => exact absurd rfl hstate
    | some state => exact ⟨_, rfl, fun reply h => nomatch h⟩

/-- Under a live session a routed request is answered, on whichever path. -/
theorem returns_withSession {modern : Dispatch N JsonRpcMessage}
    {legacy : RequestContext → Dispatch N JsonRpcMessage}
    (hmodern : Returns req modern (IsReply req.id))
    (hlegacy : ∀ ctx, Returns req (legacy ctx) (IsReply req.id)) :
    Returns req (withSession d req modern legacy) fun out =>
      ∃ reply, out = .ok reply ∧ IsReply req.id reply := by
  unfold withSession
  split
  · exact Program.wp_seq hmodern fun m hm => ⟨m, rfl, hm⟩
  · exact ⟨_, rfl, isReply_unsupportedVersion _ _ _⟩
  · refine Program.wp_seq returns_legacyContext fun out hout => ?_
    obtain ⟨c, rfl, hc⟩ := hout
    cases c with
    | error reply => exact ⟨reply, rfl, hc reply rfl⟩
    | ok ctx =>
        exact Program.wp_seq (hlegacy ctx) fun m hm => ⟨m, rfl, hm⟩

theorem returns_handleResourceSubscription :
    Returns req (handleResourceSubscription d req) (IsReply req.id) := by
  unfold handleResourceSubscription
  split
  · split
    · exact isReply_errorResponse _ _
    · split
      · exact ⟨trivial, fun _ _ => isReply_okValue _ _⟩
      · exact ⟨trivial, fun _ _ => isReply_okValue _ _⟩
  · exact isReply_methodNotFound _

theorem returns_handleSetLevel : Returns req (handleSetLevel d req) (IsReply req.id) := by
  unfold handleSetLevel
  split
  · split
    · exact isReply_errorResponse _ _
    · exact ⟨trivial, fun _ _ => isReply_okValue _ _⟩
  · exact isReply_methodNotFound _

theorem returns_handleInitialize (tasksEnabled : Bool) :
    Returns req (handleInitialize d tasksEnabled req) (IsReply req.id) := by
  unfold handleInitialize
  split
  · exact isReply_errorResponse _ _
  · split
    · exact isReply_errorResponse _ _
    · unfold storeSession
      split
      · exact isReply_okValue _ _
      · exact ⟨trivial, fun _ _ => isReply_okValue _ _⟩

theorem returns_removeRoutes (sids : List String) :
    Returns req (removeRoutes (N := N) sids) fun _ => True := by
  induction sids with
  | nil => trivial
  | cons sid sids ih => exact ⟨trivial, fun _ _ => ih⟩

theorem returns_handleInitializeRequest :
    Returns req (handleInitializeRequest d req) (IsReply req.id) := by
  have hswept : Returns req (Dispatch.sweepExpired (N := N)) fun _ => True :=
    ⟨trivial, fun _ _ => trivial⟩
  refine Program.wp_seq hswept fun swept _ => ?_
  refine Program.wp_seq (returns_removeRoutes swept) fun _ _ => ?_
  refine Program.wp_seq (returns_handleInitialize _) fun reply hreply => ?_
  obtain ⟨resp, rfl, hid⟩ := hreply
  simp only
  split
  · exact Program.wp_seq returns_touchSession fun _ _ => (isReply_response _ _).mpr hid
  · exact (isReply_response _ _).mpr hid

theorem returns_handleExtension (ext : Extension) :
    Returns req (handleExtension (N := N) ext req) (IsReply req.id) := by
  unfold handleExtension
  simp only
  split
  · exact ⟨trivial, fun reply hreply => hreply⟩
  · exact isReply_methodNotFound _

/-- **`handle_request` always responds**, as long as the session it needs is
live. -/
theorem returns_handleRequest :
    Returns req (handleRequest d req) fun out =>
      ∃ reply, out = .ok reply ∧ IsReply req.id reply := by
  have hok {p : Dispatch N JsonRpcMessage} (hp : Returns req p (IsReply req.id)) :
      Returns req (Except.ok <$> p : Dispatch N (Except ProtocolError JsonRpcMessage))
        fun out => ∃ reply, out = .ok reply ∧ IsReply req.id reply :=
    Program.wp_seq hp fun m hm => ⟨m, rfl, hm⟩
  have hmissing : Returns req (pure (methodNotFound req) : Dispatch N JsonRpcMessage)
      (IsReply req.id) := isReply_methodNotFound req
  unfold handleRequest
  split
  · exact hok (returns_handleExtension _)
  · split
    · exact ⟨_, rfl, isReply_okValue _ _⟩
    · split
      · exact ⟨_, rfl, isReply_okValue _ _⟩
      · split
        · exact hok returns_handleInitializeRequest
        · split
          · exact returns_withSession (returns_handleModern _) (returns_handleLegacy _)
          · split
            · exact returns_withSession hmissing fun _ => returns_handleResourceSubscription
            · split
              · exact returns_withSession hmissing fun _ => returns_handleSetLevel
              · split
                · refine returns_withSession hmissing fun _ => ?_
                  cases d.tasks with
                  | none => exact hmissing
                  | some poll => exact returns_handleTasksMethod _ _
                · exact ⟨_, rfl, isReply_methodNotFound _⟩

/-! ## Listening -/

theorem returns_offerSubscription (conn : String) (raw : Value) (ctx : RequestContext)
    (extensions : List Extension) (ack : Map) :
    Returns req (offerSubscription (N := N) conn req.id raw ctx extensions ack)
      fun _ => True := by
  induction extensions generalizing ack with
  | nil => trivial
  | cons ext extensions ih =>
      refine ⟨trivial, fun outcome _ => ?_⟩
      cases outcome with
      | notApplicable => exact ih ack
      | missingCapability => trivial
      | subscribed contribution => exact ih _

theorem returns_listenWriter : Returns req (listenWriter (N := N) req) fun _ => True := by
  unfold listenWriter
  split
  · trivial
  · exact ⟨trivial, fun _ _ => trivial⟩

/-- A listen that is not acknowledged is answered. -/
theorem returns_handleSubscriptionsListen (hm : req.method = methods.subscriptionsListen) :
    Returns req (handleSubscriptionsListen d req) fun out =>
      ∃ reply, out = some reply ∧ IsReply req.id reply := by
  unfold handleSubscriptionsListen
  split
  · exact ⟨_, rfl, isReply_errorResponse _ _⟩
  · exact ⟨_, rfl, isReply_unsupportedVersion _ _ _⟩
  · refine Program.wp_seq returns_listenWriter fun streams _ => ?_
    split
    · split
      · exact ⟨_, rfl, isReply_errorResponse _ _⟩
      · refine Program.wp_seq (returns_offerSubscription _ _ _ _ _) fun out _ => ?_
        cases out with
        | error ext => exact ⟨_, rfl, isReply_missingCapabilityResponse _ _⟩
        | ok ack =>
            -- the acknowledgement is sent, which a regular answer rules out
            exact ⟨trivial, fun _ hsent => absurd hm hsent⟩
    · exact ⟨_, rfl, isReply_response _ _ |>.mpr rfl⟩

/-! ## Frames -/

/-- Racing against the request's token: either it fires, or the program runs
as if alone. -/
theorem wp_untilCancelled {C : Effect → Prop} {A : (e : Effect) → Answer N e → Prop}
    {α : Type} {conn : Option String} {id : RequestId} {p : Dispatch N α} {Q : Option α → Prop}
    (hC : C (.isCancelled conn id)) (hnone : A (.isCancelled conn id) true → Q none)
    (hp : Program.wp C A p fun a => Q (some a)) :
    Program.wp C A (untilCancelled conn id p) Q := by
  induction p with
  | ret a => exact hp
  | call e k ih =>
      refine ⟨hC, fun fired hfired => ?_⟩
      cases fired with
      | true => exact hnone hfired
      | false => exact ⟨hp.1, fun r hr => ih r (hp.2 r hr)⟩

theorem wp_whileInFlight {C : Effect → Prop} {A : (e : Effect) → Answer N e → Prop}
    {α : Type} {req : JsonRpcRequest} {p : Dispatch N α} {Q : α → Prop}
    (hregister : ∀ conn, connectionId req.params = some conn → C (.inflightRegister conn req.id))
    (hrelease : ∀ conn, connectionId req.params = some conn → C (.inflightRelease conn req.id))
    (hp : Program.wp C A p Q) : Program.wp C A (whileInFlight req p) Q := by
  unfold whileInFlight
  split
  · exact hp
  · rename_i conn hconn
    refine (Program.wp_bind _ _).mpr ⟨hregister conn hconn, fun _ _ => ?_⟩
    refine Program.wp_seq hp fun out hout => ?_
    exact ⟨hrelease conn hconn, fun _ _ => hout⟩

theorem returns_handleTracked :
    Returns req (handleTracked d req) fun out =>
      ∃ reply, out = .ok (some reply) ∧ IsReply req.id reply := by
  unfold handleTracked
  split
  · rename_i hm
    refine Program.wp_seq (returns_handleSubscriptionsListen hm) fun out hout => ?_
    obtain ⟨reply, rfl, hreply⟩ := hout
    exact ⟨reply, rfl, hreply⟩
  · have hbody : Returns req (untilCancelled (connectionId req.params) req.id
        (handleRequest d req)) fun out =>
          ∃ reply, out = some (.ok reply) ∧ IsReply req.id reply := by
      refine wp_untilCancelled trivial (fun h => absurd h Bool.noConfusion) ?_
      exact Program.wp_mono returns_handleRequest fun out ⟨reply, hout, hreply⟩ =>
        ⟨reply, congrArg some hout, hreply⟩
    refine Program.wp_seq hbody fun out hout => ?_
    obtain ⟨reply, rfl, hreply⟩ := hout
    refine ⟨_, rfl, ?_⟩
    split
    · exact isReply_stampServerInfo hreply _
    · exact hreply

/-- **One frame in, one reply out**: a regular request is answered with a
response under its id. -/
theorem returns_handle (req : JsonRpcRequest) :
    Returns req (handle d (.request req)) fun out =>
      ∃ reply, out = .ok (some reply) ∧ IsReply req.id reply := by
  unfold handle
  split
  · exact wp_whileInFlight (fun _ _ => trivial) (fun _ _ => trivial) returns_handleTracked
  · exact ⟨_, rfl, isReply_response _ _ |>.mpr rfl⟩

/-- Notifications and responses are not answered, whatever happens. -/
theorem handle_silent {C : Effect → Prop} {A : (e : Effect) → Answer N e → Prop}
    {msg : JsonRpcMessage} (hmsg : ∀ req, msg ≠ .request req) (hC : ∀ e, C e) :
    Program.wp C A (handle d msg) fun out => out = .ok none := by
  unfold handle
  split
  · cases msg with
    | request req => exact absurd rfl (hmsg req)
    | notification n =>
        have hn : Program.wp C A (handleNotification (N := N) n) fun _ => True := by
          unfold handleNotification
          split
          · split
            · exact ⟨hC _, fun _ _ => ⟨hC _, fun _ _ => trivial⟩⟩
            · trivial
          · trivial
        exact Program.wp_seq hn fun _ _ => rfl
    | response resp => exact ⟨hC _, fun _ _ => rfl⟩
  · cases msg with
    | request req => exact absurd rfl (hmsg req)
    | notification n => rfl
    | response resp => rfl

end TurboMcp.Server
