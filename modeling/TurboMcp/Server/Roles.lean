import TurboMcp.Server.Footprint
import TurboMcp.Server.Serve
import TurboMcp.Server.Subscriptions

/-!
# Whose entries a frame touches

The in-flight requests, the listen streams and the subscriptions are kept by
connection and request id.  A request touches the entries under its own key
only, a cancellation those under the key it names; a stream that has been
acknowledged is recorded next, and taken out again only by a request that has
seen itself cancelled.
-/

namespace TurboMcp.Server

open TurboMcp.Core TurboMcp.Lib

variable {N : Type} {d : VersionDispatcher N} {req : JsonRpcRequest}

/-! ## Roles -/

/-- What a frame is to the tables kept by request. -/
structure Role where
  /-- The request it is tracked as. -/
  tracks : Option SubscriptionKey
  /-- The stream it opens. -/
  listens : Option SubscriptionKey
  /-- The request it cancels. -/
  cancels : Option SubscriptionKey
  deriving DecidableEq

def Role.none : Role := ⟨.none, .none, .none⟩

def requestKey (req : JsonRpcRequest) : Option SubscriptionKey :=
  (connectionId req.params).map fun connection => (connection, req.id)

def cancelledKey (n : JsonRpcNotification) : Option SubscriptionKey :=
  match connectionId n.params, cancelledId n.params with
  | some connection, some id => some (connection, id)
  | _, _ => none

def Role.ofMessage : JsonRpcMessage → Role
  | .request req =>
      { tracks := requestKey req
        listens := if req.method = methods.subscriptionsListen then requestKey req else .none
        cancels := .none }
  | .notification n =>
      { Role.none with cancels := if n.method = methods.cancelled then cancelledKey n else .none }
  | .response _ => Role.none

/-! ## What a role allows -/

/-- How far a stream has been opened. -/
structure Opening where
  /-- Acknowledged and not yet recorded. -/
  pending : Option SubscriptionKey
  /-- The request has seen its token fired. -/
  cancelled : Bool

def Opening.none : Opening := ⟨.none, false⟩

def roleAllows (role : Role) (q : Opening) : Effect → Prop
  | .inflightRegister connection id | .inflightRelease connection id =>
      q.pending = .none ∧ role.tracks = some (connection, id)
  | .inflightCancel connection id => q.pending = .none ∧ role.cancels = some (connection, id)
  | .onSubscribe _ connection id _ _ =>
      q.pending = .none ∧ role.listens = some (connection, id)
  | .send connection m => q.pending = .none ∧
      ∃ id filters, m = acknowledgement id filters ∧ role.listens = some (connection, id)
  | .subscriptionInsert connection id _ =>
      q.pending = some (connection, id) ∧ role.listens = some (connection, id)
  | .subscriptionRemove connection id => q.pending = .none ∧
      (role.cancels = some (connection, id) ∨
        role.listens = some (connection, id) ∧ q.cancelled = true)
  | _ => q.pending = .none

def roleProtocol (N : Type) (role : Role) : Protocol Effect (Answer N) Opening where
  allows := roleAllows role
  after q e := match e with
    | .send _ _ => fun (sent : Bool) => ⟨if sent then role.listens else .none, false⟩
    | .subscriptionInsert _ _ _ => fun _ => ⟨.none, false⟩
    | .isCancelled _ _ => fun (cancelled : Bool) => ⟨q.pending, cancelled⟩
    | _ => fun _ => q

/-- From `q`, `p` keeps to the role and leaves no stream half open. -/
abbrev KeepsRole {α : Type} (role : Role) (q : Opening) (p : Dispatch N α) : Prop :=
  Program.Follows (roleProtocol N role) q p fun q _ => q.pending = .none

/-! ## Requests that open no stream -/

/-- The effect concerns no table kept by request. -/
def Effect.Untabled : Effect → Prop
  | .inflightRegister _ _ | .inflightRelease _ _ | .inflightCancel _ _ | .onSubscribe _ _ _ _ _
  | .send _ _ | .subscriptionInsert _ _ _ | .subscriptionRemove _ _ => False
  | _ => True

abbrev UntabledOnly {α : Type} (p : Dispatch N α) : Prop :=
  Program.wp Effect.Untabled (fun _ _ => True) p fun _ => True

theorem UntabledOnly.seq {α β : Type} {p : Dispatch N α} {f : α → Dispatch N β}
    (hp : UntabledOnly p) (hf : ∀ a, UntabledOnly (f a)) : UntabledOnly (p >>= f) :=
  Program.wp_seq hp fun a _ => hf a

theorem UntabledOnly.map {α β : Type} {p : Dispatch N α} (hp : UntabledOnly p) (f : α → β) :
    UntabledOnly (f <$> p) :=
  hp.seq fun _ => trivial

theorem UntabledOnly.of_plain {α : Type} {p : Dispatch N α} (h : PlainOnly p) :
    UntabledOnly p := by
  induction p with
  | ret a => trivial
  | call e k ih =>
      obtain ⟨he, hk⟩ := h
      refine ⟨?_, fun r _ => ih r (hk r trivial)⟩
      cases e <;> first | exact absurd he id | trivial

theorem untabledOnly_withSession {modern : Dispatch N JsonRpcMessage}
    {legacy : RequestContext → Dispatch N JsonRpcMessage} (hmodern : UntabledOnly modern)
    (hlegacy : ∀ ctx, UntabledOnly (legacy ctx)) :
    UntabledOnly (withSession d req modern legacy) := by
  unfold withSession
  split
  · exact hmodern.map _
  · trivial
  · refine UntabledOnly.seq ?_ fun out => ?_
    · unfold legacyContext
      split
      · trivial
      · refine ⟨trivial, fun (state : Option SessionState) _ => ?_⟩
        cases state <;> trivial
    · rcases out with e | response | ctx
      · trivial
      · trivial
      · exact (hlegacy ctx).map _

theorem untabledOnly_touchSession : UntabledOnly (touchSession (N := N) req) := by
  unfold touchSession
  split
  · trivial
  · exact ⟨trivial, fun _ _ => trivial⟩

theorem untabledOnly_handleInitializeRequest :
    UntabledOnly (handleInitializeRequest (N := N) d req) := by
  unfold handleInitializeRequest
  have hremove (sids : List String) : UntabledOnly (removeRoutes sids : Dispatch N Unit) := by
    induction sids with
    | nil => trivial
    | cons sid sids ih => exact ⟨trivial, fun _ _ => ih⟩
  refine ⟨trivial, fun (swept : List String) _ => ?_⟩
  refine (hremove swept).seq fun _ => UntabledOnly.seq ?_ fun reply => ?_
  · unfold handleInitialize
    split
    · trivial
    · split
      · trivial
      · refine UntabledOnly.seq ?_ fun _ => trivial
        unfold storeSession
        split
        · trivial
        · exact ⟨trivial, fun _ _ => trivial⟩
  · split
    · split
      · exact untabledOnly_touchSession.seq fun _ => trivial
      · trivial
    · trivial

theorem untabledOnly_handleRequest : UntabledOnly (handleRequest (N := N) d req) := by
  refine handleRequest_arms ?_ ?_ ?_ ?_ ?_
  · intro p hp
    exact (UntabledOnly.of_plain hp).map _
  · exact untabledOnly_handleInitializeRequest.map _
  · intro modern legacy hmodern hlegacy
    exact untabledOnly_withSession (.of_plain hmodern) fun ctx => .of_plain (hlegacy ctx)
  · intro c
    refine untabledOnly_withSession (.of_plain (plainOnly_handleModern c)) fun ctx => ?_
    exact untabledOnly_touchSession.seq fun _ => .of_plain (plainOnly_legacyCall c ctx)
  · refine untabledOnly_withSession trivial fun ctx => ?_
    unfold handleResourceSubscription
    split
    · split
      · trivial
      · split
        · exact ⟨trivial, fun _ _ => trivial⟩
        · exact ⟨trivial, fun _ _ => trivial⟩
    · trivial

theorem untabledOnly_untilDropped {α : Type} (connection : Option String) (id : RequestId)
    {p : Dispatch N α} (h : UntabledOnly p) : UntabledOnly (untilDropped connection id p) := by
  induction p with
  | ret a => trivial
  | call e k ih =>
      obtain ⟨he, hk⟩ := h
      unfold untilDropped
      split
      · refine ⟨he, fun r _ => ⟨trivial, fun (cancelled : Bool) _ => ?_⟩⟩
        cases cancelled with
        | true => trivial
        | false => exact ih r (hk r trivial)
      · exact ⟨he, fun r _ => ih r (hk r trivial)⟩

theorem untabledOnly_serveRequest : UntabledOnly (serveRequest (N := N) d req) := by
  unfold serveRequest
  refine ⟨trivial, fun (cancelled : Bool) _ => ?_⟩
  cases cancelled with
  | true => trivial
  | false =>
      exact (untabledOnly_untilDropped _ _ untabledOnly_handleRequest).seq fun _ => trivial

/-- What touches no table keeps to every role. -/
theorem keepsRole_of_untabled {α : Type} {role : Role} {q : Opening} {p : Dispatch N α}
    (h : UntabledOnly p) (hq : q.pending = .none) : KeepsRole role q p := by
  induction p generalizing q with
  | ret a => exact hq
  | call e k ih =>
      obtain ⟨he, hk⟩ := h
      have hallows : roleAllows role q e := by
        cases e <;> first | exact absurd he id | exact hq
      have hafter (r : Answer N e) : ((roleProtocol N role).after q e r).pending = .none := by
        cases e <;> first | exact absurd he id | exact hq
      exact ⟨hallows, fun r => ih r (hk r trivial) (hafter r)⟩

/-! ## Listen requests -/

/-- **Opening a stream**: what is acknowledged is recorded next. -/
theorem keepsRole_acknowledge {role : Role} {conn : String} {q : Opening}
    (hlistens : role.listens = some (conn, req.id)) (hq : q.pending = .none)
    (agreed : SubscriptionFilter) (ack : Map) :
    KeepsRole role q (acknowledge (N := N) conn req agreed ack) := by
  unfold acknowledge
  refine ⟨⟨hq, req.id, ack, rfl, hlistens⟩, fun (sent : Bool) => ?_⟩
  cases sent with
  | false => exact rfl
  | true =>
      refine ⟨⟨hlistens, hlistens⟩, fun _ => ⟨rfl, fun (cancelled : Bool) => ?_⟩⟩
      cases cancelled with
      | false => exact rfl
      | true => exact ⟨⟨rfl, Or.inr ⟨hlistens, rfl⟩⟩, fun _ => rfl⟩

theorem keepsRole_offerSubscription {role : Role} {conn : String} {id : RequestId}
    (hlistens : role.listens = some (conn, id)) (raw : Value) (ctx : RequestContext)
    (extensions : List Extension) (ack : Map) {q : Opening} (hq : q.pending = .none) :
    KeepsRole role q (offerSubscription (N := N) conn id raw ctx extensions ack) := by
  induction extensions generalizing ack with
  | nil => exact hq
  | cons ext extensions ih =>
      unfold offerSubscription
      refine ⟨⟨hq, hlistens⟩, fun (outcome : SubscribeOutcome) => ?_⟩
      cases outcome with
      | notApplicable => exact ih _
      | missingCapability => exact hq
      | subscribed contribution => exact ih _

theorem keepsRole_serveListen {role : Role} (hlistens : role.listens = requestKey req) :
    KeepsRole role Opening.none (serveListen (N := N) d req) := by
  unfold serveListen handleSubscriptionsListen
  refine Program.Follows.seq (Q := fun q _ => q.pending = none) ?_ fun q _ hq => ?_
  rotate_left
  · exact hq
  split
  · exact rfl
  · exact rfl
  · simp only
    -- past the writer, the frame has a connection
    have hwriter : Program.Follows (roleProtocol N role) Opening.none (listenWriter req)
        fun q live => q.pending = .none ∧
          (live = true → (connectionId req.params).isSome = true) := by
      unfold listenWriter
      cases hconn : connectionId req.params with
      | none => exact ⟨rfl, nofun⟩
      | some conn => exact ⟨rfl, fun live => ⟨rfl, fun _ => rfl⟩⟩
    refine hwriter.seq fun q live hq => ?_
    obtain ⟨hq, hconn⟩ := hq
    split
    · rename_i hlive
      obtain ⟨conn, hconn⟩ := Option.isSome_iff_exists.mp (hconn hlive)
      have hlistens : role.listens = some (conn, req.id) := by
        rw [hlistens, requestKey, hconn]
        rfl
      rw [hconn, Option.getD_some]
      split
      · exact hq
      · refine (keepsRole_offerSubscription hlistens _ _ _ _ hq).seq fun q out hq => ?_
        cases out with
        | error ext => exact hq
        | ok ack =>
            refine (keepsRole_acknowledge hlistens hq _ ack).seq fun q _ hq => ?_
            exact hq
    · exact hq

/-! ## Frames -/

theorem keepsRole_whileInFlight {role : Role} {α : Type} {p : Dispatch N α}
    (htracks : role.tracks = requestKey req) (h : KeepsRole role Opening.none p) :
    KeepsRole role Opening.none (whileInFlight req p) := by
  unfold whileInFlight
  split
  · exact h
  · rename_i conn hconn
    have htracks : role.tracks = some (conn, req.id) := by
      rw [htracks, requestKey, hconn]
      rfl
    exact ⟨⟨rfl, htracks⟩, fun _ => h.seq fun q _ hq => ⟨⟨hq, htracks⟩, fun _ => hq⟩⟩

/-- **Every frame keeps to its role.** -/
theorem keepsRole_serve (d : VersionDispatcher N) (msg : JsonRpcMessage) :
    KeepsRole (Role.ofMessage msg) Opening.none (serve d msg) := by
  unfold serve
  split
  · split
    · refine keepsRole_whileInFlight rfl ?_
      split
      · rename_i hlisten
        exact keepsRole_serveListen (if_pos hlisten)
      · exact keepsRole_of_untabled untabledOnly_serveRequest rfl
    · rename_i n _
      unfold handleNotification
      split
      · rename_i hmethod
        have hcancels : (Role.ofMessage (.notification n)).cancels = cancelledKey n :=
          if_pos hmethod
        unfold cancelledKey at hcancels
        split
        · rename_i conn id hconn hid
          rw [hconn, hid] at hcancels
          exact ⟨⟨rfl, hcancels⟩, fun _ => ⟨⟨rfl, Or.inl hcancels⟩, fun _ => rfl⟩⟩
        · exact rfl
      · exact rfl
    · exact ⟨rfl, fun _ => rfl⟩
  · exact rfl

end TurboMcp.Server
