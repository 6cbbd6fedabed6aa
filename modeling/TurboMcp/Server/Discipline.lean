import TurboMcp.Server.Footprint
import TurboMcp.Server.Serve
import TurboMcp.Server.Subscriptions

/-!
# The discipline of a request

What a request may do to sessions, routes and streams depends on what it has
learned: it touches the route of a session it has found live, it owes the
removal of the routes of the sessions it has swept, and it records a
subscription it has acknowledged.
-/

namespace TurboMcp.Server

open TurboMcp.Core TurboMcp.Lib

variable {N : Type} {d : VersionDispatcher N} {req : JsonRpcRequest}

/-- What a request has learned. -/
structure Held where
  /-- Sessions it found or stored, and has not seen go. -/
  live : String → Prop
  /-- Sessions it ended, whose routes it has yet to remove. -/
  owed : String → Prop
  /-- Listen requests it acknowledged. -/
  acked : SubscriptionKey → Prop

def Held.none : Held := ⟨fun _ => False, fun _ => False, fun _ => False⟩

def Held.Settled (q : Held) : Prop := ∀ sid, ¬ q.owed sid

theorem Held.settled_none : Held.none.Settled := fun _ => id

/-- What sending a message acknowledges. -/
def acknowledges (connection : String) (msg : JsonRpcMessage) (sent : Bool)
    (key : SubscriptionKey) : Prop :=
  sent = true ∧ isAcknowledgement msg = true ∧ key.1 = connection ∧ ForSubscription key.2 msg

def requestProtocol (N : Type) : Protocol Effect (Answer N) Held where
  allows q e := match e with
    | .legacyTouch sid _ | .legacySubscribe sid _ _ => q.live sid
    | .subscriptionInsert connection id _ => q.acked (connection, id)
    | .send _ msg => q.Settled ∧ ∃ id filters, msg = acknowledgement id filters
    | e => suspends e = true → q.Settled
  after q e := match e with
    | .sessionGet sid => fun (state : Option SessionState) =>
        { q with
          live := fun s => if s = sid then state.isSome = true else q.live s }
    | .sessionInsert sid _ => fun _ => { q with live := fun s => s = sid }
    | .sweepExpired => fun (swept : List String) =>
        { q with
          live := fun s => q.live s ∧ s ∉ swept
          owed := fun s => q.owed s ∨ s ∈ swept }
    | .legacyRemove sid => fun _ => { q with owed := fun s => q.owed s ∧ s ≠ sid }
    | .send connection msg => fun (sent : Bool) =>
        { q with acked := fun key => q.acked key ∨ acknowledges connection msg sent key }
    | _ => fun _ => q

/-- From `q`, `p` keeps to the discipline and ends owing nothing. -/
abbrev Disciplined {α : Type} (q : Held) (p : Dispatch N α) : Prop :=
  Program.Follows (requestProtocol N) q p fun q _ => q.Settled

/-! ## Plain programs -/

theorem disciplined_of_plain {α : Type} {q : Held} {p : Dispatch N α} (h : PlainOnly p)
    (hq : q.Settled) : Disciplined q p := by
  induction p with
  | ret a => exact hq
  | call e k ih =>
      obtain ⟨he, hk⟩ := h
      have hallows : (requestProtocol N).allows q e := by
        cases e <;> first | exact absurd he id | exact fun _ => hq
      have hafter (r : Answer N e) : (requestProtocol N).after q e r = q := by
        cases e <;> first | exact absurd he id | rfl
      refine ⟨hallows, fun r => ?_⟩
      rw [hafter]
      exact ih r (hk r trivial)

theorem disciplined_map {α β : Type} {q : Held} {p : Dispatch N α} (h : Disciplined q p)
    (f : α → β) : Disciplined q (f <$> p) :=
  h.seq fun _ _ hq' => hq'

/-! ## Sessions -/

theorem disciplined_touchSession {q : Held}
    (hlive : ∀ sid, sessionId req.params = some sid → q.live sid) :
    Program.Follows (requestProtocol N) q (touchSession req) fun q' _ => q' = q := by
  unfold touchSession
  split
  · rfl
  · rename_i sid hsid
    exact ⟨hlive sid hsid, fun _ => rfl⟩

/-- Behind the session gate, the request's session was found live. -/
theorem disciplined_legacyContext {q : Held} (hq : q.Settled) :
    Program.Follows (requestProtocol N) q (legacyContext req) fun q out => q.Settled ∧
      ∀ ctx, out = .ok (.ok ctx) → ∃ sid, sessionId req.params = some sid ∧ q.live sid := by
  unfold legacyContext
  split
  · refine ⟨hq, ?_⟩
    rintro ctx ⟨⟩
  · rename_i sid hsid
    refine ⟨nofun, fun (state : Option SessionState) => ?_⟩
    cases state with
    | none =>
        refine ⟨hq, ?_⟩
        rintro ctx ⟨⟩
    | some state =>
        refine ⟨hq, fun _ _ => ⟨sid, hsid, ?_⟩⟩
        show if sid = sid then _ else _
        rw [if_pos rfl]
        rfl

theorem disciplined_withSession {modern : Dispatch N JsonRpcMessage}
    {legacy : RequestContext → Dispatch N JsonRpcMessage} (hmodern : PlainOnly modern)
    (hlegacy : ∀ ctx q, q.Settled → (∃ sid, sessionId req.params = some sid ∧ q.live sid) →
      Disciplined q (legacy ctx)) :
    Disciplined Held.none (withSession d req modern legacy) := by
  unfold withSession
  split
  · exact disciplined_map (disciplined_of_plain hmodern Held.settled_none) _
  · exact Held.settled_none
  · refine (disciplined_legacyContext Held.settled_none).seq ?_
    rintro q (e | response | ctx) ⟨hq, hlive⟩
    · exact hq
    · exact hq
    · exact disciplined_map (hlegacy ctx q hq (hlive ctx rfl)) _

theorem disciplined_handleResourceSubscription {q : Held} (hq : q.Settled)
    (hlive : ∃ sid, sessionId req.params = some sid ∧ q.live sid) :
    Disciplined q (handleResourceSubscription d req) := by
  obtain ⟨sid, hsid, hlive⟩ := hlive
  unfold handleResourceSubscription
  split
  · split
    · exact hq
    · rw [hsid, Option.getD_some]
      split
      · exact ⟨hlive, fun _ => hq⟩
      · exact ⟨nofun, fun _ => hq⟩
  · exact hq

/-- The routes of the sessions a request has swept are removed at once. -/
theorem disciplined_removeRoutes {q : Held} (sids : List String) :
    Program.Follows (requestProtocol N) q (removeRoutes sids) fun q' _ =>
      ∀ sid, q'.owed sid → q.owed sid ∧ sid ∉ sids := by
  induction sids generalizing q with
  | nil => exact fun sid h => ⟨h, List.not_mem_nil⟩
  | cons sid sids ih =>
      refine ⟨nofun, fun _ => ih.mono fun q' _ h s hs => ?_⟩
      obtain ⟨⟨howed, hne⟩, hmem⟩ := h s hs
      refine ⟨howed, ?_⟩
      rw [List.mem_cons, not_or]
      exact ⟨hne, hmem⟩

theorem disciplined_handleInitialize (tasksEnabled : Bool) {q : Held} (hq : q.Settled) :
    Program.Follows (requestProtocol N) q (handleInitialize d tasksEnabled req) fun q' reply =>
      q'.Settled ∧ ∀ resp, reply = .response resp → resp.error.isNone = true →
        ∀ sid, sessionId req.params = some sid → q'.live sid := by
  unfold handleInitialize
  split
  · refine ⟨hq, ?_⟩
    rintro resp ⟨⟩ h
    cases h
  · split
    · refine ⟨hq, ?_⟩
      rintro resp ⟨⟩ h
      cases h
    · unfold storeSession
      split
      · rename_i hsid
        refine ⟨hq, fun _ _ _ sid h => ?_⟩
        rw [hsid] at h
        cases h
      · rename_i sid hsid
        refine ⟨nofun, fun _ => ⟨hq, fun _ _ _ sid' h => ?_⟩⟩
        rw [hsid] at h
        cases h
        exact rfl

/-- **The handshake**: what it swept is torn down before it mints a session, and
only the session it stored is touched. -/
theorem disciplined_handleInitializeRequest :
    Disciplined Held.none (handleInitializeRequest (N := N) d req) := by
  unfold handleInitializeRequest
  refine ⟨nofun, fun (swept : List String) => ?_⟩
  refine (disciplined_removeRoutes swept).seq fun q _ hq => ?_
  have hq : q.Settled := by
    intro sid howed
    obtain ⟨h, hmem⟩ := hq sid howed
    rcases h with h | h
    · exact h
    · exact hmem h
  refine (disciplined_handleInitialize _ hq).seq fun q reply hreply => ?_
  obtain ⟨hq, hlive⟩ := hreply
  split
  · rename_i resp
    split
    · rename_i herr
      exact (disciplined_touchSession (hlive resp rfl herr)).seq fun q' _ h => by rw [h]; exact hq
    · exact hq
  · exact hq

theorem disciplined_handleLegacy (c : Capability) {ctx : RequestContext} {q : Held}
    (hq : q.Settled) (hlive : ∃ sid, sessionId req.params = some sid ∧ q.live sid) :
    Disciplined q (handleLegacy d c req ctx) := by
  obtain ⟨sid, hsid, hlive⟩ := hlive
  unfold handleLegacy
  refine Program.Follows.seq (disciplined_touchSession ?_) fun q' _ h => ?_
  · intro sid' hsid'
    rw [hsid] at hsid'
    cases hsid'
    exact hlive
  · subst h
    exact disciplined_of_plain (plainOnly_legacyCall _ _) hq

theorem disciplined_handleRequest : Disciplined Held.none (handleRequest (N := N) d req) := by
  refine handleRequest_arms ?_ ?_ ?_ ?_ ?_
  · intro p hp
    exact disciplined_map (disciplined_of_plain hp Held.settled_none) _
  · exact disciplined_map disciplined_handleInitializeRequest _
  · intro modern legacy hmodern hlegacy
    exact disciplined_withSession hmodern fun ctx q hq _ => disciplined_of_plain (hlegacy ctx) hq
  · intro c
    exact disciplined_withSession (plainOnly_handleModern c) fun ctx q hq hlive =>
      disciplined_handleLegacy c hq hlive
  · exact disciplined_withSession trivial fun ctx q hq hlive =>
      disciplined_handleResourceSubscription hq hlive

/-! ## Frames -/

/-- A request dropped at a suspension owes nothing either. -/
theorem disciplined_untilDropped {α : Type} (connection : Option String) (id : RequestId)
    {q : Held} {p : Dispatch N α} (h : Disciplined q p) :
    Disciplined q (untilDropped connection id p) := by
  induction p generalizing q with
  | ret a => exact h
  | call e k ih =>
      obtain ⟨he, hk⟩ := h
      unfold untilDropped
      split
      · rename_i hsuspends
        refine ⟨he, fun r => ⟨nofun, fun (cancelled : Bool) => ?_⟩⟩
        have howed : ((requestProtocol N).after q e r).Settled := by
          cases e <;> first | exact he rfl | exact he.1 | cases hsuspends
        cases cancelled with
        | true => exact howed
        | false => exact ih r (hk r)
      · exact ⟨he, fun r => ih r (hk r)⟩

theorem disciplined_serveRequest : Disciplined Held.none (serveRequest (N := N) d req) := by
  unfold serveRequest
  refine ⟨nofun, fun (cancelled : Bool) => ?_⟩
  cases cancelled with
  | true => exact Held.settled_none
  | false =>
      exact (disciplined_untilDropped _ _ disciplined_handleRequest).seq fun _ _ hq => hq

/-- **The listen discipline**: what is recorded has been acknowledged. -/
theorem disciplined_acknowledge {conn : String} (agreed : SubscriptionFilter) (ack : Map)
    {q : Held} (hq : q.Settled) : Disciplined q (acknowledge (N := N) conn req agreed ack) := by
  unfold acknowledge
  refine ⟨⟨hq, req.id, ack, rfl⟩, fun (sent : Bool) => ?_⟩
  cases sent with
  | false => exact hq
  | true =>
      refine ⟨Or.inr ⟨rfl, rfl, rfl, forSubscription_acknowledgement req.id ack⟩, fun _ => ?_⟩
      refine ⟨nofun, fun (cancelled : Bool) => ?_⟩
      cases cancelled with
      | true => exact ⟨nofun, fun _ => hq⟩
      | false => exact hq

theorem disciplined_offerSubscription {conn : String} (id : RequestId) (raw : Value)
    (ctx : RequestContext) (extensions : List Extension) (ack : Map) {q : Held}
    (hq : q.Settled) :
    Disciplined q (offerSubscription (N := N) conn id raw ctx extensions ack) := by
  induction extensions generalizing ack with
  | nil => exact hq
  | cons ext extensions ih =>
      unfold offerSubscription
      refine ⟨nofun, fun (outcome : SubscribeOutcome) => ?_⟩
      cases outcome with
      | notApplicable => exact ih _
      | missingCapability => exact hq
      | subscribed contribution => exact ih _

theorem disciplined_serveListen : Disciplined Held.none (serveListen (N := N) d req) := by
  unfold serveListen handleSubscriptionsListen
  refine Program.Follows.seq (Q := fun q _ => q.Settled) ?_ fun _ _ hq => hq
  split
  · exact Held.settled_none
  · exact Held.settled_none
  · simp only
    have hwriter : Program.Follows (requestProtocol N) Held.none (listenWriter req)
        fun q _ => q.Settled := by
      unfold listenWriter
      split
      · exact Held.settled_none
      · exact ⟨nofun, fun _ => Held.settled_none⟩
    refine hwriter.seq fun q live hq => ?_
    split
    · split
      · exact hq
      · refine (disciplined_offerSubscription _ _ _ _ _ hq).seq fun q out hq => ?_
        cases out with
        | error ext => exact hq
        | ok ack => exact (disciplined_acknowledge _ _ hq).seq fun _ _ hq => hq
    · exact hq

theorem disciplined_whileInFlight {α : Type} {p : Dispatch N α}
    (h : Disciplined Held.none p) : Disciplined Held.none (whileInFlight req p) := by
  unfold whileInFlight
  split
  · exact h
  · exact ⟨nofun, fun _ => h.seq fun q _ hq => ⟨nofun, fun _ => hq⟩⟩

theorem disciplined_handleNotification (n : JsonRpcNotification) :
    Disciplined Held.none (handleNotification (N := N) n) := by
  unfold handleNotification
  split
  · split
    · exact ⟨nofun, fun _ => ⟨nofun, fun _ => Held.settled_none⟩⟩
    · exact Held.settled_none
  · exact Held.settled_none

/-- **Every frame keeps to the discipline.** -/
theorem disciplined_serve (d : VersionDispatcher N) (msg : JsonRpcMessage) :
    Disciplined Held.none (serve d msg) := by
  unfold serve
  split
  · split
    · refine disciplined_whileInFlight ?_
      split
      · exact disciplined_serveListen
      · exact disciplined_serveRequest
    · exact disciplined_handleNotification _
    · exact ⟨nofun, fun _ => Held.settled_none⟩
  · exact Held.settled_none

end TurboMcp.Server
