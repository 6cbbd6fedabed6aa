import TurboMcp.Lib.Resume
import TurboMcp.System.Streams

/-!
# What a failed listen request leaves behind

`subscriptions/listen` offers its filter to the extensions one after another,
and each records its part of the subscription as it is asked.  Nothing is taken
back when a later extension misses a capability, or when the acknowledgement
finds the connection gone: such a request leaves every state as it was exactly
where the extensions it reached had nothing to record (`listen_atomic_iff`).
-/

namespace TurboMcp.System

open TurboMcp.Core TurboMcp.Lib TurboMcp.Server TurboMcp.ExtTasks

variable {N S : Type}

/-! ## Extensions with their subscriptions -/

/-- What a listen request comes to the extensions with. -/
structure Offer where
  connection : String
  id : RequestId
  notifications : Value
  context : RequestContext

/-- An extension, with the state its subscriptions live in. -/
structure Subscribing (S : Type) where
  extension : Extension
  onSubscribe : S → String → RequestId → Value → Bool → S × SubscribeOutcome
  state : S

namespace Subscribing

/-- `on_subscribe`, for an offer. -/
def respond (e : Subscribing S) (o : Offer) : S × SubscribeOutcome :=
  e.onSubscribe e.state o.connection o.id o.notifications
    (contextDeclaresExtension o.context e.extension.id)

/-- The extension once it has been asked. -/
def asked (e : Subscribing S) (o : Offer) : Subscribing S := { e with state := (e.respond o).1 }

/-- The client did not declare it. -/
def misses (e : Subscribing S) (o : Offer) : Bool :=
  match (e.respond o).2 with
  | .missingCapability => true
  | _ => false

/-- Asking it changes its state. -/
def Records (e : Subscribing S) (o : Offer) : Prop := (e.respond o).1 ≠ e.state

/-- The extensions an offer gets to: none after the first that misses a
capability. -/
def reached (o : Offer) : List (Subscribing S) → List (Subscribing S)
  | [] => []
  | e :: es => if e.misses o then [e] else e :: reached o es

/-- The states in which an offer leaves the extensions. -/
def statesAfter (o : Offer) : List (Subscribing S) → List S
  | [] => []
  | e :: es =>
      (e.respond o).1 :: if e.misses o then es.map (·.state) else statesAfter o es

theorem statesAfter_eq_iff (o : Offer) (es : List (Subscribing S)) :
    statesAfter o es = es.map (·.state) ↔ ∀ e ∈ reached o es, ¬ e.Records o := by
  induction es with
  | nil => simp [statesAfter, reached]
  | cons e es ih =>
      rw [statesAfter, List.map_cons, List.cons.injEq]
      by_cases he : e.misses o = true
      · rw [reached, if_pos he, if_pos he]
        simp [Records]
      · rw [reached, if_neg he, if_neg he, ih]
        simp [Records]

end Subscribing

/-! ## Running the request -/

/-- What `handle_subscriptions_listen` can change: the registry, and the
extensions, of which it has asked some. -/
structure ListenState (S : Type) where
  subscriptions : Dict SubscriptionKey SubscriptionFilter
  asked : List (Subscribing S)
  waiting : List (Subscribing S)

/-- The extensions' subscription states. -/
def ListenState.states (s : ListenState S) : List S := (s.asked ++ s.waiting).map (·.state)

/-- What it only consults. -/
structure ListenContext (N : Type) where
  /-- The connections with a writer. -/
  writers : String → Bool
  /-- Those whose writer finds nobody at the other end. -/
  closed : String → Bool
  others : (e : Effect) → Answer N e

/-- One effect of the request. -/
def ListenState.perform (c : ListenContext N) (s : ListenState S) :
    (e : Effect) → Answer N e × ListenState S
  | .writer connection => (c.writers connection, s)
  | .send connection _ => (!c.closed connection, s)
  | .subscriptionInsert connection id agreed =>
      ((), { s with subscriptions := s.subscriptions.insert (connection, id) agreed })
  | .subscriptionRemove connection id =>
      ((s.subscriptions.get (connection, id)).isSome,
        { s with subscriptions := s.subscriptions.remove (connection, id) })
  | .onSubscribe ext connection id notifications declared =>
      match s.waiting with
      | [] => (c.others (.onSubscribe ext connection id notifications declared), s)
      | e :: waiting =>
          let (state, outcome) := e.onSubscribe e.state connection id notifications declared
          (outcome, { s with asked := s.asked ++ [{ e with state }], waiting })
  | e => (c.others e, s)

/-- `handle_subscriptions_listen` of a server with extensions `es`. -/
def listen (c : ListenContext N) (d : VersionDispatcher N) (es : List (Subscribing S))
    (subscriptions : Dict SubscriptionKey SubscriptionFilter) (req : JsonRpcRequest) :
    Option JsonRpcMessage × ListenState S :=
  (handleSubscriptionsListen { d with extensions := es.map (·.extension) } req).exec
    (ListenState.perform c) ⟨subscriptions, [], es⟩

/-! ### The offers -/

theorem exec_offerSubscription_cons (c : ListenContext N) (o : Offer) (ack : Map)
    (subscriptions : Dict SubscriptionKey SubscriptionFilter) (done : List (Subscribing S))
    (e : Subscribing S) (es : List (Subscribing S)) :
    (offerSubscription o.connection o.id o.notifications o.context
      ((e :: es).map (·.extension)) ack).exec (ListenState.perform c)
        ⟨subscriptions, done, e :: es⟩ =
      match (e.respond o).2 with
      | .missingCapability =>
          (.error e.extension.id, ⟨subscriptions, done ++ [e.asked o], es⟩)
      | .notApplicable =>
          (offerSubscription o.connection o.id o.notifications o.context
            (es.map (·.extension)) ack).exec (ListenState.perform c)
              ⟨subscriptions, done ++ [e.asked o], es⟩
      | .subscribed contribution =>
          (offerSubscription o.connection o.id o.notifications o.context
            (es.map (·.extension))
            ((contribution.asObject.getD Map.empty).foldl (fun m e => Map.insert m e.1 e.2)
              ack)).exec (ListenState.perform c) ⟨subscriptions, done ++ [e.asked o], es⟩ := by
  have hask (k : SubscribeOutcome → Dispatch N (Except String Map)) :
      (Dispatch.onSubscribe e.extension.id o.connection o.id o.notifications
        (contextDeclaresExtension o.context e.extension.id) >>= k).exec (ListenState.perform c)
          ⟨subscriptions, done, e :: es⟩ =
        (k (e.respond o).2).exec (ListenState.perform c)
          ⟨subscriptions, done ++ [e.asked o], es⟩ := rfl
  rw [List.map_cons, offerSubscription, hask]
  cases (e.respond o).2 <;> rfl

/-- **The offers**: they leave the extensions as `statesAfter` says, and fail
where one of them misses a capability. -/
theorem exec_offerSubscription (c : ListenContext N) (o : Offer) (ack : Map)
    (subscriptions : Dict SubscriptionKey SubscriptionFilter) (done es : List (Subscribing S)) :
    let r := (offerSubscription o.connection o.id o.notifications o.context
      (es.map (·.extension)) ack).exec (ListenState.perform c) ⟨subscriptions, done, es⟩
    r.2.subscriptions = subscriptions ∧
      r.2.states = done.map (·.state) ++ Subscribing.statesAfter o es ∧
      if es.any (·.misses o) then ∃ ext, r.1 = .error ext else ∃ ack', r.1 = .ok ack' := by
  induction es generalizing ack done with
  | nil => simp [offerSubscription, ListenState.states, Subscribing.statesAfter]
  | cons e es ih =>
      have hstates : ((done ++ [e.asked o]).map (·.state) : List S) =
          done.map (·.state) ++ [(e.respond o).1] := by
        rw [List.map_append]
        rfl
      have hmisses : e.misses o = match (e.respond o).2 with
        | .missingCapability => true
        | _ => false := rfl
      rw [exec_offerSubscription_cons, List.any_cons, Subscribing.statesAfter, hmisses]
      cases (e.respond o).2 with
      | missingCapability =>
          refine ⟨rfl, ?_, _, rfl⟩
          show ((done ++ [e.asked o]) ++ es).map (·.state) = _
          rw [List.map_append, hstates, List.append_assoc]
          rfl
      | notApplicable =>
          have ih := ih ack (done ++ [e.asked o])
          rw [hstates, List.append_assoc] at ih
          exact ih
      | subscribed contribution =>
          have ih := ih ((contribution.asObject.getD Map.empty).foldl
            (fun m e => Map.insert m e.1 e.2) ack) (done ++ [e.asked o])
          rw [hstates, List.append_assoc] at ih
          exact ih

/-! ### The acknowledgement -/

theorem exec_acknowledge_of_closed {c : ListenContext N} {req : JsonRpcRequest}
    {conn : String} (h : c.closed conn = true) (agreed : SubscriptionFilter) (ack : Map)
    (s : ListenState S) :
    (acknowledge conn req agreed ack).exec (ListenState.perform c) s = ((), s) := by
  change Program.exec _ (if (!c.closed conn) = true then _ else _) s = _
  rw [h]
  rfl

theorem exec_listenWriter (c : ListenContext N) (req : JsonRpcRequest) (s : ListenState S) :
    (listenWriter req : Dispatch N Bool).exec (ListenState.perform c) s =
      (((connectionId req.params).map c.writers).getD false, s) := by
  unfold listenWriter
  cases connectionId req.params <;> rfl

/-! ## Failure -/

/-- The offer a request makes. -/
def offerOf (req : JsonRpcRequest) : Offer :=
  { connection := (connectionId req.params).getD ""
    id := req.id
    notifications := (req.params.bind (·.get "notifications")).getD .null
    context := buildContext req }

/-- The request gets as far as the extensions: it speaks a modern version, its
connection has a writer, and it asks for something. -/
def ReachesExtensions (c : ListenContext N) (d : VersionDispatcher N) (req : JsonRpcRequest) :
    Prop :=
  classifyVersion req.params d.supported = .modern ∧
    ((connectionId req.params).map c.writers).getD false = true ∧
    (req.params.bind d.wire.decodeListen).isSome = true

/-- A request that is answered, or whose acknowledgement cannot be sent, leaves
everything as it was. -/
def LeavesNothing (c : ListenContext N) (d : VersionDispatcher N) (es : List (Subscribing S))
    (subscriptions : Dict SubscriptionKey SubscriptionFilter) (req : JsonRpcRequest) : Prop :=
  let r := listen c d es subscriptions req
  (r.1 ≠ none ∨ c.closed (offerOf req).connection = true) →
    r.2.subscriptions = subscriptions ∧ r.2.states = es.map (·.state)

theorem listen_of_not_reaches {c : ListenContext N} {d : VersionDispatcher N}
    {req : JsonRpcRequest} (h : ¬ ReachesExtensions c d req) (es : List (Subscribing S))
    (subscriptions : Dict SubscriptionKey SubscriptionFilter) :
    (listen c d es subscriptions req).2 = ⟨subscriptions, [], es⟩ := by
  unfold listen handleSubscriptionsListen
  cases hversion : classifyVersion req.params d.supported with
  | legacy => rfl
  | unsupported requested => rfl
  | modern =>
      simp only
      rw [Program.exec_bind, exec_listenWriter]
      cases hwriter : ((connectionId req.params).map c.writers).getD false with
      | false => rfl
      | true =>
          cases hdecode : req.params.bind d.wire.decodeListen with
          | none => rfl
          | some wanted => exact absurd ⟨hversion, hwriter, by rw [hdecode]; rfl⟩ h

/-- A request that gets to the extensions: what they make of the offer, and
the acknowledgement if none of them objects. -/
theorem listen_of_reaches {c : ListenContext N} {d : VersionDispatcher N}
    {req : JsonRpcRequest} (h : ReachesExtensions c d req) (es : List (Subscribing S))
    (subscriptions : Dict SubscriptionKey SubscriptionFilter) :
    ∃ agreed : SubscriptionFilter,
      listen c d es subscriptions req =
        let r := (offerSubscription (offerOf req).connection (offerOf req).id
          (offerOf req).notifications (offerOf req).context (es.map (·.extension))
          agreed.toValue).exec (ListenState.perform c) ⟨subscriptions, [], es⟩
        match r.1 with
        | .error ext => (some (missingCapabilityResponse req.id ext), r.2)
        | .ok ack =>
            (none, ((acknowledge (offerOf req).connection req agreed ack).exec
              (ListenState.perform c) r.2).2) := by
  obtain ⟨hversion, hwriter, hdecode⟩ := h
  obtain ⟨wanted, hwanted⟩ := Option.isSome_iff_exists.mp hdecode
  refine ⟨agreedFilter d.router wanted, ?_⟩
  unfold listen handleSubscriptionsListen
  simp only [hversion]
  rw [Program.exec_bind, exec_listenWriter, hwriter, if_pos rfl]
  simp only [hwanted]
  rw [Program.exec_bind]
  simp only [offerOf]
  generalize Program.exec (ListenState.perform c) (offerSubscription _ _ _ _ _ _) _ = r
  obtain ⟨result, s⟩ := r
  cases result with
  | error ext => rfl
  | ok ack => rw [Program.exec_bind]; rfl

/-! ## The tasks extension -/

/-- The tasks extension, with its subscriptions. -/
def tasksExtension (extension : Extension) (subs : TaskSubscriptions) :
    Subscribing TaskSubscriptions :=
  { extension, onSubscribe, state := subs }

/-- It records a declared request for the status of a task that is not recorded
yet. -/
theorem records_tasksExtension_iff (extension : Extension) (subs : TaskSubscriptions)
    (o : Offer) :
    (tasksExtension extension subs).Records o ↔
      contextDeclaresExtension o.context extension.id = true ∧
        ∃ ids, taskIdsFilter o.notifications = some ids ∧
          ∃ taskId ∈ filterIds ids, ⟨o.connection, o.id⟩ ∉ subs.subscribers taskId := by
  unfold Subscribing.Records Subscribing.respond tasksExtension onSubscribe
  simp only
  cases taskIdsFilter o.notifications with
  | none => simp
  | some ids =>
      cases contextDeclaresExtension o.context extension.id with
      | false => simp
      | true =>
          show subs.subscribe ⟨o.connection, o.id⟩ (filterIds ids) ≠ subs ↔ _
          rw [Ne, TaskSubscriptions.subscribe_eq_self_iff]
          simp

/-! ## Atomicity -/

/-- A failed listen request leaves the registry and every extension as they were
exactly where the extensions it was offered to had nothing to record. -/
theorem leavesNothing_iff (c : ListenContext N) (d : VersionDispatcher N)
    (es : List (Subscribing S)) (subscriptions : Dict SubscriptionKey SubscriptionFilter)
    (req : JsonRpcRequest) :
    LeavesNothing c d es subscriptions req ↔
      (ReachesExtensions c d req →
        es.any (·.misses (offerOf req)) = true ∨ c.closed (offerOf req).connection = true →
        ∀ e ∈ Subscribing.reached (offerOf req) es, ¬ e.Records (offerOf req)) := by
  by_cases hreaches : ReachesExtensions c d req
  · rw [← Subscribing.statesAfter_eq_iff]
    obtain ⟨agreed, hlisten⟩ := listen_of_reaches hreaches es subscriptions
    obtain ⟨hregistry, hstates, hresult⟩ :=
      exec_offerSubscription c (offerOf req) agreed.toValue subscriptions [] es
    rw [List.map_nil, List.nil_append] at hstates
    unfold LeavesNothing
    rw [hlisten]
    cases hmiss : es.any (·.misses (offerOf req)) with
    | true =>
        rw [hmiss, if_pos rfl] at hresult
        obtain ⟨ext, hext⟩ := hresult
        simp only [hext, hregistry, hstates]
        simp [hreaches]
    | false =>
        rw [hmiss, if_neg Bool.false_ne_true] at hresult
        obtain ⟨ack, hack⟩ := hresult
        simp only [hack]
        constructor
        · rintro h - (hfail | hclosed)
          · cases hfail
          · have h := h (Or.inr hclosed)
            rw [exec_acknowledge_of_closed hclosed, hstates] at h
            exact h.2
        · rintro h (hanswer | hclosed)
          · exact absurd rfl hanswer
          · rw [exec_acknowledge_of_closed hclosed, hstates]
            exact ⟨hregistry, h hreaches (Or.inr hclosed)⟩
  · constructor
    · intro _ h
      exact absurd h hreaches
    · intro _ _
      rw [listen_of_not_reaches hreaches]
      exact ⟨rfl, rfl⟩

/-- **Atomicity**: a failed listen request leaves the registry and every
extension as they were exactly where the extensions it was offered to had
nothing to record; and the tasks extension has something to record of a client
that declares it and asks for a task it is not recorded for. -/
theorem listen_atomic_iff (c : ListenContext N) (d : VersionDispatcher N)
    (es : List (Subscribing S)) (subscriptions : Dict SubscriptionKey SubscriptionFilter)
    (req : JsonRpcRequest) :
    (LeavesNothing c d es subscriptions req ↔
      (ReachesExtensions c d req →
        es.any (·.misses (offerOf req)) = true ∨ c.closed (offerOf req).connection = true →
        ∀ e ∈ Subscribing.reached (offerOf req) es, ¬ e.Records (offerOf req))) ∧
    ∀ extension subs, (tasksExtension extension subs).Records (offerOf req) ↔
      contextDeclaresExtension (buildContext req) extension.id = true ∧
        ∃ ids, taskIdsFilter (offerOf req).notifications = some ids ∧
          ∃ taskId ∈ filterIds ids,
            ⟨(connectionId req.params).getD "", req.id⟩ ∉ subs.subscribers taskId := by
  constructor
  · exact leavesNothing_iff c d es subscriptions req
  · intro extension subs
    exact records_tasksExtension_iff extension subs (offerOf req)

/-! ## A client that declares one extension of two -/

/-- An extension with a filter of its own and no state. -/
def filterExtension (id key : String) : Subscribing TaskSubscriptions :=
  { extension := { id, settings := .null, methods := [], augmentsCalls := false }
    onSubscribe := fun s _ _ notifications declared =>
      (s, if (notifications.get key).isNone then .notApplicable
        else if declared then .subscribed (.object [])
        else .missingCapability)
    state := Dict.empty }

def attached (closed : Bool) : ListenContext Unit :=
  { writers := fun _ => true, closed := fun _ => closed, others := sessionsAnswer none }

/-- **Left behind**: a request for the status of a task and for the events of an
extension it does not declare is refused, and the tasks extension keeps its
part; so it does where the connection goes before the acknowledgement. -/
theorem listen_leaves_subscriber :
    ¬ LeavesNothing (attached false) taskServer
        [tasksExtension taskExtension Dict.empty, filterExtension "org.example/demo" "demoIds"]
        Dict.empty (listenCall "c" 7 ["t"] [("demoIds", .array [])]) ∧
      ¬ LeavesNothing (attached true) taskServer [tasksExtension taskExtension Dict.empty]
        Dict.empty (listenCall "c" 7 ["t"] []) := by
  have hstates {states states' : List TaskSubscriptions} (h : states = states') :
      states.map (·.subscribers "t") = states'.map (·.subscribers "t") := by
    rw [h]
  constructor
  · intro h
    have hafter := hstates (h (Or.inl (by decide +kernel))).2
    revert hafter
    decide +kernel
  · intro h
    have hafter := hstates (h (Or.inr rfl)).2
    revert hafter
    decide +kernel

end TurboMcp.System
