import TurboMcp.ExtTasks.Subs
import TurboMcp.Lib.Pool
import TurboMcp.Server.Inflight
import TurboMcp.Server.Session
import TurboMcp.Server.Subscriptions

/-!
# The server's critical sections

What the server's tasks share, and what each of them does to it between two
points where another task may get in: one lock held, one message enqueued, one
token read.  An effect of the dispatcher that takes one lock is one section;
`legacy_subscribe` and the cancellation of an in-flight request take two.

The clock, the iteration order of hash tables and every answer of a handler,
an extension or a store that is not modelled come from outside, as `Choice`.
-/

namespace TurboMcp.System

open TurboMcp.Core TurboMcp.Lib TurboMcp.Server TurboMcp.ExtTasks
open TurboMcp.Service

variable {N : Type}

/-! ## What is shared -/

/-- What happened, oldest first. -/
inductive Event
  /-- Thread `n` enqueued a message on a connection's writer. -/
  | sent (n : Nat) (connection : String) (message : JsonRpcMessage)
  /-- Thread `n` drained the subscription registry. -/
  | drained (n : Nat)
  /-- Thread `n` recorded a subscription. -/
  | inserted (n : Nat) (key : SubscriptionKey)
  /-- Thread `n` took a subscription's entry out, found or not. -/
  | removed (n : Nat) (key : SubscriptionKey)
  /-- A task came to a status. -/
  | status (taskId : String) (status : TaskStatus)
  deriving DecidableEq

structure Shared where
  sessions : SessionStore
  routes : LegacyRoutes
  /-- A thread panicked while it held the lock of `routes`. -/
  poisoned : Bool
  subscriptions : Subscriptions
  /-- The list-changed kinds whose flush is scheduled. -/
  pending : List ListChangedKind
  /-- The in-flight requests, each with the thread that handles it. -/
  inflight : Dict SubscriptionKey Nat
  /-- The threads whose cancellation token has fired. -/
  fired : List Nat
  writers : Outbound.Table Unit
  /-- The connections opened so far. -/
  connections : List String
  /-- The writers whose receiving end is gone. -/
  closed : List String
  tasks : DraftTaskStore
  /-- The task ids minted so far. -/
  minted : List String
  taskSubs : TaskSubscriptions
  log : List Event

def Shared.init (sessions : SessionStore) (taskCapacity : Nat) : Shared :=
  { sessions, routes := Dict.empty, poisoned := false, subscriptions := Dict.empty,
    pending := [], inflight := Dict.empty, fired := [], writers := Dict.empty,
    connections := [], closed := [], tasks := DraftTaskStore.withCapacity taskCapacity,
    minted := [], taskSubs := Dict.empty, log := [] }

/-! ## Sections -/

/-- One operation of the draft task store on a task. -/
inductive TaskOp
  | complete (taskId : String) (outcome : TaskOutcome)
  | get (taskId : String)
  | cancel (taskId : String)
  | publishInput (taskId key : String) (request : Value)
  | deliverInputs (taskId : String) (responses : Map)
  deriving DecidableEq

def TaskOp.Result : TaskOp → Type
  | .complete _ _ => Unit
  | .get _ => Option DetailedTask
  | .cancel _ => Bool
  | .publishInput _ _ _ => Option Channel
  | .deliverInputs _ _ => Option Bool

inductive Section
  | effect (e : Effect)
  -- sessions and legacy routes
  | sessionRemove (sid : String)
  | insertUri (sid uri : String)
  | legacyTargets (p : Publication)
  -- publishing
  | pendingSwap (kind : ListChangedKind)
  | pendingClear (kind : ListChangedKind)
  | targets (p : Publication)
  | drain
  -- in-flight requests
  | inflightToken (connection : String) (id : RequestId)
  | fireToken (token : Nat)
  -- tasks
  | createTask (ttlMs pollIntervalMs : Option Int)
  | task (op : TaskOp)
  | taskSubscribers (taskId : String)
  | dropConnection (connection : String)
  -- connections
  | connect
  | openStream (session : String)
  | dropWriter (connection : String)
  | closeReceiver (connection : String)

/-- What each section is answered with. -/
def Reply (N : Type) : Section → Type
  | .effect e => Answer N e
  | .legacyTargets _ => List (String × String)
  | .pendingSwap _ => Bool
  | .targets _ => List SubscriptionKey
  | .drain => List SubscriptionKey
  | .inflightToken _ _ => Option Nat
  | .createTask _ _ => Option Task
  | .task op => op.Result
  | .taskSubscribers _ => List Subscriber
  | .connect => String
  | _ => Unit

/-- A task of the server. -/
abbrev Proc (N : Type) := Program Section (Reply N)

/-- What is settled outside when a section runs. -/
structure Choice (N : Type) where
  now : Nat
  /-- The wall clock, for a task's timestamps. -/
  wall : Nat
  /-- The entry a hash table's iteration gives first, or what an id is minted from. -/
  pick : String
  answers : (e : Effect) → Answer N e

/-! ## Running a section -/

/-- `TasksExtension::on_subscribe`, with the subscriptions it records. -/
def onSubscribe (subs : TaskSubscriptions) (connection : String) (id : RequestId)
    (notifications : Value) (declared : Bool) : TaskSubscriptions × SubscribeOutcome :=
  match taskIdsFilter notifications with
  | none => (subs, .notApplicable)
  | some ids =>
      if declared then
        (subs.subscribe ⟨connection, id⟩ (filterIds ids),
          .subscribed (.object [("taskIds", .array ((filterIds ids).map .string))]))
      else (subs, .missingCapability)

/-- Run with the lock of the legacy routes: a poisoned one panics. -/
def withRoutes {A : Type} (s : Shared) (f : Outcome Shared A) : Outcome Shared A :=
  if s.poisoned then .panic s else f

/-- One effect of the dispatcher, performed by thread `n`. -/
def runEffect (n : Nat) (c : Choice N) (s : Shared) : (e : Effect) → Outcome Shared (Answer N e)
  | .sessionGet sid =>
      .answer (s.sessions.get c.now sid).2 { s with sessions := (s.sessions.get c.now sid).1 }
  | .sessionInsert sid state =>
      .answer () { s with sessions := s.sessions.insert c.now c.pick sid state }
  | .sessionSetLogLevel sid level =>
      .answer () { s with sessions := (s.sessions.setLogLevel c.now sid level).1 }
  | .sweepExpired =>
      .answer (s.sessions.sweepExpired c.now).2
        { s with sessions := (s.sessions.sweepExpired c.now).1 }
  | .legacyTouch sid connection =>
      withRoutes s (.answer () { s with routes := s.routes.legacyTouch c.pick sid connection })
  | .legacyRemove sid =>
      withRoutes s (.answer () { s with routes := s.routes.legacyRemove sid })
  | .legacyUnsubscribe sid uri =>
      withRoutes s (.answer () { s with routes := s.routes.legacyUnsubscribe sid uri })
  | .inflightRegister connection id =>
      .answer () { s with
        inflight := ((InFlightRegistry.mk s.inflight).register connection id n).1.map }
  | .inflightRelease connection id =>
      .answer () { s with inflight := (InFlightGuard.drop ⟨(connection, id)⟩ ⟨s.inflight⟩).map }
  | .isCancelled _ _ => .answer (s.fired.contains n) s
  | .subscriptionInsert connection id agreed =>
      .answer ()
        { s with
          subscriptions := s.subscriptions.insert (connection, id) agreed
          log := s.log ++ [.inserted n (connection, id)] }
  | .subscriptionRemove connection id =>
      .answer (s.subscriptions.get (connection, id)).isSome
        { s with
          subscriptions := s.subscriptions.remove (connection, id)
          log := s.log ++ [.removed n (connection, id)] }
  | .writer connection => .answer (Outbound.writer s.writers connection).isSome s
  | .send connection message =>
      if connection ∈ s.closed then .answer false s
      else .answer true { s with log := s.log ++ [.sent n connection message] }
  | .onSubscribe ext connection id notifications declared =>
      if ext = extensionId then
        let (subs, outcome) := onSubscribe s.taskSubs connection id notifications declared
        .answer outcome { s with taskSubs := subs }
      else .answer (c.answers (.onSubscribe ext connection id notifications declared)) s
  | e => .answer (c.answers e) s

/-- The statuses a store operation brings tasks to. -/
def statusEvent (before after : DraftTaskStore) (taskId : String) : List Event :=
  match after.inner.get taskId with
  | none => []
  | some entry =>
      if (before.inner.get taskId).map (·.status) = some entry.status then []
      else [.status taskId entry.status]

def TaskOp.taskId : TaskOp → String
  | .complete taskId _ | .get taskId | .cancel taskId | .publishInput taskId _ _
  | .deliverInputs taskId _ => taskId

/-- One operation of the task store. The channel of an input request is named
after the thread that awaits it. -/
def TaskOp.run (n : Nat) (c : Choice N) (st : DraftTaskStore) :
    (op : TaskOp) → DraftTaskStore × op.Result
  | .complete taskId outcome => (st.complete c.wall taskId outcome, ())
  | .get taskId => st.get c.now taskId
  | .cancel taskId => st.cancel c.now c.wall taskId
  | .publishInput taskId key request => st.publishInput c.now c.wall taskId key request n
  | .deliverInputs taskId responses => st.deliverInputs c.now c.wall taskId responses

/-- One section, run by thread `n`. -/
def runSection (n : Nat) (c : Choice N) (s : Shared) :
    (a : Section) → Outcome Shared (Reply N a)
  | .effect e => runEffect n c s e
  | .sessionRemove sid =>
      .answer () { s with sessions := (s.sessions.remove sid).1 }
  | .insertUri sid uri =>
      withRoutes s
        (match s.routes.insertUri sid uri with
          | some routes => .answer () { s with routes }
          -- `expect("touched above")`, with the lock held
          | none => .panic { s with poisoned := true })
  | .legacyTargets p => withRoutes s (.answer (s.routes.targets p) s)
  | .pendingSwap kind =>
      .answer (s.pending.contains kind) { s with pending := s.pending.insert kind }
  | .pendingClear kind => .answer () { s with pending := s.pending.erase kind }
  | .targets p => .answer (s.subscriptions.targets p) s
  | .drain =>
      .answer s.subscriptions.drain.2
        { s with subscriptions := s.subscriptions.drain.1, log := s.log ++ [.drained n] }
  | .inflightToken connection id => .answer (s.inflight.get (connection, id)) s
  | .fireToken token => .answer () { s with fired := s.fired.insert token }
  | .createTask ttl poll =>
      let taskId := uniquify s.minted c.pick
      let (tasks, task) := s.tasks.create c.now c.wall taskId ttl poll n
      .answer task
        { s with
          tasks
          minted := taskId :: s.minted
          log := s.log ++ statusEvent s.tasks tasks taskId }
  | .task op =>
      .answer (op.run n c s.tasks).2
        { s with
          tasks := (op.run n c s.tasks).1
          log := s.log ++ statusEvent s.tasks (op.run n c s.tasks).1 op.taskId }
  | .taskSubscribers taskId => .answer (s.taskSubs.subscribers taskId) s
  | .dropConnection connection =>
      .answer () { s with taskSubs := s.taskSubs.dropConnection connection }
  | .connect =>
      let connection := uniquify s.connections c.pick
      .answer connection
        { s with
          writers := (Outbound.register s.writers connection ()).1
          connections := connection :: s.connections }
  | .openStream session =>
      let stream := Outbound.sessionStreamId session
      if stream ∈ s.connections then .answer () s
      else
        .answer ()
          { s with
            writers := (Outbound.register s.writers stream ()).1
            closed := s.closed.filter (· ≠ stream) }
  | .dropWriter connection =>
      .answer () { s with writers := Outbound.WriterGuard.drop ⟨connection⟩ s.writers }
  | .closeReceiver connection =>
      .answer () { s with closed := s.closed.insert connection }

/-! ## What a section can do

Each part of what is shared, once a section has been answered. -/

namespace Section

def sessionsAfter (c : Choice N) (s : Shared) : Section → SessionStore
  | .effect (.sessionGet sid) => (s.sessions.get c.now sid).1
  | .effect (.sessionInsert sid state) => s.sessions.insert c.now c.pick sid state
  | .effect (.sessionSetLogLevel sid level) => (s.sessions.setLogLevel c.now sid level).1
  | .effect .sweepExpired => (s.sessions.sweepExpired c.now).1
  | .sessionRemove sid => (s.sessions.remove sid).1
  | _ => s.sessions

def routesAfter (c : Choice N) (s : Shared) : Section → LegacyRoutes
  | .effect (.legacyTouch sid connection) => s.routes.legacyTouch c.pick sid connection
  | .effect (.legacyRemove sid) => s.routes.legacyRemove sid
  | .effect (.legacyUnsubscribe sid uri) => s.routes.legacyUnsubscribe sid uri
  | .insertUri sid uri => (s.routes.insertUri sid uri).getD s.routes
  | _ => s.routes

def subscriptionsAfter (s : Shared) : Section → Subscriptions
  | .effect (.subscriptionInsert connection id agreed) =>
      s.subscriptions.insert (connection, id) agreed
  | .effect (.subscriptionRemove connection id) => s.subscriptions.remove (connection, id)
  | .drain => s.subscriptions.drain.1
  | _ => s.subscriptions

def inflightAfter (n : Nat) (s : Shared) : Section → Dict SubscriptionKey Nat
  | .effect (.inflightRegister connection id) => s.inflight.insert (connection, id) n
  | .effect (.inflightRelease connection id) => s.inflight.remove (connection, id)
  | _ => s.inflight

def firedAfter (s : Shared) : Section → List Nat
  | .fireToken token => s.fired.insert token
  | _ => s.fired

def writersAfter (c : Choice N) (s : Shared) : Section → Outbound.Table Unit
  | .connect => (Outbound.register s.writers (uniquify s.connections c.pick) ()).1
  | .openStream session =>
      if Outbound.sessionStreamId session ∈ s.connections then s.writers
      else (Outbound.register s.writers (Outbound.sessionStreamId session) ()).1
  | .dropWriter connection => Outbound.WriterGuard.drop ⟨connection⟩ s.writers
  | _ => s.writers

def closedAfter (s : Shared) : Section → List String
  | .openStream session =>
      if Outbound.sessionStreamId session ∈ s.connections then s.closed
      else s.closed.filter (· ≠ Outbound.sessionStreamId session)
  | .closeReceiver connection => s.closed.insert connection
  | _ => s.closed

def tasksAfter (n : Nat) (c : Choice N) (s : Shared) : Section → DraftTaskStore
  | .createTask ttl poll =>
      (s.tasks.create c.now c.wall (uniquify s.minted c.pick) ttl poll n).1
  | .task op => (op.run n c s.tasks).1
  | _ => s.tasks

def mintedAfter (c : Choice N) (s : Shared) : Section → List String
  | .createTask _ _ => uniquify s.minted c.pick :: s.minted
  | _ => s.minted

def taskSubsAfter (s : Shared) : Section → TaskSubscriptions
  | .effect (.onSubscribe ext connection id notifications declared) =>
      if ext = extensionId then (onSubscribe s.taskSubs connection id notifications declared).1
      else s.taskSubs
  | .dropConnection connection => s.taskSubs.dropConnection connection
  | _ => s.taskSubs

def events (n : Nat) (c : Choice N) (s : Shared) : Section → List Event
  | .effect (.subscriptionInsert connection id _) => [.inserted n (connection, id)]
  | .effect (.subscriptionRemove connection id) => [.removed n (connection, id)]
  | .effect (.send connection message) =>
      if connection ∈ s.closed then [] else [.sent n connection message]
  | .drain => [.drained n]
  | .createTask ttl poll =>
      statusEvent s.tasks (tasksAfter n c s (.createTask ttl poll)) (uniquify s.minted c.pick)
  | .task op => statusEvent s.tasks (op.run n c s.tasks).1 op.taskId
  | _ => []

/-- Whether the section takes the lock of the routes. -/
def onRoutes : Section → Bool
  | .effect (.legacyTouch _ _) | .effect (.legacyRemove _) | .effect (.legacyUnsubscribe _ _)
  | .insertUri _ _ | .legacyTargets _ => true
  | _ => false

end Section

/-- An answered section has changed each part as its function says. -/
structure Ran (n : Nat) (c : Choice N) (s s' : Shared) (a : Section) : Prop where
  sessions : s'.sessions = a.sessionsAfter c s
  routes : s'.routes = a.routesAfter c s
  poisoned : s'.poisoned = s.poisoned
  subscriptions : s'.subscriptions = a.subscriptionsAfter s
  inflight : s'.inflight = a.inflightAfter n s
  fired : s'.fired = a.firedAfter s
  writers : s'.writers = a.writersAfter c s
  closed : s'.closed = a.closedAfter s
  tasks : s'.tasks = a.tasksAfter n c s
  minted : s'.minted = a.mintedAfter c s
  taskSubs : s'.taskSubs = a.taskSubsAfter s
  log : s'.log = s.log ++ a.events n c s

theorem withRoutes_eq_answer {A : Type} {s s' : Shared} {f : Outcome Shared A} {r : A}
    (h : withRoutes s f = .answer r s') : s.poisoned = false ∧ f = .answer r s' := by
  unfold withRoutes at h
  split at h
  · cases h
  · rename_i hpoisoned
    exact ⟨Bool.eq_false_iff.mpr hpoisoned, h⟩

/-- **Inversion**: the one case analysis over sections. -/
theorem ran_of_answer {n : Nat} {c : Choice N} {s s' : Shared} {a : Section} {r : Reply N a}
    (h : runSection n c s a = .answer r s') : Ran n c s s' a := by
  have hlog : s.log = s.log ++ [] := (List.append_nil _).symm
  cases a
  case effect e =>
    cases e
    case legacyTouch | legacyRemove | legacyUnsubscribe =>
      obtain ⟨-, h⟩ := withRoutes_eq_answer h
      cases h
      exact ⟨rfl, rfl, rfl, rfl, rfl, rfl, rfl, rfl, rfl, rfl, rfl, hlog⟩
    case subscriptionInsert | subscriptionRemove =>
      cases h
      exact ⟨rfl, rfl, rfl, rfl, rfl, rfl, rfl, rfl, rfl, rfl, rfl, rfl⟩
    case send connection message =>
      simp only [runSection, runEffect] at h
      split at h
      · rename_i hclosed
        cases h
        refine ⟨rfl, rfl, rfl, rfl, rfl, rfl, rfl, rfl, rfl, rfl, rfl, ?_⟩
        simp [Section.events, hclosed]
      · rename_i hclosed
        cases h
        refine ⟨rfl, rfl, rfl, rfl, rfl, rfl, rfl, rfl, rfl, rfl, rfl, ?_⟩
        simp [Section.events, hclosed]
    case onSubscribe ext connection id notifications declared =>
      simp only [runSection, runEffect] at h
      split at h
      · rename_i hext
        cases h
        refine ⟨rfl, rfl, rfl, rfl, rfl, rfl, rfl, rfl, rfl, rfl, ?_, hlog⟩
        simp [Section.taskSubsAfter, hext]
      · rename_i hext
        cases h
        refine ⟨rfl, rfl, rfl, rfl, rfl, rfl, rfl, rfl, rfl, rfl, ?_, hlog⟩
        simp [Section.taskSubsAfter, hext]
    all_goals
      cases h
      exact ⟨rfl, rfl, rfl, rfl, rfl, rfl, rfl, rfl, rfl, rfl, rfl, hlog⟩
  case insertUri sid uri =>
    obtain ⟨-, h⟩ := withRoutes_eq_answer h
    split at h
    · rename_i routes hroutes
      cases h
      refine ⟨rfl, ?_, rfl, rfl, rfl, rfl, rfl, rfl, rfl, rfl, rfl, hlog⟩
      simp [Section.routesAfter, hroutes]
    · cases h
  case legacyTargets p =>
    obtain ⟨-, h⟩ := withRoutes_eq_answer h
    cases h
    exact ⟨rfl, rfl, rfl, rfl, rfl, rfl, rfl, rfl, rfl, rfl, rfl, hlog⟩
  case openStream session =>
    simp only [runSection] at h
    split at h
    · rename_i hconn
      cases h
      refine ⟨rfl, rfl, rfl, rfl, rfl, rfl, ?_, ?_, rfl, rfl, rfl, hlog⟩
      · simp [Section.writersAfter, hconn]
      · simp [Section.closedAfter, hconn]
    · rename_i hconn
      cases h
      refine ⟨rfl, rfl, rfl, rfl, rfl, rfl, ?_, ?_, rfl, rfl, rfl, hlog⟩
      · simp [Section.writersAfter, hconn]
      · simp [Section.closedAfter, hconn]
  case drain | createTask | task =>
    cases h
    exact ⟨rfl, rfl, rfl, rfl, rfl, rfl, rfl, rfl, rfl, rfl, rfl, rfl⟩
  all_goals
    cases h
    exact ⟨rfl, rfl, rfl, rfl, rfl, rfl, rfl, rfl, rfl, rfl, rfl, hlog⟩

/-- A fired token stays fired. -/
theorem fired_mono {n : Nat} {c : Choice N} {s s' : Shared} {a : Section} {r : Reply N a}
    (h : runSection n c s a = .answer r s') {t : Nat} (ht : t ∈ s.fired) : t ∈ s'.fired := by
  rw [(ran_of_answer h).fired]
  unfold Section.firedAfter
  split
  · exact List.mem_insert_of_mem ht
  · exact ht

/-- **Inversion**: a section panics that takes a poisoned lock, or that finds no
route; only the latter changes anything. -/
theorem panicked {n : Nat} {c : Choice N} {s s' : Shared} {a : Section}
    (h : runSection n c s a = .panic s') :
    (s.poisoned = true ∧ a.onRoutes = true ∧ s' = s) ∨
      s.poisoned = false ∧ (∃ sid uri, a = .insertUri sid uri ∧ sid ∉ s.routes.keys) ∧
        s' = { s with poisoned := true } := by
  have hroutes {A : Type} {f : Outcome Shared A} (h : withRoutes s f = .panic s')
      (ha : a.onRoutes = true) : (s.poisoned = true ∧ a.onRoutes = true ∧ s' = s) ∨
        s.poisoned = false ∧ f = .panic s' := by
    unfold withRoutes at h
    split at h
    · rename_i hpoisoned
      cases h
      exact Or.inl ⟨hpoisoned, ha, rfl⟩
    · rename_i hpoisoned
      exact Or.inr ⟨Bool.eq_false_iff.mpr hpoisoned, h⟩
  cases a
  case effect e =>
    cases e
    case legacyTouch | legacyRemove | legacyUnsubscribe =>
      rcases hroutes h rfl with h | ⟨-, h⟩
      · exact Or.inl h
      · cases h
    case send | onSubscribe =>
      simp only [runSection, runEffect] at h
      split at h <;> cases h
    all_goals cases h
  case insertUri sid uri =>
    rcases hroutes h rfl with h | ⟨hsound, h⟩
    · exact Or.inl h
    · split at h
      · cases h
      · rename_i hnone
        cases h
        refine Or.inr ⟨hsound, ⟨sid, uri, rfl, ?_⟩, rfl⟩
        rw [← LegacyRoutes.insertUri_isSome s.routes sid uri, hnone]
        exact Bool.false_ne_true
  case legacyTargets p =>
    rcases hroutes h rfl with h | ⟨-, h⟩
    · exact Or.inl h
    · cases h
  case openStream session =>
    simp only [runSection] at h
    split at h <;> cases h
  all_goals cases h

/-- A panic changes nothing but the lock. -/
theorem eq_of_panic {n : Nat} {c : Choice N} {s s' : Shared} {a : Section}
    (h : runSection n c s a = .panic s') : s' = { s with poisoned := s'.poisoned } := by
  rcases panicked h with ⟨-, -, rfl⟩ | ⟨-, -, rfl⟩
  · rfl
  · rfl

end TurboMcp.System
