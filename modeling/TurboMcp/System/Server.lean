import TurboMcp.Lib.Protocol
import TurboMcp.Server.Serve
import TurboMcp.System.Negotiation
import TurboMcp.System.Sections

/-!
# The server as a pool of tasks

Every frame, every event the server publishes, every step of a task's life and
every connection that comes or goes is a task of its own, and the tasks' critical
sections run in any order.  A request runs the dispatcher's own program, with
the effects that take more than one section written out.
-/

namespace TurboMcp.System

open TurboMcp.Core TurboMcp.Lib TurboMcp.Server TurboMcp.ExtTasks TurboMcp.Service

variable {N : Type}

namespace Proc

def perform (a : Section) : Proc N (Reply N a) := Program.perform a

def effect (e : Effect) : Proc N (Answer N e) := perform (.effect e)

/-- Run a section for what it does. -/
def tell (a : Section) : Proc N Unit := Program.call a fun _ => Program.ret ()

def writer (connection : String) : Proc N Bool := effect (.writer connection)

def send (connection : String) (message : JsonRpcMessage) : Proc N Bool :=
  effect (.send connection message)

def targets (p : Publication) : Proc N (List SubscriptionKey) := perform (.targets p)

def legacyTargets (p : Publication) : Proc N (List (String × String)) :=
  perform (.legacyTargets p)

def pendingSwap (kind : ListChangedKind) : Proc N Bool := perform (.pendingSwap kind)

def drain : Proc N (List SubscriptionKey) := perform .drain

def inflightToken (connection : String) (id : RequestId) : Proc N (Option Nat) :=
  perform (.inflightToken connection id)

def taskSubscribers (taskId : String) : Proc N (List Subscriber) :=
  perform (.taskSubscribers taskId)

def getTask (taskId : String) : Proc N (Option DetailedTask) := perform (.task (.get taskId))

def publishInput (taskId key : String) (request : Value) : Proc N (Option Channel) :=
  perform (.task (.publishInput taskId key request))

def markCancelled (taskId : String) : Proc N Bool := perform (.task (.cancel taskId))

def deliverInputs (taskId : String) (responses : Map) : Proc N (Option Bool) :=
  perform (.task (.deliverInputs taskId responses))

/-! ## Delivering -/

/-- Look the writer up and send on it; `false` where there is none or its
receiving end is gone. -/
def sendTo (connection : String) (message : JsonRpcMessage) : Proc N Bool := do
  let live ← writer connection
  if live then send connection message else pure false

/-- Send every target its message; `gone` cleans up after one that is gone. -/
def sendEach {T : Type} (connection : T → String) (message : T → JsonRpcMessage)
    (gone : T → Proc N Unit) : List T → Proc N Unit
  | [] => pure ()
  | t :: targets => do
      let sent ← sendTo (connection t) (message t)
      if sent then sendEach connection message gone targets
      else do
        gone t
        sendEach connection message gone targets

/-- A delivery keeps to a protocol when each of its sends does. -/
theorem follows_sendEach {K T : Type} {π : Protocol Section (Reply N) K}
    {connection : T → String} {message : T → JsonRpcMessage} {gone : T → Proc N Unit}
    {ts : List T} {I : List T → K → Prop}
    (hsend : ∀ t ts q, I (t :: ts) q →
      Program.Follows π q (sendTo (connection t) (message t))
        fun q sent => if sent then I ts q else Program.Follows π q (gone t) fun q _ => I ts q)
    {q : K} (hq : I ts q) :
    Program.Follows π q (sendEach connection message gone ts) fun q _ => I [] q := by
  induction ts generalizing q with
  | nil => exact hq
  | cons t ts ih =>
      refine (hsend t ts q hq).seq fun q sent h => ?_
      cases sent with
      | true => exact ih h
      | false => exact Program.Follows.seq h fun q _ hI => ih hI

/-- `SubscriptionRegistry::remove`. -/
def unsubscribe (key : SubscriptionKey) : Proc N Unit :=
  tell (.effect (.subscriptionRemove key.1 key.2))

/-- `SubscriptionRegistry::publish`: subscriptions whose connection is gone are
pruned. -/
def publish (p : Publication) : Proc N Unit := do
  let keys ← targets p
  sendEach Prod.fst (fun key => p.notification key.2) unsubscribe keys

/-- `legacy_writer`: the session's `GET` stream, else its connection. -/
def legacyWriter (session connection : String) : Proc N (Option String) := do
  let stream ← writer (Outbound.sessionStreamId session)
  if stream then pure (some (Outbound.sessionStreamId session))
  else if connection = "" then pure none
  else do
    let live ← writer connection
    pure (if live then some connection else none)

def sendLegacy (message : JsonRpcMessage) : List (String × String) → Proc N Unit
  | [] => pure ()
  | (session, connection) :: targets => do
      let writer ← legacyWriter session connection
      match writer with
      | none => sendLegacy message targets
      | some writer => do
          tell (.effect (.send writer message))
          sendLegacy message targets

/-- `SubscriptionRegistry::publish_legacy`. -/
def publishLegacy (p : Publication) : Proc N Unit := do
  let routes ← legacyTargets p
  sendLegacy p.legacyNotification routes

/-- `publish_resource_updated`, and what a flush sends. -/
def publishAll (p : Publication) : Proc N Unit := do
  publish p
  publishLegacy p

/-- `schedule_list_changed`, up to the end of the flush it schedules. -/
def scheduleListChanged (kind : ListChangedKind) : Proc N Unit := do
  let scheduled ← pendingSwap kind
  if scheduled then pure ()
  else do
    tell (.pendingClear kind)
    publishAll (.listChanged kind)

/-- `SubscriptionRegistry::close_all`. -/
def closeAll : Proc N Unit := do
  let keys ← drain
  sendEach Prod.fst (fun key => closeResponse key.2) (fun _ => pure ()) keys

/-! ### What a delivery performs -/

section

variable {C : Section → Prop} {A : (a : Section) → Reply N a → Prop}

theorem wp_sendTo {connection : String} {message : JsonRpcMessage}
    (hwriter : C (.effect (.writer connection)))
    (hsend : C (.effect (.send connection message))) :
    Program.wp C A (sendTo (N := N) connection message) fun _ => True := by
  refine ⟨hwriter, fun (live : Bool) _ => ?_⟩
  cases live with
  | true => exact ⟨hsend, fun _ _ => trivial⟩
  | false => trivial

theorem wp_sendEach {T : Type} {connection : T → String} {message : T → JsonRpcMessage}
    {gone : T → Proc N Unit} (ts : List T)
    (hwriter : ∀ t, C (.effect (.writer (connection t))))
    (hsend : ∀ t, C (.effect (.send (connection t) (message t))))
    (hgone : ∀ t, Program.wp C A (gone t) fun _ => True) :
    Program.wp C A (sendEach connection message gone ts) fun _ => True := by
  induction ts with
  | nil => trivial
  | cons t ts ih =>
      refine Program.wp_seq (wp_sendTo (hwriter t) (hsend t)) fun sent _ => ?_
      cases sent with
      | true => exact ih
      | false => exact Program.wp_seq (hgone t) fun _ _ => ih

theorem wp_publish {p : Publication} (htargets : C (.targets p))
    (hwriter : ∀ connection, C (.effect (.writer connection)))
    (hsend : ∀ connection id, C (.effect (.send connection (p.notification id))))
    (hremove : ∀ connection id, C (.effect (.subscriptionRemove connection id))) :
    Program.wp C A (publish (N := N) p) fun _ => True := by
  refine ⟨htargets, fun keys _ => wp_sendEach _ (fun _ => hwriter _) (fun _ => hsend _ _) ?_⟩
  exact fun key => ⟨hremove key.1 key.2, fun _ _ => trivial⟩

theorem wp_legacyWriter (hwriter : ∀ connection, C (.effect (.writer connection)))
    (session connection : String) :
    Program.wp C A (legacyWriter (N := N) session connection) fun _ => True := by
  refine ⟨hwriter _, fun (stream : Bool) _ => ?_⟩
  cases stream with
  | true => trivial
  | false =>
      show Program.wp _ _ (if connection = "" then _ else _) _
      split
      · trivial
      · exact ⟨hwriter _, fun _ _ => trivial⟩

theorem wp_publishLegacy {p : Publication} (htargets : C (.legacyTargets p))
    (hwriter : ∀ connection, C (.effect (.writer connection)))
    (hsend : ∀ connection, C (.effect (.send connection p.legacyNotification))) :
    Program.wp C A (publishLegacy (N := N) p) fun _ => True := by
  have hloop (routes : List (String × String)) :
      Program.wp C A (sendLegacy (N := N) p.legacyNotification routes) fun _ => True := by
    induction routes with
    | nil => trivial
    | cons route routes ih =>
        refine Program.wp_seq (wp_legacyWriter hwriter route.1 route.2) fun writer _ => ?_
        cases writer with
        | none => exact ih
        | some writer => exact ⟨hsend writer, fun _ _ => ih⟩
  exact ⟨htargets, fun routes _ => hloop routes⟩

end

/-! ## Sessions -/

/-- `legacy_subscribe`: two acquisitions of the same lock. -/
def legacySubscribe (session : String) (connection : Option String) (uri : String) :
    Proc N Unit := do
  tell (.effect (.legacyTouch session connection))
  tell (.insertUri session uri)

/-- `terminate_session`. -/
def terminateSession (session : String) : Proc N Unit := do
  tell (.sessionRemove session)
  tell (.effect (.legacyRemove session))

/-! ## In-flight requests -/

/-- `InFlightRegistry::cancel`: the token is fired after the lock is released. -/
def cancelInflight (connection : String) (id : RequestId) : Proc N Bool := do
  let found ← inflightToken connection id
  match found with
  | none => pure false
  | some token => do
      tell (.fireToken token)
      pure true

/-- The dispatcher's effects, section by section. -/
def sections : (e : Effect) → Proc N (Answer N e)
  | .legacySubscribe session connection uri => legacySubscribe session connection uri
  | .inflightCancel connection id => cancelInflight connection id
  | e => effect e

/-! ## Tasks -/

/-- `stamp_subscription_id`. -/
def stampSubscriptionId (params : Map) (id : RequestId) : Map :=
  match Map.get params "_meta" with
  | some (.object m) =>
      Map.insert params "_meta"
        (.object (Map.insert m Meta.keys.subscriptionId (subscriptionIdValue id)))
  | some _ => params
  | none =>
      Map.insert params "_meta"
        (.object [(Meta.keys.subscriptionId, subscriptionIdValue id)])

/-- A task's status, as one subscriber gets it. -/
def statusNotification (rfc3339 : Nat → String) (detailed : DetailedTask) (s : Subscriber) :
    JsonRpcMessage :=
  .notification
    { method := notificationsTasks
      params := some (.object
        (stampSubscriptionId (notificationParams rfc3339 detailed) s.subscriptionId)) }

/-- `push_status`: the subscribers, then the task, then one send after another. -/
def pushStatus (rfc3339 : Nat → String) (taskId : String) : Proc N Unit := do
  let subscribers ← taskSubscribers taskId
  if subscribers.isEmpty then pure ()
  else do
    let detailed ← getTask taskId
    match detailed with
    | none => pure ()
    | some detailed =>
        sendEach Subscriber.connection (statusNotification rfc3339 detailed)
          (fun s => tell (.dropConnection s.connection)) subscribers

theorem wp_pushStatus {C : Section → Prop} {A : (a : Section) → Reply N a → Prop}
    {rfc3339 : Nat → String} {taskId : String} (hsubscribers : C (.taskSubscribers taskId))
    (htask : C (.task (.get taskId)))
    (hwriter : ∀ connection, C (.effect (.writer connection)))
    (hsend : ∀ detailed s, C (.effect (.send (Subscriber.connection s)
      (statusNotification rfc3339 detailed s))))
    (hdrop : ∀ connection, C (.dropConnection connection)) :
    Program.wp C A (pushStatus (N := N) rfc3339 taskId) fun _ => True := by
  refine ⟨hsubscribers, fun (subs : List Subscriber) _ => ?_⟩
  show Program.wp _ _ (if subs.isEmpty = true then _ else _) _
  split
  · trivial
  · refine ⟨htask, fun (detailed : Option DetailedTask) _ => ?_⟩
    cases detailed with
    | none => trivial
    | some detailed =>
        exact wp_sendEach subs (fun _ => hwriter _) (fun _ => hsend _ _)
          fun _ => ⟨hdrop _, fun _ _ => trivial⟩

/-- `TaskBroker::obtain`, up to where it awaits the client's answer. -/
def obtainInput (rfc3339 : Nat → String) (taskId key : String) (request : Value) :
    Proc N Unit := do
  let rx ← publishInput taskId key request
  match rx with
  | none => pure ()
  | some _ => pushStatus rfc3339 taskId

/-- What `augment_call` spawns, once the call has run. -/
def completeTask (rfc3339 : Nat → String) (taskId : String) (outcome : TaskOutcome) :
    Proc N Unit := do
  tell (.task (.complete taskId outcome))
  pushStatus rfc3339 taskId

/-- `tasks/cancel`. -/
def cancelTask (rfc3339 : Nat → String) (taskId : String) : Proc N Unit := do
  let known ← markCancelled taskId
  if known then pushStatus rfc3339 taskId else pure ()

/-- `tasks/update`: announced only where it changes the status. -/
def updateTask (rfc3339 : Nat → String) (taskId : String) (responses : Map) : Proc N Unit := do
  let changed ← deliverInputs taskId responses
  if changed = some true then pushStatus rfc3339 taskId else pure ()

end Proc

/-! ## The machine -/

/-- What starts a task of the server. -/
inductive Frame
  /-- A frame reaches the dispatcher. -/
  | message (msg : JsonRpcMessage)
  /-- A `DELETE` of a session. -/
  | delete (session : String)
  | listChanged (kind : ListChangedKind)
  | resourceUpdated (uri : String)
  | closeSubscriptions
  -- a draft task's life
  | createTask (ttlMs pollIntervalMs : Option Int)
  | obtainInput (taskId key : String) (request : Value)
  | completeTask (taskId : String) (outcome : TaskOutcome)
  | getTask (taskId : String)
  | cancelTask (taskId : String)
  | updateTask (taskId : String) (responses : Map)
  -- connections and `GET` streams
  | connect
  | openStream (session : String)
  | disconnect (connection : String)
  | closeReceiver (connection : String)
  deriving DecidableEq

/-- What a frame starts. -/
def startFrame (d : VersionDispatcher N) (rfc3339 : Nat → String) : Frame → Proc N Unit
  | .message msg => (serve d msg).expand Proc.sections
  | .delete session => Proc.terminateSession session
  | .listChanged kind => Proc.scheduleListChanged kind
  | .resourceUpdated uri => Proc.publishAll (.resourceUpdated uri)
  | .closeSubscriptions => Proc.closeAll
  | .createTask ttl poll => Proc.tell (.createTask ttl poll)
  | .obtainInput taskId key request => Proc.obtainInput rfc3339 taskId key request
  | .completeTask taskId outcome => Proc.completeTask rfc3339 taskId outcome
  | .getTask taskId => Proc.tell (.task (.get taskId))
  | .cancelTask taskId => Proc.cancelTask rfc3339 taskId
  | .updateTask taskId responses => Proc.updateTask rfc3339 taskId responses
  | .connect => Proc.tell .connect
  | .openStream session => Proc.tell (.openStream session)
  | .disconnect connection => Proc.tell (.dropWriter connection)
  | .closeReceiver connection => Proc.tell (.closeReceiver connection)

/-- The server, as configured by `d`. -/
def server (d : VersionDispatcher N) (rfc3339 : Nat → String) :
    Machine Shared Section (Reply N) Frame (Choice N) :=
  { start := startFrame d rfc3339, exec := runSection }

/-- The server's states. -/
abbrev Server (N : Type) := Pool Shared Section (Reply N) Frame

/-- At time zero, with what is outside declining. -/
def Choice.declined (pick : String) : Choice N := { now := 0, wall := 0, pick, answers := declining }

/-! ### Steps of the server

What is left to show of a step, once panics are out of the way: they change
nothing but the lock. -/

section

variable {d : VersionDispatcher N} {rfc3339 : Nat → String} {P P' : Server N}
  {a : Act Frame (Choice N)}

theorem shared_step {I : Shared → Prop} (h : (server d rfc3339).Step P a P') (hI : I P.shared)
    (hlock : ∀ s b, I s → I { s with poisoned := b })
    (hanswer : ∀ n c e k r s, a = .run n c → P.threads.get n = some (.call e k) →
      runSection n c P.shared e = .answer r s → I s) : I P'.shared := by
  refine Machine.shared_step h hI fun n c e k ha hget => ?_
  show I (runSection n c P.shared e).state
  cases hx : runSection n c P.shared e with
  | answer r s => exact hanswer n c e k r s ha hget hx
  | panic s =>
      rw [Outcome.state, eq_of_panic hx]
      exact hlock _ _ hI

theorem threads_step {J : Shared → Nat → Frame → Proc N Unit → Prop}
    (h : (server d rfc3339).Step P a P') (hP : Threads J P)
    (hspawn : ∀ f, a = .spawn f → J P.shared P.next f (startFrame d rfc3339 f))
    (hlock : ∀ s b n f p, J s n f p → J { s with poisoned := b } n f p)
    (hown : ∀ n f c e k r s, a = .run n c → P.threads.get n = some (.call e k) →
      P.born[n]? = some f → J P.shared n f (.call e k) →
      runSection n c P.shared e = .answer r s → J s n f (k r))
    (hother : ∀ n c e k r s m f p, a = .run n c → P.threads.get n = some (.call e k) →
      runSection n c P.shared e = .answer r s → m ≠ n → P.threads.get m = some p →
      P.born[m]? = some f → J P.shared m f p → J s m f p) : Threads J P' := by
  refine Threads.step h hP hspawn hown fun n c e k m f p ha hget hne hm hf hJ => ?_
  show J (runSection n c P.shared e).state m f p
  cases hx : runSection n c P.shared e with
  | answer r s => exact hother n c e k r s m f p ha hget hx hne hm hf hJ
  | panic s =>
      rw [Outcome.state, eq_of_panic hx]
      exact hlock _ _ m f p hJ

end

end TurboMcp.System
