import Mathlib.Data.List.Sort
import TurboMcp.Lib.Runs
import TurboMcp.Server.Effect

/-!
# The task store and those who wait on it

`TaskStore` keeps the tasks of the legacy protocol, each owned by the session
that created it.  A call of `wait_result` is a future of its own: it looks the
task up under the lock, subscribes to the task's watch channel before it lets
go of the lock, and looks again whenever the channel has changed.

A watch channel counts the values sent while someone is subscribed, and is
closed once its sender is gone, which the task's entry holds.  The clock, ids,
tokens, channels and the order in which the table is iterated come from outside.
-/

namespace TurboMcp.Server

open TurboMcp.Core TurboMcp.Lib

/-! ## The store -/

/-- Every status but `working`. -/
def CoreTaskStatus.isTerminal : CoreTaskStatus → Bool
  | completed | failed | cancelled => true
  | working => false

/-- The underlying request's result, or the error it would have answered with. -/
abbrev TaskResult := Except JsonRpcError Value

structure TaskEntry where
  sessionId : String
  status : CoreTaskStatus
  statusMessage : Option String
  createdWall : Nat
  updatedWall : Nat
  created : Nat
  ttlMs : Int
  outcome : Option TaskResult
  /-- The token that cancels the spawned handler. -/
  cancel : Nat
  /-- The watch channel whose sender the entry holds. -/
  notify : Nat
  deriving DecidableEq

/-- A watch channel: how often it changed, and who is subscribed. -/
structure Watch where
  version : Nat
  receivers : List Nat
  deriving DecidableEq

structure TaskStore where
  inner : Dict String TaskEntry
  capacity : Nat
  /-- The tokens fired so far. -/
  fired : List Nat
  /-- Every watch channel made so far. -/
  watches : Dict Nat Watch

namespace TaskEntry

/-- Instants count nanoseconds. -/
def nanosPerMilli : Nat := 1000000

def expired (e : TaskEntry) (now : Nat) : Bool :=
  decide (now - e.created > e.ttlMs.toNat * nanosPerMilli)

def snapshot (rfc3339 : Nat → String) (e : TaskEntry) (id : String) : TaskSnapshot :=
  { taskId := id, status := e.status, statusMessage := e.statusMessage
    createdAt := rfc3339 e.createdWall, lastUpdatedAt := rfc3339 e.updatedWall, ttlMs := e.ttlMs }

end TaskEntry

/-- `str::parse::<usize>`: an optional `+`, then digits. -/
def parseUsize (s : String) : Option Nat :=
  let digits := match s.toList with
    | '+' :: rest => rest
    | chars => chars
  if digits.isEmpty || !digits.all Char.isDigit then none
  else
    let n := digits.foldl (fun n c => 10 * n + (c.toNat - '0'.toNat)) 0
    if n < 2 ^ 64 then some n else none

namespace TaskStore

def defaultTtlMs : Int := 300000

def maxTtlMs : Int := 3600000

def withCapacity (capacity : Nat) : TaskStore :=
  { inner := Dict.empty, capacity, fired := [], watches := Dict.empty }

def setEntry (st : TaskStore) (id : String) (e : TaskEntry) : TaskStore :=
  { st with inner := st.inner.insert id e }

/-- `watch::Sender::send` changes nothing when nobody is subscribed. -/
def send (st : TaskStore) (notify : Nat) : TaskStore :=
  { st with watches := st.watches.modify notify fun w =>
      if w.receivers.isEmpty then w else { w with version := w.version + 1 } }

/-- Whether the sender of the channel is gone. -/
def closed (st : TaskStore) (notify : Nat) : Bool :=
  st.inner.entries.all fun p => p.2.notify ≠ notify

def purgeExpired (st : TaskStore) (now : Nat) : TaskStore :=
  { st with
    inner := st.inner.retain fun _ e => !e.expired now
    fired := st.fired ++ (st.inner.entries.filter fun p =>
      p.2.expired now && !p.2.status.isTerminal).map (·.2.cancel) }

/-- A task under the minted `id`, with the watch channel made for it. -/
def create (st : TaskStore) (rfc3339 : Nat → String) (now nowWall : Nat) (id : String)
    (notify : Nat) (sessionId : String) (requestedTtlMs : Option Int) (cancel : Nat) :
    TaskStore × Except TaskError TaskSnapshot :=
  let st := st.purgeExpired now
  if st.capacity ≤ st.inner.len then (st, .error .capacityExhausted)
  else
    let e : TaskEntry :=
      { sessionId, status := .working, statusMessage := none, createdWall := nowWall
        updatedWall := nowWall, created := now
        ttlMs := max 0 (min (requestedTtlMs.getD defaultTtlMs) maxTtlMs)
        outcome := none, cancel, notify }
    ({ st.setEntry id e with watches := st.watches.insert notify ⟨0, []⟩ },
      .ok (e.snapshot rfc3339 id))

def complete (st : TaskStore) (nowWall : Nat) (id : String) (outcome : TaskResult) : TaskStore :=
  match st.inner.get id with
  | none => st
  | some e =>
      if e.status.isTerminal then st
      else
        let e := match outcome with
          | .ok _ => { e with status := .completed }
          | .error err => { e with status := .failed, statusMessage := some err.message }
        (st.setEntry id { e with outcome := some outcome, updatedWall := nowWall }).send e.notify

/-- The error a cancelled task's request is answered with. -/
def taskCancelled : JsonRpcError := { code := -32010, message := "task cancelled", data := none }

/-- The task, if it is there and the session's own. -/
def own (st : TaskStore) (sessionId id : String) : Option TaskEntry :=
  (st.inner.get id).filter (·.sessionId = sessionId)

def cancel (st : TaskStore) (rfc3339 : Nat → String) (now nowWall : Nat) (sessionId id : String) :
    TaskStore × Except TaskError TaskSnapshot :=
  let st := st.purgeExpired now
  match st.own sessionId id with
  | none => (st, .error .notFound)
  | some e =>
      if e.status.isTerminal then (st, .error .alreadyTerminal)
      else
        let st := { st with fired := st.fired ++ [e.cancel] }
        let e := { e with
          status := .cancelled
          statusMessage := some "the task was cancelled by request"
          outcome := some (.error taskCancelled)
          updatedWall := nowWall }
        ((st.setEntry id e).send e.notify, .ok (e.snapshot rfc3339 id))

def get (st : TaskStore) (rfc3339 : Nat → String) (now : Nat) (sessionId id : String) :
    TaskStore × Except TaskError TaskSnapshot :=
  let st := st.purgeExpired now
  match st.own sessionId id with
  | none => (st, .error .notFound)
  | some e => (st, .ok (e.snapshot rfc3339 id))

/-- The session's tasks, oldest first, where the table is iterated in `order`. -/
def listed (st : TaskStore) (sessionId : String) (order : List String) :
    List (String × TaskEntry) :=
  (order.filterMap fun id => (st.own sessionId id).map fun e => (id, e)).insertionSort
    fun a b => a.2.created ≤ b.2.created

/-- One page, and the cursor of the next: the offset where it starts. -/
def page (rfc3339 : Nat → String) (all : List (String × TaskEntry)) (offset pageSize : Nat) :
    List TaskSnapshot × Option String :=
  let page := ((all.drop offset).take pageSize).map fun p => p.2.snapshot rfc3339 p.1
  (page, if offset + page.length < all.length then some (toString (offset + page.length))
    else none)

def list (st : TaskStore) (rfc3339 : Nat → String) (now : Nat) (order : List String)
    (sessionId : String) (cursor : Option String) (pageSize : Nat) :
    TaskStore × Except TaskError (List TaskSnapshot × Option String) :=
  match (match cursor with
    | none => some 0
    | some c => parseUsize c) with
  | none => (st, .error .notFound)
  | some offset =>
      let st := st.purgeExpired now
      (st, .ok (page rfc3339 (st.listed sessionId order) offset pageSize))

end TaskStore

/-! ## Waiting -/

/-- Where a call of `wait_result` stands. -/
inductive WaitPhase
  /-- About to take the lock. -/
  | ready
  /-- Subscribed, having seen the channel's version. -/
  | parked (notify seen : Nat)
  | returned (result : Except TaskError TaskResult)
  deriving DecidableEq

structure Waiter where
  sessionId : String
  id : String
  phase : WaitPhase
  deriving DecidableEq

namespace TaskStore

/-- The error of a finished task that has no outcome. -/
def withoutOutcome : JsonRpcError :=
  { code := -32603, message := "task finished without an outcome", data := none }

/-- What the waiter `w` does under the lock. -/
def check (st : TaskStore) (now : Nat) (w : Nat) (sessionId id : String) :
    TaskStore × WaitPhase :=
  let st := st.purgeExpired now
  match st.own sessionId id with
  | none => (st, .returned (.error .notFound))
  | some e =>
      if e.status.isTerminal then
        (st, .returned (.ok (e.outcome.getD (.error withoutOutcome))))
      else
        ({ st with watches := st.watches.modify e.notify fun watch =>
            { watch with receivers := w :: watch.receivers } },
          .parked e.notify (((st.watches.get e.notify).map Watch.version).getD 0))

/-- The waiter `w` drops its receiver. -/
def unsubscribe (st : TaskStore) (notify w : Nat) : TaskStore :=
  { st with watches := st.watches.modify notify fun watch =>
      { watch with receivers := watch.receivers.filter (· ≠ w) } }

/-- Whether the receiver has a change to see. -/
def changed (st : TaskStore) (notify seen : Nat) : Bool :=
  (st.watches.get notify).map Watch.version ≠ some seen

/-- The next step of the waiter `w`. -/
def resume (st : TaskStore) (now : Nat) (w : Nat) (waiter : Waiter) : TaskStore × WaitPhase :=
  match waiter.phase with
  | .ready => st.check now w waiter.sessionId waiter.id
  | .parked notify seen =>
      if st.changed notify seen then (st.unsubscribe notify w, .ready)
      else if st.closed notify then (st.unsubscribe notify w, .returned (.error .notFound))
      else (st, .parked notify seen)
  | .returned result => (st, .returned result)

end TaskStore

/-! ## The store in use -/

/-- The store with the calls of `wait_result` around it. -/
structure TaskRoom where
  store : TaskStore
  /-- The task ids minted so far. -/
  minted : List String
  waiters : Dict Nat Waiter

/-- What is done under a session. -/
inductive TaskAct
  | create (requestedTtlMs : Option Int) (cancel : Nat) (id : String) (notify : Nat)
  | complete (id : String) (outcome : TaskResult)
  | cancel (id : String)
  | get (id : String)
  | list (cursor : Option String) (pageSize : Nat) (order : List String)
  /-- `wait_result` is called. -/
  | wait (w : Nat) (id : String)
  | resume (w : Nat)
  /-- The future is dropped. -/
  | abandon (w : Nat)
  deriving DecidableEq

structure TaskCall where
  now : Nat
  nowWall : Nat
  session : String
  act : TaskAct
  deriving DecidableEq

/-- What an act shows. -/
inductive TaskReply
  | snapshot (r : Except TaskError TaskSnapshot)
  | page (r : Except TaskError (List TaskSnapshot × Option String))
  | silent
  deriving DecidableEq

namespace TaskRoom

def initial (capacity : Nat) : TaskRoom :=
  { store := .withCapacity capacity, minted := [], waiters := Dict.empty }

def unsubscribed (s : TaskRoom) (w : Nat) : TaskStore :=
  match s.waiters.get w with
  | some ⟨_, _, .parked notify _⟩ => s.store.unsubscribe notify w
  | _ => s.store

def act (rfc3339 : Nat → String) (s : TaskRoom) (c : TaskCall) : TaskRoom × TaskReply :=
  match c.act with
  | .create ttl cancel id notify =>
      let (store, r) := s.store.create rfc3339 c.now c.nowWall id notify c.session ttl cancel
      ({ s with store, minted := id :: s.minted }, .snapshot r)
  | .complete id outcome => ({ s with store := s.store.complete c.nowWall id outcome }, .silent)
  | .cancel id =>
      let (store, r) := s.store.cancel rfc3339 c.now c.nowWall c.session id
      ({ s with store }, .snapshot r)
  | .get id =>
      let (store, r) := s.store.get rfc3339 c.now c.session id
      ({ s with store }, .snapshot r)
  | .list cursor pageSize order =>
      let (store, r) := s.store.list rfc3339 c.now order c.session cursor pageSize
      ({ s with store }, .page r)
  | .wait w id => ({ s with waiters := s.waiters.insert w ⟨c.session, id, .ready⟩ }, .silent)
  | .resume w =>
      match s.waiters.get w with
      | none => (s, .silent)
      | some waiter =>
          let (store, phase) := s.store.resume c.now w waiter
          ({ s with store, waiters := s.waiters.insert w { waiter with phase } }, .silent)
  | .abandon w => ({ s with store := s.unsubscribed w, waiters := s.waiters.remove w }, .silent)

/-- What is promised of what comes from outside: ids, channels and futures are
new, a table is iterated entry by entry, a task is completed by the request
that drives it, and a future is polled by who called it. -/
def Admissible (s : TaskRoom) (c : TaskCall) : Prop :=
  match c.act with
  | .create _ _ id notify => id ∉ s.minted ∧ s.store.watches.get notify = none
  | .complete id _ => ∀ e, s.store.inner.get id = some e → e.sessionId = c.session
  | .list _ _ order => order.Perm (s.store.purgeExpired c.now).inner.keys
  | .wait w _ => s.waiters.get w = none
  | .resume w | .abandon w => ∀ waiter, s.waiters.get w = some waiter → waiter.sessionId = c.session
  | .cancel _ | .get _ => True

instance (s : TaskRoom) (c : TaskCall) : Decidable (s.Admissible c) :=
  match c with
  | ⟨_, _, _, .create _ _ _ _⟩ => inferInstanceAs (Decidable (_ ∧ _))
  | ⟨_, _, session, .complete id _⟩ =>
      inferInstanceAs (Decidable (∀ e ∈ s.store.inner.get id, e.sessionId = session))
  | ⟨now, _, _, .list _ _ order⟩ =>
      inferInstanceAs (Decidable (order.Perm (s.store.purgeExpired now).inner.keys))
  | ⟨_, _, _, .wait w _⟩ => inferInstanceAs (Decidable (s.waiters.get w = none))
  | ⟨_, _, session, .resume w⟩ | ⟨_, _, session, .abandon w⟩ =>
      inferInstanceAs (Decidable (∀ waiter ∈ s.waiters.get w, waiter.sessionId = session))
  | ⟨_, _, _, .cancel _⟩ | ⟨_, _, _, .get _⟩ => inferInstanceAs (Decidable True)

/-- A step of the store in use. -/
def Step (rfc3339 : Nat → String) (s : TaskRoom) (c : TaskCall) (t : TaskRoom) : Prop :=
  s.Admissible c ∧ (s.act rfc3339 c).1 = t

end TaskRoom

end TurboMcp.Server
