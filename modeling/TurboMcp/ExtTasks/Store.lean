import TurboMcp.Core.JsonRpc
import TurboMcp.Lib.Fresh
import TurboMcp.Lib.Runs

/-!
# The draft task store

`DraftTaskStore` keeps one entry per task id.  While the task's handler waits
for client input, the entry holds each outstanding request under a key, the
sender that wakes the handler under the same key, and every key ever issued.

The clock readings, the minted task ids, the cancellation tokens and the
oneshot channels come from outside: an operation takes them as arguments, and
the store records which tokens it fired and what it sent down which channel.
-/

namespace TurboMcp.ExtTasks

open TurboMcp.Core TurboMcp.Lib

inductive TaskStatus
  | working
  | inputRequired
  | completed
  | failed
  | cancelled
  deriving DecidableEq, Repr

def TaskStatus.isTerminal : TaskStatus → Bool
  | completed | failed | cancelled => true
  | working | inputRequired => false

/-- The terminal outcome of a task's underlying request. -/
inductive TaskOutcome
  | completed (result : Value)
  | failed (error : JsonRpcError)
  deriving DecidableEq

/-- A cancellation token, by its identity. -/
abbrev Token := Nat

/-- A oneshot channel, by its identity. -/
abbrev Channel := Nat

/-- What the handler is waiting on. -/
structure Inputs where
  outstanding : Dict String Value
  /-- The sender half of each outstanding key's channel. -/
  waiters : Dict String Channel
  /-- Every key ever issued for this task. -/
  used : List String

structure Entry where
  status : TaskStatus
  statusMessage : Option String
  createdWall : Nat
  updatedWall : Nat
  created : Nat
  ttlMs : Option Int
  pollIntervalMs : Option Int
  outcome : Option TaskOutcome
  cancel : Token
  inputs : Inputs

/-- The base task shape of the wire. -/
structure Task where
  taskId : String
  status : TaskStatus
  statusMessage : Option String
  createdAt : Nat
  lastUpdatedAt : Nat
  ttlMs : Option Int
  pollIntervalMs : Option Int
  deriving DecidableEq

/-- `tasks/get`: the task with its status-specific fields inlined. -/
structure DetailedTask where
  task : Task
  inputRequests : Option Map
  result : Option Value
  error : Option Value
  deriving DecidableEq

/-- Nanoseconds in a millisecond: instants count nanoseconds. -/
def nanosPerMilli : Nat := 1000000

namespace Entry

/-- `null` and `0` mean unlimited, a negative lifetime counts as zero. -/
def expired (e : Entry) (now : Nat) : Bool :=
  match e.ttlMs with
  | none => false
  | some ms =>
      if ms = 0 then false
      else decide (now - e.created > ms.toNat * nanosPerMilli)

def base (e : Entry) (id : String) : Task :=
  { taskId := id, status := e.status, statusMessage := e.statusMessage,
    createdAt := e.createdWall, lastUpdatedAt := e.updatedWall,
    ttlMs := e.ttlMs, pollIntervalMs := e.pollIntervalMs }

def detailed (e : Entry) (id : String) : DetailedTask :=
  { task := e.base id
    inputRequests :=
      if e.status = .inputRequired then some e.inputs.outstanding.entries else none
    result := match e.outcome with
      | some (.completed result) => some result
      | _ => none
    error := match e.outcome with
      | some (.failed error) => some error.toValue
      | _ => none }

end Entry

structure DraftTaskStore where
  inner : Dict String Entry
  capacity : Nat
  /-- The tokens fired so far. -/
  fired : List Token
  /-- The values sent so far, each with its channel. -/
  sent : List (Channel × Value)

/-! ## Keys -/

/-- The handler's key as it is, then `key#2`, `key#3`, … -/
def candidateKey (key : String) : Nat → String
  | 0 => key
  | n + 1 => key ++ "#" ++ toString (n + 2)

/-- A variant of `key` that was never issued. -/
def uniquify (used : List String) (key : String) : String :=
  firstFresh (candidateKey key) used used.length 0

theorem toString_injective {m n : Nat} (h : toString m = toString n) : m = n := by
  have hdigits : Nat.toDigits 10 m = Nat.toDigits 10 n := by
    simpa only [Nat.toString_eq_repr, Nat.toList_repr] using congrArg String.toList h
  simpa using congrArg (Nat.ofDigitChars 10 · 0) hdigits

theorem candidateKey_injective (key : String) : Function.Injective (candidateKey key) := by
  have hlen : ∀ n, candidateKey key (n + 1) ≠ key := by
    intro n h
    have := congrArg String.length h
    simp only [candidateKey, String.length_append] at this
    have hsep : "#".length = 1 := rfl
    omega
  intro m n h
  cases m with
  | zero =>
      cases n with
      | zero => rfl
      | succ n => exact absurd h.symm (hlen n)
  | succ m =>
      cases n with
      | zero => exact absurd h (hlen m)
      | succ n =>
          simp only [candidateKey, String.append_right_inj] at h
          have := toString_injective h
          omega

/-- Keys are never reused over a task's lifetime. -/
theorem uniquify_not_mem (used : List String) (key : String) : uniquify used key ∉ used :=
  firstFresh_not_mem (candidateKey_injective key) used

/-! ## Operations -/

namespace DraftTaskStore

def withCapacity (capacity : Nat) : DraftTaskStore :=
  { inner := Dict.empty, capacity, fired := [], sent := [] }

/-- Write `entry` back under `id`: what a `get_mut` borrow leaves behind. -/
def setEntry (st : DraftTaskStore) (id : String) (entry : Entry) : DraftTaskStore :=
  { st with inner := st.inner.insert id entry }

/-- Drop expired entries, firing the token of each that still runs. -/
def purgeExpired (st : DraftTaskStore) (now : Nat) : DraftTaskStore :=
  { st with
    inner := st.inner.retain fun _ e => !e.expired now
    fired := st.fired ++ (st.inner.entries.filter fun p =>
      p.2.expired now && !p.2.status.isTerminal).map (·.2.cancel) }

/-- Register a fresh `working` task under the minted `id`; `none` at capacity. -/
def create (st : DraftTaskStore) (now nowWall : Nat) (id : String)
    (ttlMs pollIntervalMs : Option Int) (cancel : Token) :
    DraftTaskStore × Option Task :=
  let st := st.purgeExpired now
  if st.capacity ≤ st.inner.len then (st, none)
  else
    let entry : Entry :=
      { status := .working, statusMessage := none, createdWall := nowWall,
        updatedWall := nowWall, created := now, ttlMs, pollIntervalMs,
        outcome := none, cancel,
        inputs := { outstanding := Dict.empty, waiters := Dict.empty, used := [] } }
    (st.setEntry id entry, some (entry.base id))

/-- Record the terminal outcome, unless the task is terminal or gone. -/
def complete (st : DraftTaskStore) (nowWall : Nat) (id : String)
    (outcome : TaskOutcome) : DraftTaskStore :=
  match st.inner.get id with
  | none => st
  | some entry =>
      if entry.status.isTerminal then st
      else
        let entry := match outcome with
          | .completed _ => { entry with status := .completed }
          | .failed err =>
              { entry with statusMessage := some err.message, status := .failed }
        st.setEntry id { entry with outcome := some outcome, updatedWall := nowWall }

def get (st : DraftTaskStore) (now : Nat) (id : String) :
    DraftTaskStore × Option DetailedTask :=
  let st := st.purgeExpired now
  (st, (st.inner.get id).map (·.detailed id))

/-- Fire the task's token and make it `cancelled`; clearing `waiters` drops the
senders, which wakes a handler that awaits input. -/
def cancel (st : DraftTaskStore) (now nowWall : Nat) (id : String) :
    DraftTaskStore × Bool :=
  let st := st.purgeExpired now
  match st.inner.get id with
  | none => (st, false)
  | some entry =>
      if entry.status.isTerminal then (st, true)
      else
        let st := { st with fired := st.fired ++ [entry.cancel] }
        (st.setEntry id
          { entry with
            status := .cancelled
            statusMessage := some "the task was cancelled by request"
            updatedWall := nowWall
            inputs :=
              { entry.inputs with waiters := Dict.empty, outstanding := Dict.empty } },
          true)

/-- Publish an input request under a key unique to the task. `rx` is the
channel whose receiver the handler awaits. -/
def publishInput (st : DraftTaskStore) (now nowWall : Nat) (id key : String)
    (request : Value) (rx : Channel) : DraftTaskStore × Option Channel :=
  let st := st.purgeExpired now
  match st.inner.get id with
  | none => (st, none)
  | some entry =>
      if entry.status.isTerminal then (st, none)
      else
        let unique := uniquify entry.inputs.used key
        let entry := { entry with
          inputs :=
            { used := entry.inputs.used.insert unique
              outstanding := entry.inputs.outstanding.insert unique request
              waiters := entry.inputs.waiters.insert unique rx } }
        let entry := if entry.status = .working then
            { entry with status := .inputRequired, updatedWall := nowWall }
          else entry
        (st.setEntry id entry, some rx)

/-- One response of a `tasks/update`: resolve the waiter of an outstanding key,
ignore any other. -/
def deliverOne (acc : Inputs × List (Channel × Value)) (response : String × Value) :
    Inputs × List (Channel × Value) :=
  let (inputs, sent) := acc
  let (key, value) := response
  if (inputs.outstanding.get key).isSome then
    match inputs.waiters.get key with
    | some waiter =>
        ({ inputs with waiters := inputs.waiters.remove key
                       outstanding := inputs.outstanding.remove key },
          sent ++ [(waiter, value)])
    | none => acc
  else acc

/-- Deliver the responses of a `tasks/update`. A task drained of outstanding
requests returns to `working`; the flag says whether its status changed. -/
def deliverInputs (st : DraftTaskStore) (now nowWall : Nat) (id : String)
    (responses : Map) : DraftTaskStore × Option Bool :=
  let st := st.purgeExpired now
  match st.inner.get id with
  | none => (st, none)
  | some entry =>
      let (inputs, sent) := responses.foldl deliverOne (entry.inputs, [])
      let entry := { entry with inputs }
      let st := { st with sent := st.sent ++ sent }
      if entry.status = .inputRequired ∧ entry.inputs.outstanding.isEmpty = true then
        (st.setEntry id { entry with status := .working, updatedWall := nowWall },
          some true)
      else (st.setEntry id entry, some false)

end DraftTaskStore

end TurboMcp.ExtTasks
