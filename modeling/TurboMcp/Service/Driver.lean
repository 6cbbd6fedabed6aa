import TurboMcp.Core.Error
import TurboMcp.Core.Meta
import TurboMcp.Lib.Runs

/-!
# The driver loop

`serve_with` reads frames, hands each to a clone of the service on a task of its
own, and is the only writer of the transport.  Its state is where the select
loop stands, the bounded outbound channel and the handlers that hold permits;
its labels are what the transport, the scheduler, the handlers and everyone
else with the connection's writer do next.  Reaping finished handlers changes
nothing kept here and is no step of its own.
-/

namespace TurboMcp.Service

open TurboMcp.Core TurboMcp.Lib

/-! ## Services -/

/-- What one poll of a handler's future comes to. -/
inductive Poll (E F : Type)
  | run (f : F)
  /-- It routed an inbound response or cancellation to whoever awaits `event`. -/
  | deliver (event : E) (f : F)
  /-- It writes to the connection before it goes on. -/
  | emit (message : JsonRpcMessage) (f : F)
  /-- It awaits an inbound frame. -/
  | wait (event : E) (f : F)
  | ready (out : Except ProtocolError (Option JsonRpcMessage))

/-- A service as the driver uses it: futures `F`, which may await inbound
events `E` and whose polls see the choices `C` of their surroundings. -/
structure McpService (E C F : Type) where
  call : JsonRpcMessage → F
  poll : F → C → Option (Poll E F)

structure ServeConfig where
  maxInFlight : Nat
  identity : Option Value

/-- The number of permits, and of places in the outbound channel. -/
def ServeConfig.capacity (config : ServeConfig) : Nat := max config.maxInFlight 1

theorem ServeConfig.capacity_pos (config : ServeConfig) : 0 < config.capacity :=
  Nat.lt_of_lt_of_le Nat.zero_lt_one (Nat.le_max_right _ _)

/-- The trust boundary: strip what the client forged, assert the connection and
its principal. -/
def stampInbound (connection : String) (config : ServeConfig) (msg : JsonRpcMessage) :
    JsonRpcMessage :=
  let msg := Meta.setRequestMeta (Meta.sanitizeInbound msg) Meta.internal.connectionId
    (.string connection)
  match config.identity with
  | none => msg
  | some principal => Meta.setRequestMeta msg Meta.internal.identity principal

/-! ## States -/

/-- A message for the transport, with the handler whose reply it is. -/
structure Outgoing where
  origin : Option Nat
  message : JsonRpcMessage
  deriving DecidableEq

inductive Activity (E F : Type)
  | running (f : F)
  /-- Suspended in `writer.send(message)`. -/
  | sending (message : JsonRpcMessage) (f : F)
  | waiting (event : E) (f : F)
  /-- Suspended in `out_tx.send(reply)`; its future is done. -/
  | replying (message : JsonRpcMessage) (f : F)

/-- A spawned handler: it holds one permit until it ends. -/
structure Task (E F : Type) where
  num : Nat
  frame : JsonRpcMessage
  activity : Activity E F

/-- A handler that ended: its future as it was when it returned, and what it
returned. -/
structure Finished (F : Type) where
  num : Nat
  frame : JsonRpcMessage
  future : F
  out : Except ProtocolError (Option JsonRpcMessage)

inductive Phase
  | serving
  | draining
  | flushing
  | closed
  deriving DecidableEq

/-- Where the driver stands: before its select, past the arms it found not
ready, or inside the body of one. -/
inductive Pc
  | select
  | polledOutbound
  | polledShutdown
  | sending (out : Outgoing)
  | acquiring (frame : JsonRpcMessage)
  | readying (frame : JsonRpcMessage)
  deriving DecidableEq

structure State (E F : Type) where
  phase : Phase
  pc : Pc
  /-- The outbound channel. -/
  queue : List Outgoing
  tasks : List (Task E F)
  /-- The awaited events that arrived. -/
  delivered : List E
  /-- Whether the shutdown token was fired. -/
  shutdown : Bool
  started : Nat
  /-- What the transport has sent. -/
  written : List Outgoing
  finished : List (Finished F)

def State.initial {E F : Type} : State E F :=
  { phase := .serving, pc := .select, queue := [], tasks := [], delivered := [],
    shutdown := false, started := 0, written := [], finished := [] }

/-! ## Steps -/

inductive Label (E C : Type)
  /-- The select loop polls the outbound channel. -/
  | pollOutbound
  /-- It polls the shutdown token. -/
  | pollShutdown
  /-- Nothing was ready; something woke the loop. -/
  | wake
  /-- The transport delivers a frame. -/
  | frame (msg : JsonRpcMessage)
  /-- The stream ended, cleanly or not. -/
  | recvEnd
  | sent
  | sendFailed
  | acquired
  | ready (result : Except ProtocolError Unit)
  /-- Handler `i` is polled. -/
  | poll (i : Nat) (choice : C)
  /-- Handler `i` gets on with what it was suspended in. -/
  | resume (i : Nat)
  /-- The timer of what handler `i` waits for fires. -/
  | expire (i : Nat)
  /-- Someone else writes to the connection. -/
  | push (msg : JsonRpcMessage)
  | fireShutdown
  /-- The drain sees no handler left. -/
  | drained
  | deadline
  /-- Handler `i` is aborted. -/
  | abort (i : Nat)
  /-- Every sender is gone and the channel is empty. -/
  | finish

section

variable {E C F : Type} [DecidableEq E]

def Phase.afterFailedSend : Phase → Phase
  | serving => draining
  | draining => flushing
  | flushing | closed => closed

namespace State

/-- Replace what handler `i` is doing. -/
def setActivity (s : State E F) (i : Nat) (t : Task E F) (activity : Activity E F) :
    State E F :=
  { s with tasks := s.tasks.set i { t with activity } }

/-- Handler `i` ends and gives its permit back. -/
def endTask (s : State E F) (i : Nat) (t : Task E F) (future : F)
    (out : Except ProtocolError (Option JsonRpcMessage)) : State E F :=
  { s with
    tasks := s.tasks.eraseIdx i
    finished := s.finished ++ [{ num := t.num, frame := t.frame, future, out }] }

def pushOutgoing (s : State E F) (out : Outgoing) : State E F :=
  { s with queue := s.queue ++ [out] }

end State

variable (svc : McpService E C F) (connection : String) (config : ServeConfig)

/-- Poll handler `i`, which is at `f`. -/
def pollTask (s : State E F) (i : Nat) (t : Task E F) (f : F) :
    Poll E F → State E F
  | .run f' => s.setActivity i t (.running f')
  | .deliver event f' =>
      { (s.setActivity i t (.running f')) with delivered := event :: s.delivered }
  | .emit message f' => s.setActivity i t (.sending message f')
  | .wait event f' => s.setActivity i t (.waiting event f')
  | .ready (.ok (some reply)) => s.setActivity i t (.replying reply f)
  | .ready out => s.endTask i t f out

/-- Handler `i` gets on: its message finds room, its event is there. -/
def resumeTask (s : State E F) (i : Nat) (t : Task E F) : Option (State E F) :=
  match t.activity with
  | .running _ => none
  | .sending message f =>
      if s.queue.length < config.capacity then
        some ((s.pushOutgoing ⟨none, message⟩).setActivity i t (.running f))
      else none
  | .waiting event f =>
      if event ∈ s.delivered then some (s.setActivity i t (.running f)) else none
  | .replying reply f =>
      if s.queue.length < config.capacity then
        some ((s.pushOutgoing ⟨some t.num, reply⟩).endTask i t f (.ok (some reply)))
      else none

/-- The task a frame is spawned on. -/
def spawnTask (s : State E F) (frame : JsonRpcMessage) : State E F :=
  let future := svc.call (stampInbound connection config frame)
  { s with
    pc := .select
    tasks := s.tasks ++ [⟨s.started, frame, .running future⟩]
    started := s.started + 1 }

/-- One step of the driver, its handlers, or their surroundings. -/
def step (s : State E F) : Label E C → Option (State E F)
  | .pollOutbound =>
      match s.pc, s.queue with
      | .select, out :: queue =>
          if s.phase = .closed then none else some { s with pc := .sending out, queue }
      | .select, [] => if s.phase = .serving then some { s with pc := .polledOutbound } else none
      | _, _ => none
  | .pollShutdown =>
      match s.pc with
      | .polledOutbound =>
          if s.shutdown then some { s with phase := .draining, pc := .select }
          else some { s with pc := .polledShutdown }
      | _ => none
  | .wake =>
      match s.pc with
      | .polledShutdown => some { s with pc := .select }
      | _ => none
  | .frame msg =>
      match s.pc with
      | .polledShutdown => some { s with pc := .acquiring msg }
      | _ => none
  | .recvEnd =>
      match s.pc with
      | .polledShutdown => some { s with phase := .draining, pc := .select }
      | _ => none
  | .sent =>
      match s.pc with
      | .sending out => some { s with pc := .select, written := s.written ++ [out] }
      | _ => none
  | .sendFailed =>
      match s.pc with
      | .sending _ => some { s with pc := .select, phase := s.phase.afterFailedSend }
      | _ => none
  | .acquired =>
      match s.pc with
      | .acquiring msg =>
          if s.tasks.length < config.capacity then some { s with pc := .readying msg } else none
      | _ => none
  | .ready result =>
      match s.pc, result with
      | .readying msg, .ok () => some (spawnTask svc connection config s msg)
      | .readying _, .error _ => some { s with phase := .draining, pc := .select }
      | _, _ => none
  | .poll i choice =>
      match s.tasks[i]? with
      | some t =>
          match t.activity with
          | .running f => (svc.poll f choice).map (pollTask s i t f)
          | _ => none
      | none => none
  | .resume i =>
      match s.tasks[i]? with
      | some t => resumeTask config s i t
      | none => none
  | .expire i =>
      match s.tasks[i]? with
      | some t =>
          match t.activity with
          | .waiting _ f => some (s.setActivity i t (.running f))
          | _ => none
      | none => none
  | .push msg =>
      if s.phase ≠ .closed ∧ s.queue.length < config.capacity then
        some (s.pushOutgoing ⟨none, msg⟩)
      else none
  | .fireShutdown => some { s with shutdown := true }
  | .drained =>
      if s.phase = .draining ∧ s.pc = .select ∧ s.tasks = [] then
        some { s with phase := .flushing }
      else none
  | .deadline =>
      if s.phase = .draining ∧ s.pc = .select then some { s with phase := .flushing } else none
  | .abort i =>
      if s.phase = .flushing ∧ i < s.tasks.length then
        some { s with tasks := s.tasks.eraseIdx i }
      else none
  | .finish =>
      if s.phase = .flushing ∧ s.pc = .select ∧ s.queue = [] ∧ s.tasks = [] then
        some { s with phase := .closed }
      else none

/-- The driver as a transition system. -/
def Step (s : State E F) (a : Label E C) (t : State E F) : Prop :=
  step svc connection config s a = some t

/-! ## What a step does

`Move` lists the steps with their guards; every proof about the driver splits
on it and none unfolds `step`. -/

inductive Move (s : State E F) : Label E C → State E F → Prop
  | take {out : Outgoing} {queue : List Outgoing} (hpc : s.pc = .select)
      (hqueue : s.queue = out :: queue) (hphase : s.phase ≠ .closed) :
      Move s .pollOutbound { s with pc := .sending out, queue }
  | outboundEmpty (hpc : s.pc = .select) (hqueue : s.queue = [])
      (hphase : s.phase = .serving) :
      Move s .pollOutbound { s with pc := .polledOutbound }
  | shutdownSeen (hpc : s.pc = .polledOutbound) :
      Move s .pollShutdown { s with phase := .draining, pc := .select }
  | shutdownUnseen (hpc : s.pc = .polledOutbound) :
      Move s .pollShutdown { s with pc := .polledShutdown }
  | wake (hpc : s.pc = .polledShutdown) : Move s .wake { s with pc := .select }
  | frame {msg : JsonRpcMessage} (hpc : s.pc = .polledShutdown) :
      Move s (.frame msg) { s with pc := .acquiring msg }
  | recvEnd (hpc : s.pc = .polledShutdown) :
      Move s .recvEnd { s with phase := .draining, pc := .select }
  | sent {out : Outgoing} (hpc : s.pc = .sending out) :
      Move s .sent { s with pc := .select, written := s.written ++ [out] }
  | sendFailed {out : Outgoing} (hpc : s.pc = .sending out) :
      Move s .sendFailed { s with pc := .select, phase := s.phase.afterFailedSend }
  | acquired {msg : JsonRpcMessage} (hpc : s.pc = .acquiring msg)
      (hfree : s.tasks.length < config.capacity) :
      Move s .acquired { s with pc := .readying msg }
  | ready {msg : JsonRpcMessage} (hpc : s.pc = .readying msg) :
      Move s (.ready (.ok ())) (spawnTask svc connection config s msg)
  | notReady {msg : JsonRpcMessage} {e : ProtocolError} (hpc : s.pc = .readying msg) :
      Move s (.ready (.error e)) { s with phase := .draining, pc := .select }
  | poll {i : Nat} {choice : C} {t : Task E F} {f : F} {p : Poll E F}
      (ht : s.tasks[i]? = some t) (hf : t.activity = .running f)
      (hp : svc.poll f choice = some p) :
      Move s (.poll i choice) (pollTask s i t f p)
  | emitted {i : Nat} {t : Task E F} {message : JsonRpcMessage} {f : F}
      (ht : s.tasks[i]? = some t) (hf : t.activity = .sending message f)
      (hroom : s.queue.length < config.capacity) :
      Move s (.resume i) ((s.pushOutgoing ⟨none, message⟩).setActivity i t (.running f))
  | woken {i : Nat} {t : Task E F} {event : E} {f : F} (ht : s.tasks[i]? = some t)
      (hf : t.activity = .waiting event f) :
      Move s (.resume i) (s.setActivity i t (.running f))
  | replied {i : Nat} {t : Task E F} {reply : JsonRpcMessage} {f : F}
      (ht : s.tasks[i]? = some t) (hf : t.activity = .replying reply f)
      (hroom : s.queue.length < config.capacity) :
      Move s (.resume i) ((s.pushOutgoing ⟨some t.num, reply⟩).endTask i t f (.ok (some reply)))
  | expired {i : Nat} {t : Task E F} {event : E} {f : F} (ht : s.tasks[i]? = some t)
      (hf : t.activity = .waiting event f) :
      Move s (.expire i) (s.setActivity i t (.running f))
  | pushed {msg : JsonRpcMessage} (hphase : s.phase ≠ .closed)
      (hroom : s.queue.length < config.capacity) :
      Move s (.push msg) (s.pushOutgoing ⟨none, msg⟩)
  | fireShutdown : Move s .fireShutdown { s with shutdown := true }
  | drained (hphase : s.phase = .draining) (htasks : s.tasks = []) (hpc : s.pc = .select) :
      Move s .drained { s with phase := .flushing }
  | deadline (hphase : s.phase = .draining) (hpc : s.pc = .select) :
      Move s .deadline { s with phase := .flushing }
  | abort {i : Nat} (hphase : s.phase = .flushing) (hi : i < s.tasks.length) :
      Move s (.abort i) { s with tasks := s.tasks.eraseIdx i }
  | finish (hpc : s.pc = .select) (hqueue : s.queue = []) (htasks : s.tasks = [])
      (hphase : s.phase = .flushing) :
      Move s .finish { s with phase := .closed }

variable {svc connection config}

theorem resumeTask_move {s t : State E F} {i : Nat} {u : Task E F}
    (hu : s.tasks[i]? = some u) (h : resumeTask config s i u = some t) :
    Move svc connection config s (.resume i : Label E C) t := by
  unfold resumeTask at h
  split at h
  · cases h
  · rename_i message f hf
    split at h
    · cases h
      exact .emitted hu hf ‹_›
    · cases h
  · rename_i event f hf
    split at h
    · cases h
      exact .woken hu hf
    · cases h
  · rename_i reply f hf
    split at h
    · cases h
      exact .replied hu hf ‹_›
    · cases h

/-- **Inversion**: a step is one of the moves. -/
theorem Step.move {s t : State E F} {a : Label E C}
    (h : Step svc connection config s a t) : Move svc connection config s a t := by
  unfold Step step at h
  cases a with
  | pollOutbound =>
      simp only at h
      split at h
      · rename_i hpc hqueue
        split at h
        · cases h
        · cases h
          exact .take hpc hqueue ‹_›
      · rename_i hpc hqueue
        split at h
        · cases h
          exact .outboundEmpty hpc hqueue ‹_›
        · cases h
      · cases h
  | pollShutdown =>
      simp only at h
      split at h
      · rename_i hpc
        split at h
        · cases h
          exact .shutdownSeen hpc
        · cases h
          exact .shutdownUnseen hpc
      · cases h
  | wake =>
      simp only at h
      split at h
      · cases h
        exact .wake ‹_›
      · cases h
  | frame msg =>
      simp only at h
      split at h
      · cases h
        exact .frame ‹_›
      · cases h
  | recvEnd =>
      simp only at h
      split at h
      · cases h
        exact .recvEnd ‹_›
      · cases h
  | sent =>
      simp only at h
      split at h
      · cases h
        exact .sent ‹_›
      · cases h
  | sendFailed =>
      simp only at h
      split at h
      · cases h
        exact .sendFailed ‹_›
      · cases h
  | acquired =>
      simp only at h
      split at h
      · rename_i hpc
        split at h
        · cases h
          exact .acquired hpc ‹_›
        · cases h
      · cases h
  | ready result =>
      simp only at h
      split at h
      · cases h
        exact .ready ‹_›
      · cases h
        exact .notReady ‹_›
      · cases h
  | poll i choice =>
      simp only at h
      split at h
      · rename_i u hu
        split at h
        · rename_i f hf
          obtain ⟨p, hp, rfl⟩ := Option.map_eq_some_iff.mp h
          exact .poll hu hf hp
        · cases h
      · cases h
  | resume i =>
      simp only at h
      split at h
      · exact resumeTask_move ‹_› h
      · cases h
  | expire i =>
      simp only at h
      split at h
      · rename_i u hu
        split at h
        · cases h
          exact .expired hu ‹_›
        · cases h
      · cases h
  | push msg =>
      simp only at h
      split at h
      · rename_i hopen
        cases h
        exact .pushed hopen.1 hopen.2
      · cases h
  | fireShutdown =>
      cases h
      exact .fireShutdown
  | drained =>
      simp only at h
      split at h
      · rename_i hd
        cases h
        exact .drained hd.1 hd.2.2 hd.2.1
      · cases h
  | deadline =>
      simp only at h
      split at h
      · rename_i hd
        cases h
        exact .deadline hd.1 hd.2
      · cases h
  | abort i =>
      simp only at h
      split at h
      · rename_i hd
        cases h
        exact .abort hd.1 hd.2
      · cases h
  | finish =>
      simp only at h
      split at h
      · rename_i hd
        cases h
        exact .finish hd.2.1 hd.2.2.1 hd.2.2.2 hd.1
      · cases h

end

end TurboMcp.Service
