import TurboMcp.Client.Watching
import TurboMcp.ExtTasks.Dispatch
import TurboMcp.ExtTasks.Inputs
import TurboMcp.System.Inline

/-!
# A call that runs as a task

The server has answered a call with a task and runs its handler on the side.  The
handler publishes what it asks as an input request of the task and awaits its channel;
the client polls the task, answers what it finds asked, and takes the task's outcome for
the call's.  The two meet in the store alone, where others are at work as well: on other
tasks, on this one as far as they look at it or cancel it.
-/

namespace TurboMcp.System.Mediation

open TurboMcp.Core TurboMcp.Lib TurboMcp.Server TurboMcp.Client TurboMcp.ExtTasks

/-! ## The two sides -/

/-- What does not change while the call runs. -/
structure Setting (N : Type) where
  rfc3339 : Nat → String
  id : String
  cancel : Token
  /-- The handler's result as a `CallToolResult` of the draft. -/
  render : N → Value
  builder : ClientBuilder
  version : ProtocolVersion
  client : ClientHandler

/-- Where the spawned call is. -/
inductive Running (N : Type)
  | at (p : Obtaining (Except McpError N))
  | awaiting (rx : Channel) (k : Except McpError Value → Obtaining (Except McpError N))
  | finished

structure State (N : Type) where
  timeline : Timeline
  handler : Running N
  client : Drive (Option DriveEnd)
  /-- What the client has sent in its updates so far. -/
  responses : Map

variable {N : Type}

/-- What the spawned call leaves in the store. -/
def outcomeOf (render : N → Value) : Except McpError N → TaskOutcome
  | .ok result => .completed (render result)
  | .error e => .failed (mcpToJsonrpcError e)

def notLive : McpError :=
  .internal "the task is no longer live; client input is unavailable"

/-- The responses in the client's request. -/
def sentIn (method : String) (params : Option Value) : Map :=
  if method = "tasks/update" then TasksExtension.inputResponses params else Map.empty

/-- The extension's answer, as it reaches the client. -/
def replyOf : Except JsonRpcError Value → Except ClientError Value
  | .ok v => .ok v
  | .error e => .error (.rpc e)

/-! ## Steps -/

/-- A call of someone else: not one of the task's handler or of its client. -/
def Foreign (id : String) (c : DraftTaskStore.Call) : Prop :=
  match c.op with
  | .publishInput task _ _ _ | .deliverInputs task _ | .complete task _ => task ≠ id
  | .create _ _ _ _ | .cancel _ | .get _ => True

/-- What happens next. -/
inductive Act
  /-- The handler's next ask reaches the store, with a new channel. -/
  | publish (now nowWall : Nat) (rx : Channel)
  | resume (reply : Except McpError Value)
  | complete (now nowWall : Nat)
  /-- The client's next effect, at the server's and the client's time. -/
  | client (now nowWall clock : Nat)
  | other (c : DraftTaskStore.Call)

inductive Step (x : Setting N) : State N → Act → State N → Prop
  | publish {s : State N} {now nowWall : Nat} {rx : Channel} {key : String} {request : Value}
      {k : Except McpError Value → Obtaining (Except McpError N)} {timeline : Timeline}
      (hhandler : s.handler = .at (.call ⟨key, request⟩ k))
      (htimeline : Timeline.Step s.timeline
        ⟨now, nowWall, .publishInput x.id key request rx⟩ timeline) :
      Step x s (.publish now nowWall rx)
        { s with
          timeline
          handler :=
            match (s.timeline.store.publishInput now nowWall x.id key request rx).2 with
            | some rx => .awaiting rx k
            | none => .at (k (.error notLive)) }
  | resume {s : State N} {rx : Channel} {reply : Except McpError Value}
      {k : Except McpError Value → Obtaining (Except McpError N)}
      (hhandler : s.handler = .awaiting rx k)
      (hobtains : Obtains s.timeline.store x.cancel rx reply) :
      Step x s (.resume reply) { s with handler := .at (k reply) }
  | complete {s : State N} {now nowWall : Nat} {r : Except McpError N} {timeline : Timeline}
      (hhandler : s.handler = .at (.ret r))
      (htimeline : Timeline.Step s.timeline
        ⟨now, nowWall, .complete x.id (outcomeOf x.render r)⟩ timeline) :
      Step x s (.complete now nowWall) { s with timeline, handler := .finished }
  | request {s : State N} {now nowWall clock : Nat} {method : String} {params : Option Value}
      {k : Except ClientError Value → Drive (Option DriveEnd)}
      (hclient : s.client = .call (.request method params) k) :
      Step x s (.client now nowWall clock)
        { s with
          timeline :=
            { s.timeline with
              store := (TasksExtension.dispatch x.rfc3339 now nowWall s.timeline.store method
                params).1 }
          client := k (replyOf (TasksExtension.dispatch x.rfc3339 now nowWall s.timeline.store
            method params).2)
          responses := s.responses ++ sentIn method params }
  | clock {s : State N} {now nowWall clock : Nat} {k : Nat → Drive (Option DriveEnd)}
      (hclient : s.client = .call .now k) :
      Step x s (.client now nowWall clock) { s with client := k clock }
  | sleep {s : State N} {now nowWall clock ms : Nat} {k : Unit → Drive (Option DriveEnd)}
      (hclient : s.client = .call (.sleep ms) k) :
      Step x s (.client now nowWall clock) { s with client := k () }
  | other {s : State N} {c : DraftTaskStore.Call} {timeline : Timeline}
      (hforeign : Foreign x.id c) (htimeline : Timeline.Step s.timeline c timeline) :
      Step x s (.other c) { s with timeline }

/-! ## Running it -/

def publishCall (x : Setting N) (now nowWall : Nat) (o : Obtain) (rx : Channel) :
    DraftTaskStore.Call :=
  ⟨now, nowWall, .publishInput x.id o.key o.request rx⟩

def completeCall (x : Setting N) (now nowWall : Nat) (r : Except McpError N) :
    DraftTaskStore.Call :=
  ⟨now, nowWall, .complete x.id (outcomeOf x.render r)⟩

/-- The state after an act that can be taken. -/
def next (x : Setting N) (s : State N) : Act → State N
  | .publish now nowWall rx =>
      match s.handler with
      | .at (.call o k) =>
          { s with
            timeline := s.timeline.next (publishCall x now nowWall o rx)
            handler :=
              match (s.timeline.store.publishInput now nowWall x.id o.key o.request rx).2 with
              | some rx => .awaiting rx k
              | none => .at (k (.error notLive)) }
      | _ => s
  | .resume reply =>
      match s.handler with
      | .awaiting _ k => { s with handler := .at (k reply) }
      | _ => s
  | .complete now nowWall =>
      match s.handler with
      | .at (.ret r) =>
          { s with
            timeline := s.timeline.next (completeCall x now nowWall r)
            handler := .finished }
      | _ => s
  | .client now nowWall clock =>
      match s.client with
      | .call (.request method params) k =>
          let (store, reply) :=
            TasksExtension.dispatch x.rfc3339 now nowWall s.timeline.store method params
          { s with
            timeline := { s.timeline with store }
            client := k (replyOf reply)
            responses := s.responses ++ sentIn method params }
      | .call .now k => { s with client := k clock }
      | .call (.sleep _) k => { s with client := k () }
      | .ret _ => s
  | .other c => { s with timeline := s.timeline.next c }

/-- Whether it can: the handler is resumed with what it was sent, and nobody else calls. -/
def allowed (x : Setting N) (s : State N) : Act → Bool
  | .publish now nowWall rx =>
      match s.handler with
      | .at (.call o _) => s.timeline.brings (publishCall x now nowWall o rx)
      | _ => false
  | .resume reply =>
      match s.handler, reply with
      | .awaiting rx _, .ok v => (rx, v) ∈ s.timeline.store.sent
      | _, _ => false
  | .complete now nowWall =>
      match s.handler with
      | .at (.ret r) => s.timeline.brings (completeCall x now nowWall r)
      | _ => false
  | .client _ _ _ =>
      match s.client with
      | .call _ _ => true
      | .ret _ => false
  | .other _ => false

theorem step_next (x : Setting N) (s : State N) (a : Act) (h : allowed x s a = true) :
    Step x s a (next x s a) := by
  obtain ⟨timeline, handler, client, responses⟩ := s
  cases a with
  | publish now nowWall rx =>
      rcases handler with (_ | ⟨o, k⟩) | ⟨rx', k⟩ | _
      · cases h
      · exact .publish rfl (Timeline.step_next _ _ h)
      · cases h
      · cases h
  | resume reply =>
      rcases handler with p | ⟨rx, k⟩ | _
      · cases h
      · rcases reply with e | v
        · cases h
        · exact .resume rfl (.response (of_decide_eq_true h))
      · cases h
  | complete now nowWall =>
      rcases handler with (r | _) | ⟨rx', k⟩ | _
      · exact .complete rfl (Timeline.step_next _ _ h)
      · cases h
      · cases h
      · cases h
  | client now nowWall clock =>
      rcases client with _ | ⟨effect, k⟩
      · cases h
      · cases effect with
        | request method params => exact .request rfl
        | now => exact .clock rfl
        | sleep ms => exact .sleep rfl
  | other c => cases h

/-! ## Creation and end -/

/-- The `CreateTaskResult` of a task created as `e`. -/
def created (x : Setting N) (e : Entry) : Value :=
  .object (("resultType", .string "task") :: (e.base x.id).fields x.rfc3339)

/-- The task has been created as `e`, and nothing else has happened yet. -/
def start (x : Setting N) (timeline : Timeline) (e : Entry)
    (p : Obtaining (Except McpError N)) (rounds : Nat) : State N where
  timeline
  handler := .at p
  client := driveTask x.builder x.version (some x.client) rounds (created x e)
  responses := Map.empty

/-- A call that has just become a task, in some run of the store; its client goes
through its loop `rounds` times at most. -/
inductive Begins (x : Setting N) (p : Obtaining (Except McpError N)) : State N → Prop
  | intro {capacity : Nat} {before : List (DraftTaskStore.Call × Timeline)}
      (hbefore : Run Timeline.Step (Timeline.initial capacity) before) {now nowWall : Nat}
      {ttlMs pollIntervalMs : Option Int}
      (hcreated : (final (Timeline.initial capacity) before).store.inner.get x.id =
        some (.fresh now nowWall ttlMs pollIntervalMs x.cancel)) (rounds : Nat) :
      Begins x p (start x (final (Timeline.initial capacity) before)
        (.fresh now nowWall ttlMs pollIntervalMs x.cancel) p rounds)

/-- What the call comes to at the client. -/
def ending (render : N → Value) : Except McpError N → Except ClientError Value
  | .ok result => .ok (render result)
  | .error e => .error (.rpc (mcpToJsonrpcError e))

/-! ## The client's requests -/

section

variable (b : ClientBuilder) (version : ProtocolVersion) (id : String) (responses : Map)

theorem parseTaskId_get : TasksExtension.parseTaskId (getParams b version id) = .ok id := rfl

theorem parseTaskId_update :
    TasksExtension.parseTaskId (updateParams b version id responses) = .ok id := rfl

theorem inputResponses_update :
    TasksExtension.inputResponses (updateParams b version id responses) = responses := rfl

end

end TurboMcp.System.Mediation
