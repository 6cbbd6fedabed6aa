import TurboMcp.Client.Input
import TurboMcp.Core.Serde

/-!
# Driving a task to its end

A call may be answered with a task.  `drive_task` polls a draft task at the
server's interval, answers what it asks for on the way, and returns its result;
`drive_legacy_task` polls a task of the legacy protocol and fetches the result
once it is there.  Where the task has a finite time to live, counted from when
the client learned of it, its end is when the client gives up.
-/

namespace TurboMcp.Client

open TurboMcp.Core TurboMcp.Lib

/-! ## Polling -/

/-- What driving a task asks of its surroundings. -/
inductive DriveEffect
  | request (method : String) (params : Option Value)
  /-- `Instant::now`. -/
  | now
  | sleep (ms : Nat)

def DriveEffect.Reply : DriveEffect → Type
  | .request _ _ => Except ClientError Value
  | .now => Nat
  | .sleep _ => Unit

/-- Instants count nanoseconds. -/
def DriveEffect.nanosPerMilli : Nat := 1000000

abbrev Drive := Program DriveEffect DriveEffect.Reply

/-- How driving a task ends. -/
inductive DriveEnd
  | settled (result : Except ClientError Value)
  /-- `ClientError::Timeout`, by the deadline check at that instant. -/
  | gaveUp (now : Nat)
  deriving DecidableEq

def DriveEnd.result : DriveEnd → Except ClientError Value
  | settled result => result
  | gaveUp _ => .error .timeout

/-- What one look at a task's state comes to. -/
inductive Looked
  | done (result : Except ClientError Value)
  | goOn (answered : List String)

def defaultTaskPollMs : Nat := 500

def minTaskPollMs : Nat := 10

def instantNow : Drive Nat := Program.perform DriveEffect.now

def sleepFor (ms : Nat) : Drive Unit := Program.perform (DriveEffect.sleep ms)

/-- `versioned_request`. -/
def versionedRequest (b : ClientBuilder) (version : ProtocolVersion) (method : String)
    (params : Map) : Drive (Except ClientError Value) :=
  Program.perform (DriveEffect.request method (some (.object (versionedParams b version params))))

def taskGet (b : ClientBuilder) (version : ProtocolVersion) (taskId : String) :
    Drive (Except ClientError Value) :=
  versionedRequest b version "tasks/get" [("taskId", .string taskId)]

def taskUpdate (b : ClientBuilder) (version : ProtocolVersion) (taskId : String)
    (inputResponses : Map) : Drive (Except ClientError Value) :=
  versionedRequest b version "tasks/update"
    [("taskId", .string taskId), ("inputResponses", .object inputResponses)]

/-- The deadline of a task with the time to live `ttl`; none where it is not a
`u64`. -/
def deadlineOf (ttl : Option Value) : Drive (Option Nat) :=
  match ttl.bind Value.asU64 with
  | none => pure none
  | some ms => do
      let now ← instantNow
      pure (some (now + ms * DriveEffect.nanosPerMilli))

/-- The instant, if it is past the deadline. -/
def checkDeadline : Option Nat → Drive (Option Nat)
  | none => pure none
  | some deadline => do
      let now ← instantNow
      pure (if deadline ≤ now then some now else none)

def pollInterval (current : Value) (key : String) : Nat :=
  max (((current.get key).bind Value.asU64).getD defaultTaskPollMs) minTaskPollMs

/-- The loop of both drivers, as far as `rounds` rounds of it: look at the
task, check the deadline, sleep, and poll. -/
def pollRounds (b : ClientBuilder) (version : ProtocolVersion)
    (look : List String → Value → Drive Looked) (intervalKey taskId : String)
    (deadline : Option Nat) : Nat → List String → Value → Drive (Option DriveEnd)
  | 0, _, _ => pure none
  | rounds + 1, answered, current => do
      match ← look answered current with
      | .done result => pure (some (.settled result))
      | .goOn answered =>
          match ← checkDeadline deadline with
          | some now => pure (some (.gaveUp now))
          | none =>
              sleepFor (pollInterval current intervalKey)
              match ← taskGet b version taskId with
              | .error e => pure (some (.settled (.error e)))
              | .ok current =>
                  pollRounds b version look intervalKey taskId deadline rounds answered current

/-! ## The draft's tasks -/

/-- The error a failed task carries, with defaults for what is missing. -/
def failedError (current : Value) : JsonRpcError :=
  let err := current.get "error"
  { code := (((err.bind (·.get "code")).bind Value.asI64).filter
      fun c => -2 ^ 31 ≤ c ∧ c < 2 ^ 31).getD (-32603)
    message := ((err.bind (·.get "message")).bind Value.asStr).getD "task failed"
    data := err.bind (·.get "data") }

/-- Answer each outstanding request once. -/
def answerNew (handler : ClientHandler) :
    Map → List String → Map → Except ClientError (List String × Map)
  | [], answered, responses => .ok (answered, responses)
  | (key, req) :: requests, answered, responses =>
      if key ∈ answered then answerNew handler requests answered responses
      else
        match answerInput handler req with
        | .error e => .error (.protocol ("input handler failed: " ++ e.message))
        | .ok answer =>
            answerNew handler requests (key :: answered) (Map.insert responses key answer)

/-- What `drive_task` makes of the task's state. -/
def lookAt (b : ClientBuilder) (version : ProtocolVersion) (handler : Option ClientHandler)
    (taskId : String) (answered : List String) (current : Value) : Drive Looked :=
  match (current.get "status").bind Value.asStr with
  | some "completed" =>
      pure (.done (match current.get "result" with
        | some result => .ok result
        | none => .error (.decode "completed task without a result")))
  | some "failed" => pure (.done (.error (.rpc (failedError current))))
  | some "cancelled" => pure (.done (.error (.protocol ("task " ++ taskId ++ " was cancelled"))))
  | some "input_required" =>
      match handler with
      | none =>
          pure (.done (.error (.protocol "task requires input but the client has no handler")))
      | some handler =>
          let requests := ((current.get "inputRequests").bind Value.asObject).getD []
          match answerNew handler requests answered [] with
          | .error e => pure (.done (.error e))
          | .ok (answered, []) => pure (.goOn answered)
          | .ok (answered, responses) => do
              match ← taskUpdate b version taskId responses with
              | .error e => pure (.done (.error e))
              | .ok _ => pure (.goOn answered)
  -- `working`, or a status of a newer revision
  | _ => pure (.goOn answered)

/-- `drive_task`, as far as `rounds` rounds of its loop. -/
def driveTask (b : ClientBuilder) (version : ProtocolVersion) (handler : Option ClientHandler)
    (rounds : Nat) (current : Value) : Drive (Option DriveEnd) :=
  match (current.get "taskId").bind Value.asStr with
  | none => pure (some (.settled (.error (.decode "CreateTaskResult without a taskId"))))
  | some taskId => do
      let deadline ← deadlineOf (current.get "ttlMs")
      pollRounds b version (lookAt b version handler taskId) "pollIntervalMs" taskId deadline
        rounds [] current

/-! ## The legacy tasks -/

/-- What `drive_legacy_task` makes of the task's state. -/
def lookAtLegacy (b : ClientBuilder) (version : ProtocolVersion) (taskId : String)
    (answered : List String) (current : Value) : Drive Looked :=
  match (current.get "status").bind Value.asStr with
  | some "completed" | some "failed" => do
      let result ← versionedRequest b version "tasks/result" [("taskId", .string taskId)]
      pure (.done result)
  | some "cancelled" => pure (.done (.error (.protocol ("task " ++ taskId ++ " was cancelled"))))
  | _ => pure (.goOn answered)

/-- `drive_legacy_task`, as far as `rounds` rounds of its loop. -/
def driveLegacyTask (b : ClientBuilder) (version : ProtocolVersion) (rounds : Nat)
    (current : Value) : Drive (Option DriveEnd) :=
  match (current.get "taskId").bind Value.asStr with
  | none => pure (some (.settled (.error (.decode "CreateTaskResult without a taskId"))))
  | some taskId => do
      let deadline ← deadlineOf (current.get "ttl")
      pollRounds b version (lookAtLegacy b version taskId) "pollInterval" taskId deadline
        rounds [] current

/-! ## When the client gives up -/

open Program

/-- Clock readings at or after `start`, and any answers from the server. -/
def Since (start : Nat) : (e : DriveEffect) → e.Reply → Prop
  | .now, r => start ≤ (r : Nat)
  | _, _ => True

variable {A : (e : DriveEffect) → e.Reply → Prop} {b : ClientBuilder} {version : ProtocolVersion}
  {start now : Nat}

theorem yields_instantNow {α : Type} {f : Nat → Drive α} {a : α} :
    Yields A (instantNow >>= f) a ↔ ∃ r : Nat, A .now r ∧ Yields A (f r) a := yields_call

theorem yields_checkDeadline {deadline : Option Nat} {r : Option Nat} :
    Yields A (checkDeadline deadline) r ↔ match deadline with
      | none => r = none
      | some d => ∃ now : Nat, A .now now ∧ r = if d ≤ now then some now else none := by
  rcases deadline with _ | d
  · exact yields_ret
  · unfold checkDeadline
    rw [yields_instantNow]
    simp only [pure_eq, yields_ret]

/-- Whoever gives up does so past the deadline. -/
theorem deadline_of_gaveUp {look : List String → Value → Drive Looked}
    {intervalKey taskId : String} {deadline : Option Nat} {rounds : Nat} {answered : List String}
    {current : Value}
    (h : Yields A (pollRounds b version look intervalKey taskId deadline rounds answered current)
      (some (.gaveUp now))) : ∃ d, deadline = some d ∧ d ≤ now := by
  induction rounds generalizing answered current with
  | zero => cases yields_ret.mp h
  | succ rounds ih =>
      unfold pollRounds at h
      obtain ⟨looked, -, h⟩ := yields_bind.mp h
      rcases looked with result | answered
      · cases yields_ret.mp h
      · obtain ⟨past, hpast, h⟩ := yields_bind.mp h
        rcases past with _ | now'
        · -- another round
          obtain ⟨-, -, h⟩ := yields_bind.mp h
          obtain ⟨polled, -, h⟩ := yields_bind.mp h
          rcases polled with e | current'
          · cases yields_ret.mp h
          · exact ih h
        · cases yields_ret.mp h
          rw [yields_checkDeadline] at hpast
          rcases deadline with _ | d
          · cases hpast
          · obtain ⟨now', -, heq⟩ := hpast
            split at heq
            · rename_i hle
              obtain rfl := Option.some.inj heq
              exact ⟨d, rfl, hle⟩
            · cases heq

theorem yields_deadlineOf {ttl : Option Value} {r : Option Nat} :
    Yields A (deadlineOf ttl) r ↔ match ttl.bind Value.asU64 with
      | none => r = none
      | some ms => ∃ now : Nat, A .now now ∧ r = some (now + ms * DriveEffect.nanosPerMilli) := by
  unfold deadlineOf
  rcases ttl.bind Value.asU64 with _ | ms
  · exact yields_ret
  · dsimp only
    rw [yields_instantNow]
    simp only [pure_eq, yields_ret]

/-- The time to live has passed since the client started to count. -/
theorem elapsed_of_gaveUp {look : List String → Value → Drive Looked}
    {intervalKey taskId : String} {ttl : Option Value} {rounds : Nat} {current : Value}
    (h : Yields (Since start) (deadlineOf ttl >>= fun deadline =>
      pollRounds b version look intervalKey taskId deadline rounds [] current)
      (some (.gaveUp now))) :
    ∃ ms, ttl.bind Value.asU64 = some ms ∧ start + ms * DriveEffect.nanosPerMilli ≤ now := by
  obtain ⟨deadline, hdeadline, h⟩ := yields_bind.mp h
  obtain ⟨d, rfl, hle⟩ := deadline_of_gaveUp h
  rw [yields_deadlineOf] at hdeadline
  rcases hms : ttl.bind Value.asU64 with _ | ms
  · rw [hms] at hdeadline
    cases hdeadline
  · rw [hms] at hdeadline
    obtain ⟨r, hr, heq⟩ := hdeadline
    have hstart : start ≤ r := hr
    obtain rfl := Option.some.inj heq
    exact ⟨ms, rfl, by omega⟩

/-- A task that is still running is given up as soon as its time to live has passed. -/
theorem gaveUp_of_elapsed {look : List String → Value → Drive Looked}
    {intervalKey taskId : String} {ttl : Option Value} {current : Value} {ms : Nat}
    (hms : ttl.bind Value.asU64 = some ms)
    (hlook : Yields (Since start) (look [] current) (.goOn [])) :
    Yields (Since start) (deadlineOf ttl >>= fun deadline =>
      pollRounds b version look intervalKey taskId deadline 1 [] current)
      (some (.gaveUp (start + ms * DriveEffect.nanosPerMilli))) := by
  refine yields_bind.mpr ⟨some (start + ms * DriveEffect.nanosPerMilli), ?_, ?_⟩
  · rw [yields_deadlineOf, hms]
    exact ⟨start, Nat.le_refl start, rfl⟩
  · unfold pollRounds
    refine yields_bind.mpr ⟨.goOn [], hlook, ?_⟩
    refine yields_bind.mpr ⟨some (start + ms * DriveEffect.nanosPerMilli), ?_, yields_ret.mpr rfl⟩
    rw [yields_checkDeadline]
    exact ⟨_, Nat.le_add_right start _, (if_pos (Nat.le_refl _)).symm⟩

variable {handler : Option ClientHandler} {rounds : Nat} {current : Value}

theorem driveTask_gaveUp
    (h : Yields (Since start) (driveTask b version handler rounds current) (some (.gaveUp now))) :
    ∃ ms, (current.get "ttlMs").bind Value.asU64 = some ms ∧
      start + ms * DriveEffect.nanosPerMilli ≤ now := by
  unfold driveTask at h
  rcases hid : (current.get "taskId").bind Value.asStr with _ | taskId
  · rw [hid] at h
    cases yields_ret.mp h
  · rw [hid] at h
    exact elapsed_of_gaveUp h

theorem driveTask_gives_up {taskId : String} {ms : Nat}
    (hid : (current.get "taskId").bind Value.asStr = some taskId)
    (hstatus : (current.get "status").bind Value.asStr = some "working")
    (hms : (current.get "ttlMs").bind Value.asU64 = some ms) :
    Yields (Since start) (driveTask b version handler 1 current)
      (some (.gaveUp (start + ms * DriveEffect.nanosPerMilli))) := by
  unfold driveTask
  rw [hid]
  refine gaveUp_of_elapsed hms ?_
  unfold lookAt
  rw [hstatus]
  exact yields_ret.mpr rfl

theorem driveLegacyTask_gaveUp
    (h : Yields (Since start) (driveLegacyTask b version rounds current) (some (.gaveUp now))) :
    ∃ ms, (current.get "ttl").bind Value.asU64 = some ms ∧
      start + ms * DriveEffect.nanosPerMilli ≤ now := by
  unfold driveLegacyTask at h
  rcases hid : (current.get "taskId").bind Value.asStr with _ | taskId
  · rw [hid] at h
    cases yields_ret.mp h
  · rw [hid] at h
    exact elapsed_of_gaveUp h

theorem driveLegacyTask_gives_up {taskId : String} {ms : Nat}
    (hid : (current.get "taskId").bind Value.asStr = some taskId)
    (hstatus : (current.get "status").bind Value.asStr = some "working")
    (hms : (current.get "ttl").bind Value.asU64 = some ms) :
    Yields (Since start) (driveLegacyTask b version 1 current)
      (some (.gaveUp (start + ms * DriveEffect.nanosPerMilli))) := by
  unfold driveLegacyTask
  rw [hid]
  refine gaveUp_of_elapsed hms ?_
  unfold lookAtLegacy
  rw [hstatus]
  exact yields_ret.mpr rfl

end TurboMcp.Client
