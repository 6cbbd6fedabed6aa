import TurboMcp.Client.Driving
import TurboMcp.ExtTasks.Subs
import TurboMcp.Server.Dispatcher
import TurboMcp.Server.Tasks

/-!
# Who gives a task up first

Client and server both count a task's time to live, the server from when it
created the task, the client from when it learned of it.  The two agree but at
zero, which the draft's store takes for unlimited and the client for a time
that is up at once, and at the very instant, which the client counts in and the
server does not.
-/

namespace TurboMcp.System

open TurboMcp.Core TurboMcp.Client TurboMcp.Lib TurboMcp.Lib.Program

/-- `CreateTaskResult` of the draft on the wire. -/
def createTaskResult (rfc3339 : Nat → String) (task : ExtTasks.Task) : Value :=
  .object (("resultType", .string "task") :: task.fields rfc3339)

variable {rfc3339 : Nat → String} {b : ClientBuilder} {version : ProtocolVersion}
  {handler : Option ClientHandler} {start : Nat}

/-- Wherever a driver started at `start` gives up, the server takes the task
for expired. -/
def Lenient (start : Nat) (drive : Nat → Drive (Option DriveEnd)) (expired : Nat → Bool) : Prop :=
  ∀ rounds now, Yields (Since start) (drive rounds) (some (.gaveUp now)) → expired now = true

/-! ## The draft -/

theorem get_createTaskResult (rfc3339 : Nat → String) (task : ExtTasks.Task) :
    ((createTaskResult rfc3339 task).get "taskId").bind Value.asStr = some task.taskId ∧
    ((createTaskResult rfc3339 task).get "status").bind Value.asStr = some task.status.asStr ∧
    (createTaskResult rfc3339 task).get "ttlMs" = some (ExtTasks.optionalInt task.ttlMs) := by
  obtain ⟨id, status, message, createdAt, updatedAt, ttlMs, poll⟩ := task
  refine ⟨rfl, rfl, ?_⟩
  rcases message with _ | message
  · rfl
  · rfl

/-- When the client's count can only end once the server's has. -/
def CountsLonger (e : ExtTasks.Entry) (start : Nat) : Prop :=
  match e.ttlMs with
  | none => True
  | some ms => ms < 0 ∨ 0 < ms ∧ e.created < start

theorem driveTask_lenient_iff (e : ExtTasks.Entry) (id : String) (hworking : e.status = .working) :
    Lenient start (fun rounds => driveTask b version handler rounds
      (createTaskResult rfc3339 (e.base id))) e.expired ↔ CountsLonger e start := by
  obtain ⟨hid, hstatus, httl⟩ := get_createTaskResult rfc3339 (e.base id)
  replace hstatus : ((createTaskResult rfc3339 (e.base id)).get "status").bind Value.asStr =
      some "working" := by
    rw [hstatus]
    show some e.status.asStr = some "working"
    rw [hworking]
    rfl
  replace httl : (createTaskResult rfc3339 (e.base id)).get "ttlMs" =
      some (ExtTasks.optionalInt e.ttlMs) := httl
  unfold Lenient CountsLonger
  constructor
  · intro h
    rcases hms : e.ttlMs with _ | ms
    · trivial
    · dsimp only
      by_cases hneg : ms < 0
      · exact Or.inl hneg
      · have hpos : 0 ≤ ms := Int.not_lt.mp hneg
        -- the client gives up as soon as it may
        rw [hms] at httl
        have hread : ((createTaskResult rfc3339 (e.base id)).get "ttlMs").bind Value.asU64 =
            some ms.toNat := by
          rw [httl]
          exact if_pos hpos
        have hexp := h 1 _ (driveTask_gives_up hid hstatus hread)
        unfold ExtTasks.Entry.expired at hexp
        rw [hms] at hexp
        dsimp only at hexp
        split at hexp
        · cases hexp
        · rw [decide_eq_true_eq] at hexp
          unfold ExtTasks.nanosPerMilli DriveEffect.nanosPerMilli at hexp
          exact Or.inr ⟨by omega, by omega⟩
  · intro h rounds now hgave
    obtain ⟨n, hread, hle⟩ := driveTask_gaveUp hgave
    rw [httl] at hread
    unfold ExtTasks.Entry.expired
    rcases hms : e.ttlMs with _ | ms
    · rw [hms] at hread
      cases hread
    · rw [hms] at h hread
      dsimp only at h ⊢
      replace hread : (if 0 ≤ ms then some ms.toNat else none) = some n := hread
      split at hread
      · obtain rfl := Option.some.inj hread
        rcases h with hneg | ⟨hpos, hlt⟩
        · omega
        · rw [if_neg (by omega), decide_eq_true_eq]
          unfold ExtTasks.nanosPerMilli
          unfold DriveEffect.nanosPerMilli at hle
          omega
      · cases hread

/-! ## The legacy tasks -/

theorem get_wireTask (snap : Server.TaskSnapshot) (pollIntervalMs : Int) :
    ((Server.wireTask snap pollIntervalMs).get "taskId").bind Value.asStr = some snap.taskId ∧
    (Server.wireTask snap pollIntervalMs).get "status" = some snap.status.toValue ∧
    (Server.wireTask snap pollIntervalMs).get "ttl" = some (.int snap.ttlMs) := by
  obtain ⟨id, status, message, createdAt, updatedAt, ttlMs⟩ := snap
  rcases message with _ | message
  · exact ⟨rfl, rfl, rfl⟩
  · exact ⟨rfl, rfl, rfl⟩

theorem driveLegacyTask_lenient_iff (e : Server.TaskEntry) (id : String) (pollIntervalMs : Int)
    (hworking : e.status = .working) :
    Lenient start (fun rounds => driveLegacyTask b version rounds
      (Server.wireTask (e.snapshot rfc3339 id) pollIntervalMs)) e.expired ↔
        e.ttlMs < 0 ∨ e.created < start := by
  obtain ⟨hid, hstatus, httl⟩ := get_wireTask (e.snapshot rfc3339 id) pollIntervalMs
  replace hstatus : ((Server.wireTask (e.snapshot rfc3339 id) pollIntervalMs).get "status").bind
      Value.asStr = some "working" := by
    rw [hstatus]
    show e.status.toValue.asStr = some "working"
    rw [hworking]
    rfl
  replace httl : ((Server.wireTask (e.snapshot rfc3339 id) pollIntervalMs).get "ttl").bind
      Value.asU64 = if 0 ≤ e.ttlMs then some e.ttlMs.toNat else none := by
    rw [httl]
    rfl
  unfold Lenient
  constructor
  · intro h
    by_cases hneg : e.ttlMs < 0
    · exact Or.inl hneg
    · have hpos : 0 ≤ e.ttlMs := Int.not_lt.mp hneg
      rw [if_pos hpos] at httl
      have hexp := h 1 _ (driveLegacyTask_gives_up hid hstatus httl)
      unfold Server.TaskEntry.expired at hexp
      rw [decide_eq_true_eq] at hexp
      unfold Server.TaskEntry.nanosPerMilli DriveEffect.nanosPerMilli at hexp
      exact Or.inr (by omega)
  · intro h rounds now hgave
    obtain ⟨n, hread, hle⟩ := driveLegacyTask_gaveUp hgave
    rw [httl] at hread
    split at hread
    · obtain rfl := Option.some.inj hread
      unfold Server.TaskEntry.expired
      rw [decide_eq_true_eq]
      unfold Server.TaskEntry.nanosPerMilli
      unfold DriveEffect.nanosPerMilli at hle
      omega
    · cases hread

/-- **The backstop**: the client gives a draft task up only when the server
takes it for expired, exactly if its time to live is none, negative, or
positive and counted from after the creation; a legacy task, exactly if it is
counted from after the creation, or negative. -/
theorem backstop_iff (rfc3339 : Nat → String) (b : ClientBuilder) (version : ProtocolVersion)
    (handler : Option ClientHandler) (e : ExtTasks.Entry) (e' : Server.TaskEntry) (id : String)
    (pollIntervalMs : Int) (start : Nat) (hworking : e.status = .working)
    (hworking' : e'.status = .working) :
    (Lenient start (fun rounds => driveTask b version handler rounds
      (createTaskResult rfc3339 (e.base id))) e.expired ↔ CountsLonger e start) ∧
    (Lenient start (fun rounds => driveLegacyTask b version rounds
      (Server.wireTask (e'.snapshot rfc3339 id) pollIntervalMs)) e'.expired ↔
        e'.ttlMs < 0 ∨ e'.created < start) :=
  ⟨driveTask_lenient_iff e id hworking, driveLegacyTask_lenient_iff e' id pollIntervalMs hworking'⟩

/-- A client as any. -/
def plainClient : ClientBuilder :=
  { clientInfo := { name := "c", title := none, version := "1" }, capabilities := .object []
    connectMode := .auto }

/-- A task of the draft that lives for `ttlMs`, as it is created. -/
def draftEntry (ttlMs : Option Int) : ExtTasks.Entry :=
  { status := .working, statusMessage := none, createdWall := 0, updatedWall := 0, created := 0
    ttlMs, pollIntervalMs := none, outcome := none, cancel := 0
    inputs := { outstanding := Dict.empty, waiters := Dict.empty, used := [] } }

def legacyEntry (ttlMs : Int) : Server.TaskEntry :=
  { sessionId := "s", status := .working, statusMessage := none, createdWall := 0
    updatedWall := 0, created := 0, ttlMs, outcome := none, cancel := 0, notify := 0 }

theorem backstop_minute :
    Lenient 1 (fun rounds => driveTask plainClient .draft none rounds
      (createTaskResult (fun _ => "") ((draftEntry (some 60000)).base "t")))
        (draftEntry (some 60000)).expired ∧
    Lenient 1 (fun rounds => driveLegacyTask plainClient .v2025_11_25 rounds
      (Server.wireTask ((legacyEntry 60000).snapshot (fun _ => "") "t") 500))
        (legacyEntry 60000).expired := by
  obtain ⟨hdraft, -⟩ := backstop_iff (fun _ => "") plainClient .draft none
    (draftEntry (some 60000)) (legacyEntry 60000) "t" 500 1 rfl rfl
  obtain ⟨-, hlegacy⟩ := backstop_iff (fun _ => "") plainClient .v2025_11_25 none
    (draftEntry (some 60000)) (legacyEntry 60000) "t" 500 1 rfl rfl
  exact ⟨hdraft.mpr (Or.inr (by decide)), hlegacy.mpr (by decide)⟩

/-- A task that the server never drops, and the client gives up at once. -/
theorem gaveUp_unlimited :
    Yields (Since 1) (driveTask plainClient .draft none 1
      (createTaskResult (fun _ => "") ((draftEntry (some 0)).base "t"))) (some (.gaveUp 1)) ∧
    (draftEntry (some 0)).expired 1 = false := by
  refine ⟨?_, by decide⟩
  have hread : ((createTaskResult (fun _ => "") ((draftEntry (some 0)).base "t")).get
      "ttlMs").bind Value.asU64 = some 0 := rfl
  exact driveTask_gives_up rfl rfl hread

end TurboMcp.System
