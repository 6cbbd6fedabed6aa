import TurboMcp.ExtTasks.Store
import TurboMcp.Core.Meta

/-!
# Task-status subscriptions

`TaskSubscriptions` maps each task id to the listen streams that asked for its
status.  The entries are keyed by task: an entry goes away only with its
connection, when a push finds that connection gone.
-/

namespace TurboMcp.ExtTasks

open TurboMcp.Core TurboMcp.Lib

def extensionId : String := "io.modelcontextprotocol/tasks"

def notificationsTasks : String := "notifications/tasks"

/-- One listening endpoint. -/
structure Subscriber where
  connection : String
  subscriptionId : RequestId
  deriving DecidableEq

/-- The subscribers of each task. -/
abbrev TaskSubscriptions := Dict String (List Subscriber)

namespace TaskSubscriptions

/-- The subscribers of one task. -/
def subscribers (subs : TaskSubscriptions) (taskId : String) : List Subscriber :=
  (subs.get taskId).getD []

/-- One id of a `subscribe`. -/
def subscribeOne (subscriber : Subscriber) (subs : TaskSubscriptions) (taskId : String) :
    TaskSubscriptions :=
  let list := subs.subscribers taskId
  subs.insert taskId (if subscriber ∈ list then list else list ++ [subscriber])

/-- Record that a listen request wants the status of `taskIds`. -/
def subscribe (subs : TaskSubscriptions) (subscriber : Subscriber) (taskIds : List String) :
    TaskSubscriptions :=
  taskIds.foldl (subscribeOne subscriber) subs

/-- Drop a connection from every task; a task left without subscribers goes too. -/
def dropConnection (subs : TaskSubscriptions) (connection : String) : TaskSubscriptions :=
  { entries := (subs.entries.map fun e =>
      (e.1, e.2.filter fun s => s.connection ≠ connection)).filter fun e => !e.2.isEmpty
    nodup := by
      have hmap : (subs.entries.map fun e =>
          (e.1, e.2.filter fun s => s.connection ≠ connection)).map Prod.fst =
            subs.entries.map Prod.fst := by
        rw [List.map_map]
        rfl
      refine List.Nodup.sublist (List.filter_sublist.map _) ?_
      rw [hmap]
      exact subs.nodup }

/-! ### Who is subscribed to what -/

theorem mem_subscribers_subscribeOne (subs : TaskSubscriptions) (subscriber : Subscriber)
    (taskId : String) (s : Subscriber) (t : String) :
    s ∈ (subscribeOne subscriber subs taskId).subscribers t ↔
      s ∈ subs.subscribers t ∨ s = subscriber ∧ t = taskId := by
  unfold subscribeOne subscribers
  rw [Dict.get_insert]
  by_cases ht : taskId = t
  · subst ht
    rw [if_pos rfl, Option.getD_some]
    split
    · rename_i hmem
      constructor
      · exact Or.inl
      · rintro (h | ⟨rfl, -⟩)
        · exact h
        · exact hmem
    · simp
  · rw [if_neg ht]
    simp [Ne.symm ht]

theorem mem_subscribers_subscribe (subs : TaskSubscriptions) (subscriber : Subscriber)
    (taskIds : List String) (s : Subscriber) (t : String) :
    s ∈ (subs.subscribe subscriber taskIds).subscribers t ↔
      s ∈ subs.subscribers t ∨ s = subscriber ∧ t ∈ taskIds := by
  unfold subscribe
  induction taskIds generalizing subs with
  | nil => simp
  | cons taskId taskIds ih =>
      rw [List.foldl_cons, ih, mem_subscribers_subscribeOne, List.mem_cons]
      constructor
      · rintro ((h | ⟨hs, ht⟩) | ⟨hs, ht⟩)
        · exact Or.inl h
        · exact Or.inr ⟨hs, Or.inl ht⟩
        · exact Or.inr ⟨hs, Or.inr ht⟩
      · rintro (h | ⟨hs, ht | ht⟩)
        · exact Or.inl (Or.inl h)
        · exact Or.inl (Or.inr ⟨hs, ht⟩)
        · exact Or.inr ⟨hs, ht⟩

theorem subscribeOne_of_mem {subs : TaskSubscriptions} {subscriber : Subscriber}
    {taskId : String} (h : subscriber ∈ subs.subscribers taskId) :
    subscribeOne subscriber subs taskId = subs := by
  unfold subscribeOne
  simp only [if_pos h]
  apply Dict.insert_of_get
  unfold subscribers at h ⊢
  cases hget : subs.get taskId with
  | none => simp [hget] at h
  | some list => rfl

/-- A subscriber of every task already is recorded nowhere new. -/
theorem subscribe_eq_self_iff (subs : TaskSubscriptions) (subscriber : Subscriber)
    (taskIds : List String) :
    subs.subscribe subscriber taskIds = subs ↔
      ∀ taskId ∈ taskIds, subscriber ∈ subs.subscribers taskId := by
  constructor
  · intro h taskId htask
    rw [← h, mem_subscribers_subscribe]
    exact Or.inr ⟨rfl, htask⟩
  · intro h
    unfold subscribe
    induction taskIds with
    | nil => rfl
    | cons taskId taskIds ih =>
        rw [List.foldl_cons, subscribeOne_of_mem (h taskId (List.mem_cons_self ..))]
        exact ih fun t ht => h t (List.mem_cons_of_mem _ ht)

theorem mem_subscribers_dropConnection (subs : TaskSubscriptions) (connection : String)
    (s : Subscriber) (t : String) :
    s ∈ (subs.dropConnection connection).subscribers t ↔
      s ∈ subs.subscribers t ∧ s.connection ≠ connection := by
  have hmem (m : TaskSubscriptions) :
      s ∈ m.subscribers t ↔ ∃ list, (t, list) ∈ m.entries ∧ s ∈ list := by
    unfold subscribers
    constructor
    · intro h
      cases hget : m.get t with
      | none => simp [hget] at h
      | some list =>
          rw [hget, Option.getD_some] at h
          exact ⟨list, (Dict.get_eq_some_iff ..).mp hget, h⟩
    · rintro ⟨list, hlist, h⟩
      rw [(Dict.get_eq_some_iff ..).mpr hlist]
      exact h
  rw [hmem, hmem]
  constructor
  · rintro ⟨list, hlist, hs⟩
    have hlist := List.mem_of_mem_filter hlist
    rw [List.mem_map] at hlist
    obtain ⟨⟨t', list'⟩, hmem', heq⟩ := hlist
    cases heq
    rw [List.mem_filter] at hs
    exact ⟨⟨list', hmem', hs.1⟩, by simpa using hs.2⟩
  · rintro ⟨⟨list, hlist, hs⟩, hne⟩
    have hs' : s ∈ list.filter fun s => s.connection ≠ connection :=
      List.mem_filter.mpr ⟨hs, by simpa using hne⟩
    refine ⟨_, List.mem_filter.mpr ⟨List.mem_map.mpr ⟨(t, list), hlist, rfl⟩, ?_⟩, hs'⟩
    simpa using List.ne_nil_of_mem hs'

end TaskSubscriptions

/-! ## `on_subscribe` -/

/-- The `taskIds` filter, where there is a non-empty one. -/
def taskIdsFilter (notifications : Value) : Option (List Value) :=
  match (notifications.get "taskIds").bind fun
      | .array ids => some ids
      | _ => none with
  | some [] | none => none
  | some ids => some ids

/-- The ids among a filter's values. -/
def filterIds (ids : List Value) : List String := ids.filterMap Value.asStr

/-! ## Notifications -/

def TaskStatus.asStr : TaskStatus → String
  | .working => "working"
  | .inputRequired => "input_required"
  | .completed => "completed"
  | .failed => "failed"
  | .cancelled => "cancelled"

def TaskStatus.ofStr (s : String) : Option TaskStatus :=
  [.working, .inputRequired, .completed, .failed, .cancelled].find? fun status => status.asStr = s

theorem TaskStatus.ofStr_asStr (status : TaskStatus) : ofStr status.asStr = some status := by
  cases status <;> decide

/-- `null` for an absent number. -/
def optionalInt : Option Int → Value
  | none => .null
  | some n => .int n

/-- The base task's fields, with its timestamps as text. -/
def Task.fields (rfc3339 : Nat → String) (t : Task) : Map :=
  [("taskId", .string t.taskId), ("status", .string t.status.asStr)] ++
    (t.statusMessage.map fun m => ("statusMessage", Value.string m)).toList ++
    [("createdAt", .string (rfc3339 t.createdAt)),
      ("lastUpdatedAt", .string (rfc3339 t.lastUpdatedAt)), ("ttlMs", optionalInt t.ttlMs)] ++
    (t.pollIntervalMs.map fun n => ("pollIntervalMs", Value.int n)).toList

/-- A `DetailedTask` on the wire, less its `resultType`: a notification is not
a result (`notification_params`). -/
def notificationParams (rfc3339 : Nat → String) (d : DetailedTask) : Map :=
  d.task.fields rfc3339 ++
    (d.inputRequests.map fun m => ("inputRequests", Value.object m)).toList ++
    (d.result.map fun v => ("result", v)).toList ++ (d.error.map fun v => ("error", v)).toList

end TurboMcp.ExtTasks
