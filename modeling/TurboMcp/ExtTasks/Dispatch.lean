import TurboMcp.Core.Serde
import TurboMcp.ExtTasks.Lifecycle
import TurboMcp.ExtTasks.Subs

/-!
# The task methods

`TasksExtension::dispatch` answers `tasks/get`, `tasks/cancel` and `tasks/update`
from the store.  Each names its task in `taskId`; what it does to the store is one
call on it.
-/

namespace TurboMcp.ExtTasks

open TurboMcp.Core TurboMcp.Lib DraftTaskStore

/-! ## The wire -/

def resultTypeComplete : String := "complete"

/-- A `DetailedTask` as the result of `tasks/get`. -/
def DetailedTask.toValue (rfc3339 : Nat → String) (d : DetailedTask) : Value :=
  .object (("resultType", .string resultTypeComplete) :: notificationParams rfc3339 d)

namespace TasksExtension

def invalidParams (message : String) : JsonRpcError := { code := -32602, message, data := none }

/-- `tasks/*` for a task that is not there. -/
def taskNotFound (taskId : String) : JsonRpcError := invalidParams ("unknown task: " ++ taskId)

/-- `TaskIdParams`. -/
def parseTaskId (params : Option Value) : Except JsonRpcError String :=
  match params.bind fun v => (structFields ["taskId"] v).bind (stringField · "taskId") with
  | some taskId => .ok taskId
  | none => .error (invalidParams "a \x60taskId\x60 string is required")

/-- The responses of `UpdateTaskParams`; none where the parameters cannot be read. -/
def inputResponses (params : Option Value) : Map :=
  (params.bind fun v => do
    let m ← structFields ["taskId", "inputResponses"] v
    let _ ← stringField m "taskId"
    mapOrEmpty (m.get "inputResponses")).getD Map.empty

/-- The empty acknowledgement. -/
def ack : Value := .object [("resultType", .string resultTypeComplete)]

/-- `dispatch`, less its pushes to subscribers. -/
def dispatch (rfc3339 : Nat → String) (now nowWall : Nat) (st : DraftTaskStore) (method : String)
    (params : Option Value) : DraftTaskStore × Except JsonRpcError Value :=
  match parseTaskId params with
  | .error e => (st, .error e)
  | .ok taskId =>
      if method = "tasks/get" then
        let (st, found) := st.get now taskId
        (st, match found with
          | some detailed => .ok (detailed.toValue rfc3339)
          | none => .error (taskNotFound taskId))
      else if method = "tasks/cancel" then
        let (st, known) := st.cancel now nowWall taskId
        (st, if known then .ok ack else .error (taskNotFound taskId))
      else if method = "tasks/update" then
        let (st, changed) := st.deliverInputs now nowWall taskId (inputResponses params)
        (st, if changed.isSome then .ok ack else .error (taskNotFound taskId))
      else (st, .error { code := -32601, message := "method not found: " ++ method, data := none })

/-- The call on the store, where the method is one and names a task. -/
def callOf (now nowWall : Nat) (method : String) (params : Option Value) : Option Call :=
  match parseTaskId params with
  | .error _ => none
  | .ok taskId =>
      if method = "tasks/get" then some ⟨now, nowWall, .get taskId⟩
      else if method = "tasks/cancel" then some ⟨now, nowWall, .cancel taskId⟩
      else if method = "tasks/update" then
        some ⟨now, nowWall, .deliverInputs taskId (inputResponses params)⟩
      else none

/-- What a method leaves of the store. -/
theorem dispatch_store (rfc3339 : Nat → String) (now nowWall : Nat) (st : DraftTaskStore)
    (method : String) (params : Option Value) :
    (dispatch rfc3339 now nowWall st method params).1 =
      match callOf now nowWall method params with
      | some c => st.apply c
      | none => st := by
  unfold dispatch callOf
  cases parseTaskId params with
  | error e => rfl
  | ok taskId =>
      simp only
      split
      · rfl
      · split
        · rfl
        · split
          · rfl
          · rfl

/-- No method creates a task or publishes for one. -/
theorem callOf_plain {now nowWall : Nat} {method : String} {params : Option Value} {c : Call}
    (h : callOf now nowWall method params = some c) (st : DraftTaskStore) :
    st.mintedBy c = none ∧ st.publicationOf c = none := by
  unfold callOf at h
  split at h
  · cases h
  · split at h
    · cases h
      exact ⟨rfl, rfl⟩
    · split at h
      · cases h
        exact ⟨rfl, rfl⟩
      · split at h
        · cases h
          exact ⟨rfl, rfl⟩
        · cases h

end TasksExtension

/-! ## One task among others -/

namespace Entry

theorem after_cancel (e : Entry) (c : Call) : (e.after c).cancel = e.cancel := by
  unfold after
  split
  · rfl
  · rfl
  · split
    · rfl
    · unfold publish
      dsimp only
      split
      · rfl
      · rfl
  · unfold deliver
    dsimp only
    split
    · rfl
    · rfl
  · split
    · rfl
    · unfold finish
      dsimp only
      split
      · rfl
      · rfl
  · split
    · rfl
    · rfl

end Entry

namespace DraftTaskStore

variable {st : DraftTaskStore} {e : Entry} {id : String}

/-- A live task takes the request, and the handler the channel it came with. -/
theorem publishInput_of_live {now nowWall : Nat} {key : String} {request : Value} {rx : Channel}
    (hget : (st.purgeExpired now).inner.get id = some e) (hlive : e.status.isTerminal = false) :
    (st.publishInput now nowWall id key request rx).2 = some rx := by
  unfold publishInput
  simp only [hget, hlive]
  rfl

/-- Who cancels a live task fires its token. -/
theorem fired_of_cancel {now : Nat} (nowWall : Nat)
    (hget : (st.purgeExpired now).inner.get id = some e) (hlive : e.status.isTerminal = false) :
    e.cancel ∈ (st.apply ⟨now, nowWall, .cancel id⟩).fired := by
  show e.cancel ∈ (st.cancel now nowWall id).1.fired
  unfold cancel
  simp only [hget, hlive]
  exact List.mem_append_right _ (List.mem_singleton_self _)

end DraftTaskStore

namespace Timeline

variable {s t : Timeline} {c : Call}

/-- A call that brings neither an id nor a channel is a step. -/
theorem step_of_plain (h : s.store.mintedBy c = none ∧ s.store.publicationOf c = none) :
    Step s c { s with store := s.store.apply c } := by
  obtain ⟨hminted, hpublished⟩ := h
  refine ⟨rfl, ?_, ?_, ?_, ?_⟩
  · rw [hminted]
    exact (List.append_nil _).symm
  · rw [hpublished]
    exact (List.append_nil _).symm
  · intro id hid
    rw [hminted] at hid
    cases hid
  · intro p hp
    rw [hpublished] at hp
    cases hp

/-- A task that stays is not purged, and is what the call makes of it. -/
theorem get_of_stays (h : Step s c t) (hs : s.Sound) {id : String} {e : Entry}
    (he : s.store.inner.get id = some e) (hstays : (t.store.inner.get id).isSome = true) :
    (s.store.purgedBy c).inner.get id = some e ∧
      t.store.inner.get id = some (if c.task = id then e.after c else e) := by
  obtain ⟨e', he'⟩ := Option.isSome_iff_exists.mp hstays
  rcases get_step h he' with ⟨hnew, -⟩ | ⟨e₀, he₀, rfl⟩
  · exact absurd (hs.minted id e he) hnew
  · obtain rfl : e₀ = e := Option.some.inj ((get_of_purgedBy he₀).symm.trans he)
    exact ⟨he₀, he'⟩

end Timeline

/-! ## What a view shows -/

section

variable {rfc3339 : Nat → String} (e : Entry) (id : String)

theorem status_detailed :
    (((e.detailed id).toValue rfc3339).get "status").bind Value.asStr = some e.status.asStr := rfl

theorem requests_detailed (h : e.status = .inputRequired) :
    (((e.detailed id).toValue rfc3339).get "inputRequests").bind Value.asObject =
      some e.inputs.outstanding.entries := by
  unfold DetailedTask.toValue notificationParams Task.fields Entry.detailed Entry.base
  rw [if_pos h]
  cases e.statusMessage <;> cases e.pollIntervalMs <;> rfl

theorem result_detailed {result : Value} (hstatus : e.status = .completed)
    (h : e.outcome = some (.completed result)) :
    ((e.detailed id).toValue rfc3339).get "result" = some result := by
  unfold DetailedTask.toValue notificationParams Task.fields Entry.detailed Entry.base
  rw [h, hstatus]
  cases e.statusMessage <;> cases e.pollIntervalMs <;> rfl

theorem error_detailed {error : JsonRpcError} (hstatus : e.status = .failed)
    (h : e.outcome = some (.failed error)) :
    ((e.detailed id).toValue rfc3339).get "error" = some error.toValue := by
  unfold DetailedTask.toValue notificationParams Task.fields Entry.detailed Entry.base
  rw [h, hstatus]
  cases e.statusMessage <;> cases e.pollIntervalMs <;> rfl

end

end TurboMcp.ExtTasks
