import TurboMcp.Client.Driving
import TurboMcp.Lib.Protocol

/-!
# What the driver of a task knows

Between its requests `drive_task` knows the task's state as it was last shown, and the
keys it has answered.  It asks for nothing but this task's state, answers only what the
state asks for and it has not answered yet, and ends with what it makes of the state
last shown, unless a request of its own is refused.
-/

namespace TurboMcp.Client

open TurboMcp.Core TurboMcp.Lib

/-- What a driver knows. -/
structure Watched where
  answered : List String
  view : Value
  refused : Option ClientError

def Watched.requests (known : Watched) : Map :=
  ((known.view.get "inputRequests").bind Value.asObject).getD []

section

variable (b : ClientBuilder) (version : ProtocolVersion) (handler : Option ClientHandler)
  (taskId : String)

/-- The parameters of `tasks/get`. -/
def getParams : Option Value :=
  some (.object (versionedParams b version [("taskId", .string taskId)]))

/-- The parameters of `tasks/update`. -/
def updateParams (responses : Map) : Option Value :=
  some (.object (versionedParams b version
    [("taskId", .string taskId), ("inputResponses", .object responses)]))

/-- Whether a request is one the driver may make. -/
def Watched.Requests (known : Watched) (method : String) (params : Option Value) : Prop :=
  method = "tasks/get" ∧ params = getParams b version taskId ∨
    ∃ c answered responses, handler = some c ∧ method = "tasks/update" ∧
      (known.view.get "status").bind Value.asStr = some "input_required" ∧
      answerNew c known.requests known.answered [] = .ok (answered, responses) ∧
      responses ≠ [] ∧ params = updateParams b version taskId responses

/-- What the driver learns: a view from `tasks/get`, and from an accepted `tasks/update`
that what it answered is answered. -/
def Watched.learn (known : Watched) (method : String) : Except ClientError Value → Watched
  | .error e => { known with refused := some e }
  | .ok reply =>
      if method = "tasks/get" then { known with view := reply }
      else
        match handler.map fun c => answerNew c known.requests known.answered [] with
        | some (.ok (answered, _)) => { known with answered }
        | _ => known

def watching : Protocol DriveEffect DriveEffect.Reply Watched where
  allows known
    | .request method params => known.Requests b version handler taskId method params
    | _ => True
  after known
    | .request method _, reply => known.learn handler method reply
    | _, _ => known

/-- The driver's end is what it makes of the view. -/
def Watched.Ends (known : Watched) (ending : Option DriveEnd) : Prop :=
  ∀ result, ending = some (.settled result) → known.refused.isSome = true ∨
    lookAt b version handler taskId known.answered known.view = .ret (.done result)

end

/-! ## Answering -/

section

variable {c : ClientHandler} {requests responses responses' : Map}
  {answered answered' : List String}

/-- An answer that is there stays there. -/
theorem answerNew_ne_nil (h : answerNew c requests answered responses = .ok (answered', responses'))
    (hne : responses ≠ []) : responses' ≠ [] := by
  induction requests generalizing answered responses with
  | nil =>
      obtain ⟨-, rfl⟩ := Prod.mk.inj (Except.ok.inj h)
      exact hne
  | cons r requests ih =>
      obtain ⟨key, request⟩ := r
      unfold answerNew at h
      split at h
      · exact ih h hne
      · split at h
        · cases h
        · refine ih h ?_
          rename_i answer _
          intro hnil
          have hget : Map.get (Map.insert responses key answer) key = some answer := by
            rw [Map.get_insert, if_pos rfl]
          rw [hnil] at hget
          cases hget

/-- Where there is nothing to send, nothing new was asked. -/
theorem answered_of_nil (h : answerNew c requests answered [] = .ok (answered', [])) :
    answered' = answered := by
  induction requests with
  | nil =>
      obtain ⟨rfl, -⟩ := Prod.mk.inj (Except.ok.inj h)
      rfl
  | cons r requests ih =>
      obtain ⟨key, request⟩ := r
      unfold answerNew at h
      split at h
      · exact ih h
      · split at h
        · cases h
        · rename_i answer _
          exact absurd rfl (answerNew_ne_nil h (by
            intro hnil
            have hget : Map.get (Map.insert [] key answer) key = some answer := by
              rw [Map.get_insert, if_pos rfl]
            rw [hnil] at hget
            cases hget))

theorem learn_update {known : Watched}
    (h : answerNew c known.requests known.answered [] = .ok (answered, responses))
    (reply : Value) :
    known.learn (some c) "tasks/update" (.ok reply) = { known with answered } := by
  unfold Watched.learn
  simp only [Option.map_some, h]
  rfl

end

/-! ## One look -/

section

variable {b : ClientBuilder} {version : ProtocolVersion} {c : ClientHandler} {taskId : String}
  {known : Watched} {answered : List String} {responses : Map}

theorem lookAt_working {handler : Option ClientHandler} {view : Value}
    (h : (view.get "status").bind Value.asStr = some "working") (answered : List String) :
    lookAt b version handler taskId answered view = .ret (.goOn answered) := by
  unfold lookAt
  rw [h]
  rfl

/-- A task that asks for nothing new is polled again. -/
theorem lookAt_of_nil (h : (known.view.get "status").bind Value.asStr = some "input_required")
    (hanswer : answerNew c known.requests known.answered [] = .ok (answered, [])) :
    lookAt b version (some c) taskId known.answered known.view = .ret (.goOn answered) := by
  unfold lookAt
  rw [h]
  unfold Watched.requests at hanswer
  simp only [hanswer]
  rfl

/-- What is new is answered before anything else is done. -/
theorem lookAt_of_new (h : (known.view.get "status").bind Value.asStr = some "input_required")
    (hanswer : answerNew c known.requests known.answered [] = .ok (answered, responses))
    (hne : responses ≠ []) (result : Except ClientError Value) :
    lookAt b version (some c) taskId known.answered known.view ≠ .ret (.done result) := by
  unfold lookAt
  rw [h]
  unfold Watched.requests at hanswer
  simp only [hanswer]
  cases responses with
  | nil => exact absurd rfl hne
  | cons response responses =>
      show Program.call (DriveEffect.request "tasks/update" _) _ ≠ _
      rintro ⟨⟩

theorem lookAt_completed {handler : Option ClientHandler} {view result : Value}
    (h : (view.get "status").bind Value.asStr = some "completed")
    (hresult : view.get "result" = some result) (answered : List String) :
    lookAt b version handler taskId answered view = .ret (.done (.ok result)) := by
  unfold lookAt
  rw [h, hresult]
  rfl

theorem lookAt_failed {handler : Option ClientHandler} {view : Value}
    (h : (view.get "status").bind Value.asStr = some "failed") (answered : List String) :
    lookAt b version handler taskId answered view =
      .ret (.done (.error (.rpc (failedError view)))) := by
  unfold lookAt
  rw [h]
  rfl

/-- An error whose code is an `i32` is read back as it was written. -/
theorem failedError_of {view : Value} {error : JsonRpcError}
    (h : view.get "error" = some error.toValue) (hlow : -2 ^ 31 ≤ error.code)
    (hhigh : error.code < 2 ^ 31) : failedError view = error := by
  have hcode : (error.toValue.get "code").bind Value.asI64 = some error.code := by
    have hget : error.toValue.get "code" = some (.int error.code) := by
      unfold JsonRpcError.toValue
      rfl
    rw [hget]
    exact if_pos (by omega)
  have hmessage : (error.toValue.get "message").bind Value.asStr = some error.message := by
    unfold JsonRpcError.toValue
    rfl
  have hdata : error.toValue.get "data" = error.data := by
    obtain ⟨code, message, data⟩ := error
    rcases data with _ | d
    · rfl
    · rfl
  obtain ⟨code, message, data⟩ := error
  unfold failedError
  simp only [h, Option.bind_some, hcode, hmessage, hdata]
  rw [Option.filter_some, if_pos (by simpa using ⟨hlow, hhigh⟩)]
  rfl

end

/-! ## One new request -/

section

variable {c : ClientHandler} {key : String} {request v : Value} {answered : List String}

theorem answerNew_known (h : key ∈ answered) :
    answerNew c [(key, request)] answered [] = .ok (answered, []) := by
  unfold answerNew
  rw [if_pos h]
  rfl

theorem answerNew_one (h : key ∉ answered) (hanswer : answerInput c request = .ok v) :
    answerNew c [(key, request)] answered [] = .ok (key :: answered, [(key, v)]) := by
  unfold answerNew
  rw [if_neg h, hanswer]
  rfl

end

/-! ## The driver -/

section

open Program

variable {b : ClientBuilder} {version : ProtocolVersion} {handler : Option ClientHandler}
  {taskId : String}

/-- A look settles on what the view says, or has answered what it asks for. -/
theorem follows_lookAt (known : Watched) :
    Follows (watching b version handler taskId) known
      (lookAt b version handler taskId known.answered known.view) fun known' looked =>
        match looked with
        | .done result => known'.Ends b version handler taskId (some (.settled result))
        | .goOn answered => known'.answered = answered := by
  -- what ends at once ends as the view says
  have hdone : ∀ result, lookAt b version handler taskId known.answered known.view =
      .ret (.done result) → known.Ends b version handler taskId (some (.settled result)) := by
    rintro result hlook result' h
    cases h
    exact .inr hlook
  generalize hprogram : lookAt b version handler taskId known.answered known.view = p at hdone
  have hp := hprogram
  unfold lookAt at hp
  split at hp
  · subst hp
    exact hdone _ rfl
  · subst hp
    exact hdone _ rfl
  · subst hp
    exact hdone _ rfl
  · rename_i hstatus
    split at hp
    · subst hp
      exact hdone _ rfl
    · rename_i c
      dsimp only at hp
      split at hp
      · subst hp
        exact hdone _ rfl
      · rename_i answered hanswer
        subst hp
        exact (answered_of_nil hanswer).symm
      · rename_i answered responses hnonempty hanswer
        subst hp
        refine ⟨.inr ⟨c, answered, responses, rfl, rfl, hstatus, hanswer, hnonempty, rfl⟩,
          fun reply => ?_⟩
        change Except ClientError Value at reply
        cases reply with
        | error e =>
            rintro result h
            exact .inl rfl
        | ok reply =>
            exact congrArg Watched.answered (learn_update hanswer reply)
  · subst hp
    rfl

theorem follows_checkDeadline (known : Watched) (deadline : Option Nat) :
    Follows (watching b version handler taskId) known (checkDeadline deadline)
      fun known' _ => known' = known := by
  cases deadline with
  | none => rfl
  | some deadline => exact ⟨trivial, fun _ => rfl⟩

theorem follows_pollRounds (rounds : Nat) (deadline : Option Nat) (known : Watched) :
    Follows (watching b version handler taskId) known
      (pollRounds b version (lookAt b version handler taskId) "pollIntervalMs" taskId deadline
        rounds known.answered known.view) fun known' ending =>
          known'.Ends b version handler taskId ending := by
  induction rounds generalizing known with
  | zero => exact fun result h => by cases h
  | succ rounds ih =>
      unfold pollRounds
      refine (follows_lookAt known).seq fun known' looked hlooked => ?_
      cases looked with
      | done result => exact hlooked
      | goOn answered =>
          refine (follows_checkDeadline known' deadline).seq fun known'' past hpast => ?_
          subst hpast
          cases past with
          | some now => exact fun result h => by cases h
          | none =>
              refine ⟨trivial, fun _ => ⟨.inl ⟨rfl, rfl⟩, fun reply => ?_⟩⟩
              change Except ClientError Value at reply
              cases reply with
              | error e => exact fun result h => .inl rfl
              | ok current =>
                  have hanswered : answered = known''.answered := Eq.symm hlooked
                  rw [hanswered]
                  exact ih { known'' with view := current }

/-- **What the driver does**: it watches its task, and ends with what it has been shown. -/
theorem follows_driveTask (rounds : Nat) {current : Value}
    (hid : (current.get "taskId").bind Value.asStr = some taskId) :
    Follows (watching b version handler taskId) ⟨[], current, none⟩
      (driveTask b version handler rounds current) fun known ending =>
        known.Ends b version handler taskId ending := by
  unfold driveTask
  rw [hid]
  have hdeadline : Follows (watching b version handler taskId) ⟨[], current, none⟩
      (deadlineOf (current.get "ttlMs")) fun known _ => known = ⟨[], current, none⟩ := by
    unfold deadlineOf
    split
    · rfl
    · exact ⟨trivial, fun _ => rfl⟩
  refine hdeadline.seq ?_
  rintro known deadline rfl
  exact follows_pollRounds rounds deadline ⟨[], current, none⟩

end

end TurboMcp.Client
