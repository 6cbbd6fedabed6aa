import TurboMcp.Server.OneResponse
import TurboMcp.System.Discipline

/-!
# Streams

What has been enqueued for a listen request on its connection's writer, read
off the log.
-/

namespace TurboMcp.System

open TurboMcp.Core TurboMcp.Lib TurboMcp.Server TurboMcp.ExtTasks

variable {N : Type}

/-- The message of a stream that an event put on its connection's writer. -/
def Event.onStream (key : SubscriptionKey) : Event → Option JsonRpcMessage
  | .sent _ connection m =>
      if connection = key.1 ∧ ForSubscription key.2 m then some m else none
  | _ => none

/-- What has been enqueued for a listen request, oldest first. -/
def streamed (log : List Event) (key : SubscriptionKey) : List JsonRpcMessage :=
  log.filterMap (Event.onStream key)

/-- The listen request's acknowledgement has been enqueued. -/
def Acknowledged (log : List Event) (key : SubscriptionKey) : Prop :=
  ∃ m ∈ streamed log key, isAcknowledgement m = true

/-- What a section enqueues for a listen request. -/
def Section.streams (s : Shared) (key : SubscriptionKey) : Section → List JsonRpcMessage
  | .effect (.send connection m) =>
      if connection = key.1 ∧ ForSubscription key.2 m ∧ connection ∉ s.closed then [m] else []
  | _ => []

theorem streamed_append (log log' : List Event) (key : SubscriptionKey) :
    streamed (log ++ log') key = streamed log key ++ streamed log' key :=
  List.filterMap_append ..

theorem Acknowledged.append {log : List Event} {key : SubscriptionKey}
    (h : Acknowledged log key) (log' : List Event) : Acknowledged (log ++ log') key := by
  obtain ⟨m, hm, hack⟩ := h
  refine ⟨m, ?_, hack⟩
  rw [streamed_append]
  exact List.mem_append_left _ hm

theorem streamed_statusEvent (before after : DraftTaskStore) (taskId : String)
    (key : SubscriptionKey) : streamed (statusEvent before after taskId) key = [] := by
  unfold statusEvent
  split
  · rfl
  · split <;> rfl

theorem streamed_events (n : Nat) (c : Choice N) (s : Shared) (a : Section)
    (key : SubscriptionKey) : streamed (a.events n c s) key = a.streams s key := by
  unfold Section.events
  split
  · rfl
  · rfl
  · rename_i connection m
    by_cases hclosed : connection ∈ s.closed
    · simp [Section.streams, streamed, hclosed]
    · by_cases hkey : connection = key.1 ∧ ForSubscription key.2 m
      · obtain ⟨rfl, hid⟩ := hkey
        simp [Section.streams, streamed, Event.onStream, hclosed, hid]
      · rw [if_neg hclosed, Section.streams, if_neg (fun h => hkey ⟨h.1, h.2.1⟩)]
        simp [streamed, Event.onStream, hkey]
  · rfl
  · exact streamed_statusEvent ..
  · exact streamed_statusEvent ..
  · rename_i hsend _ _ _
    unfold Section.streams
    split
    · exact absurd rfl (hsend _ _)
    · rfl

/-- What a section puts in the log as sent, its own thread has sent. -/
theorem sent_mem_events {n m : Nat} {c : Choice N} {s : Shared} {a : Section}
    {connection : String} {msg : JsonRpcMessage}
    (h : .sent m connection msg ∈ a.events n c s) :
    m = n ∧ a = .effect (.send connection msg) := by
  have hstatus {before after : DraftTaskStore} {taskId : String}
      (h : .sent m connection msg ∈ statusEvent before after taskId) : False := by
    unfold statusEvent at h
    split at h
    · cases h
    · split at h
      · cases h
      · rw [List.mem_singleton] at h
        cases h
  unfold Section.events at h
  split at h
  · rw [List.mem_singleton] at h
    cases h
  · rw [List.mem_singleton] at h
    cases h
  · split at h
    · cases h
    · rw [List.mem_singleton] at h
      cases h
      exact ⟨rfl, rfl⟩
  · rw [List.mem_singleton] at h
    cases h
  · exact absurd h hstatus
  · exact absurd h hstatus
  · cases h

/-- **Streams grow**: by what the section enqueues. -/
theorem streamed_of_answer {n : Nat} {c : Choice N} {s s' : Shared} {a : Section}
    {r : Reply N a} (h : runSection n c s a = .answer r s') (key : SubscriptionKey) :
    streamed s'.log key = streamed s.log key ++ a.streams s key := by
  rw [(ran_of_answer h).log, streamed_append, streamed_events]

theorem mem_streams {s : Shared} {a : Section} {key : SubscriptionKey} {m : JsonRpcMessage} :
    m ∈ a.streams s key ↔
      a = .effect (.send key.1 m) ∧ ForSubscription key.2 m ∧ key.1 ∉ s.closed := by
  unfold Section.streams
  split
  · rename_i connection m'
    constructor
    · intro h
      split at h
      · rename_i hkey
        rw [List.mem_singleton] at h
        subst h
        obtain ⟨rfl, hid, hclosed⟩ := hkey
        exact ⟨rfl, hid, hclosed⟩
      · cases h
    · rintro ⟨heq, hid, hclosed⟩
      cases heq
      rw [if_pos ⟨rfl, hid, hclosed⟩]
      exact List.mem_singleton_self _
  · rename_i hne
    constructor
    · intro h
      cases h
    · rintro ⟨rfl, -⟩
      exact absurd rfl (hne _ _)

/-! ## A client that listens -/

def taskExtension : Extension :=
  { id := extensionId, settings := .null, methods := [], augmentsCalls := false }

/-- A server of the draft with the tasks extension. -/
def taskServer : VersionDispatcher Unit :=
  { legacyServer with
    supported := [.draft]
    wire := { legacyServer.wire with decodeListen := RawListenParams.decode }
    extensions := [taskExtension] }

/-- A request for the status of tasks and for `others`, on an attached
connection. -/
def listenCall (connection : String) (id : Int) (taskIds : List String) (others : Map) :
    JsonRpcRequest :=
  { id := .number id, method := methods.subscriptionsListen,
    params := some (.object
      [("notifications",
          .object (("taskIds", .array (taskIds.map .string)) :: others)),
        ("_meta", .object
          [(Meta.keys.protocolVersion, .string ProtocolVersion.draft.asStr),
            (Meta.keys.clientCapabilities,
              .object [("extensions", .object [(extensionId, .object [])])]),
            (Meta.internal.connectionId, .string connection)])]) }

/-- A listen request for the status of tasks. -/
def listenRequest (connection : String) (id : Int) (taskIds : List String) : JsonRpcMessage :=
  .request (listenCall connection id taskIds [])

/-- A connection is opened, a task is created, and a listen request arrives. -/
def listening (taskIds : List String) : List (Act Frame (Choice Unit)) :=
  [.spawn .connect, .run 0 (.declined "c"), .run 0 (.declined ""),
    .spawn (.createTask none none), .run 1 (.declined "t"), .run 1 (.declined ""),
    .spawn (.message (listenRequest "c" 7 taskIds))]

end TurboMcp.System
