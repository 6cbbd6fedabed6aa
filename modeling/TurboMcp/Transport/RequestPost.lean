import TurboMcp.Core.Error
import TurboMcp.Lib.Runs
import TurboMcp.Transport.Headers

/-!
# Streams of a POST

`request_post` dispatches one request beside a channel of its own.  Whichever
comes first decides the reply: a message in the channel upgrades it to an event
stream, which carries the channel's messages while the call goes on; the call's
completion leaves a plain one, unless `drain` still finds something.

Completion is one moment and the drain takes several: whoever holds the writer
sends from a thread of its own, so that the channel may accept messages while it
is being drained, and between the drain's last look and the receiver's end.
-/

namespace TurboMcp.Transport.RequestPost

open TurboMcp.Core TurboMcp.Lib

abbrev Bytes := List UInt8

/-- What the service's call comes to. -/
abbrev CallResult := Except ProtocolError (Option JsonRpcMessage)

def sseChannelCapacity : Nat := 256

/-! ## Replies -/

inductive Event
  | primer (id : String)
  | data (bytes : Bytes)
  | comment (text : String)
  deriving DecidableEq

inductive Body
  | empty
  | json (bytes : Bytes)
  | error (e : ProtocolError)
  deriving DecidableEq

inductive Response
  | plain (status : Nat) (body : Body)
  /-- `text/event-stream`. -/
  | sse
  deriving DecidableEq

/-- One POST of a request. -/
structure Post where
  request : JsonRpcRequest
  /-- `http-post-` and a fresh uuid. -/
  connectionId : String
  encode : JsonRpcMessage → Except ProtocolError Bytes
  /-- The `Debug` of a string, for errors' texts. -/
  debug : String → String

def primerEvent (id : String) : Event := .primer id

def protocolErrorResponse (e : ProtocolError) : Response :=
  let status := match e with
    | .parse _ | .unsupportedVersion _ _ | .missingCapability _ => 400
    | .unknownSession _ => 404
    | .transport _ | .serverShuttingDown => 503
    | .internal _ => 500
  .plain status (.error e)

def Response.withStatus (status : Nat) : Response → Response
  | .plain _ body => .plain status body
  | .sse => .sse

namespace Post

variable (post : Post)

def sseEvent (msg : JsonRpcMessage) : Event :=
  match post.encode msg with
  | .ok bytes => .data bytes
  | .error _ => .comment "event encoding failed; skipped"

def encodeJsonResponse (msg : JsonRpcMessage) : Response :=
  match post.encode msg with
  | .ok bytes => .plain 200 (.json bytes)
  | .error e => protocolErrorResponse e

/-- Only the draft's streams are never primed. -/
def primer : Option String :=
  if declaredDraft (.request post.request) then none else some (post.connectionId ++ "-0")

/-- What opens a stream. -/
def head : List Event := (post.primer.map primerEvent).toList

/-- On the draft an unimplemented method is HTTP 404. -/
def methodNotFound404 : Bool := declaredDraft (.request post.request)

/-- The reply of a call that completed before any message. -/
def jsonReply (reply : JsonRpcMessage) : Response :=
  match reply with
  | .response r =>
      if post.methodNotFound404 && (r.error.map (·.code) = some (-32601)) then
        (post.encodeJsonResponse reply).withStatus 404
      else post.encodeJsonResponse reply
  | _ => post.encodeJsonResponse reply

end Post

/-! ## The request's task -/

inductive Phase
  /-- In the `select!`, before anything. -/
  | selecting
  /-- The call has completed, and `drain` collects; whether the reply is a stream
  already. -/
  | draining (upgraded : Bool) (result : CallResult) (events : List JsonRpcMessage)
  /-- `drain` has found the channel empty. -/
  | drained (upgraded : Bool) (result : CallResult) (events : List JsonRpcMessage)
  /-- `PostStream::Run`. -/
  | run
  /-- `PostStream::Tail`. -/
  | tail (events : List JsonRpcMessage)
  | done

structure State where
  /-- The channel. -/
  queue : List JsonRpcMessage
  phase : Phase
  response : Option Response
  /-- What the stream has yielded. -/
  events : List Event

def initial : State := { queue := [], phase := .selecting, response := none, events := [] }

inductive Label
  /-- The channel accepts a message of whoever holds the writer. -/
  | accept (msg : JsonRpcMessage)
  | completed (result : CallResult)
  /-- The first message is received before the call completes. -/
  | first
  | recv
  | tryRecv
  /-- `try_recv` finds nothing. -/
  | emptied
  | respond
  | flush

/-- The receiver is there until the drained messages have been put to use. -/
def State.receiving (s : State) : Bool :=
  match s.phase with
  | .tail _ | .done => false
  | _ => true

/-- The end of a stream that was upgraded. -/
def finish (post : Post) (s : State) : List JsonRpcMessage → State
  | [] => { s with queue := [], phase := .done }
  | msg :: events =>
      { s with queue := [], phase := .tail events, events := s.events ++ [post.sseEvent msg] }

/-- `finished_sse`. -/
def finishedSse (post : Post) (s : State) (events : List JsonRpcMessage) : State :=
  { s with
    queue := []
    phase := .done
    response := some .sse
    events := post.head ++ events.map post.sseEvent }

def replied (s : State) (response : Response) : State :=
  { s with queue := [], phase := .done, response := some response }

/-- What becomes of a call that completed before the upgrade, and of the messages
that raced it. -/
def answer (post : Post) (s : State) (events : List JsonRpcMessage) : CallResult → State
  | .ok (some reply) =>
      if events.isEmpty then replied s (post.jsonReply reply)
      else finishedSse post s (events ++ [reply])
  | .ok none =>
      if events.isEmpty then replied s (.plain 202 .empty)
      else finishedSse post s events
  | .error e => replied s (protocolErrorResponse e)

/-- What the stream still carries once the call has completed. -/
def closing (post : Post) (events : List JsonRpcMessage) : CallResult → List JsonRpcMessage
  | .ok (some reply) => events ++ [reply]
  | .ok none => events
  | .error e => events ++ [.response (e.intoResponse post.debug post.request.id)]

def step (post : Post) (s : State) : Label → Option State
  | .accept msg =>
      if s.receiving && s.queue.length < sseChannelCapacity then
        some { s with queue := s.queue ++ [msg] }
      else none
  | .completed result =>
      match s.phase with
      | .selecting => some { s with phase := .draining false result [] }
      | .run => some { s with phase := .draining true result [] }
      | _ => none
  | .first =>
      match s.phase, s.queue with
      | .selecting, msg :: queue =>
          some
            { queue
              phase := .run
              response := some .sse
              events := post.head ++ [post.sseEvent msg] }
      | _, _ => none
  | .recv =>
      match s.phase, s.queue with
      | .run, msg :: queue => some { s with queue, events := s.events ++ [post.sseEvent msg] }
      | _, _ => none
  | .tryRecv =>
      match s.phase, s.queue with
      | .draining upgraded result events, msg :: queue =>
          some { s with queue, phase := .draining upgraded result (events ++ [msg]) }
      | _, _ => none
  | .emptied =>
      match s.phase, s.queue with
      | .draining upgraded result events, [] =>
          some { s with phase := .drained upgraded result events }
      | _, _ => none
  | .respond =>
      match s.phase with
      | .drained false result events => some (answer post s events result)
      | .drained true result events => some (finish post s (closing post events result))
      | _ => none
  | .flush =>
      match s.phase with
      | .tail events => some (finish post s events)
      | _ => none

def Step (post : Post) (s : State) (a : Label) (t : State) : Prop := step post s a = some t

/-! ## What a run has seen -/

/-- What the channel has accepted until the drain was over, and how the call came
out. -/
structure Ledger where
  /-- Accepted before the call completed. -/
  before : List JsonRpcMessage
  /-- Accepted while the channel was being drained. -/
  during : List JsonRpcMessage
  result : Option CallResult

namespace Ledger

def empty : Ledger := { before := [], during := [], result := none }

def note (l : Ledger) (s : State) : Label → Ledger
  | .accept msg =>
      match s.phase with
      | .selecting | .run => { l with before := l.before ++ [msg] }
      | .draining _ _ _ => { l with during := l.during ++ [msg] }
      | _ => l
  | .completed result => { l with result := some result }
  | _ => l

def noteAll (l : Ledger) (s : State) (tr : List (Label × State)) : Ledger :=
  (steps s tr).foldl (fun l x => l.note x.1 x.2.1) l

end Ledger

def ledger (tr : List (Label × State)) : Ledger := Ledger.empty.noteAll initial tr

/-- The POST has emitted `accepted` and then the reply, and a plain reply where
there was nothing accepted. -/
def Exact (post : Post) (accepted : List JsonRpcMessage) (reply : JsonRpcMessage) (s : State) :
    Prop :=
  if accepted = [] then s.response = some (post.jsonReply reply) ∧ s.events = []
  else s.response = some .sse ∧
    s.events = post.head ++ (accepted ++ [reply]).map post.sseEvent

/-! ## The invariant -/

variable {post : Post}

/-- The stream that was opened with these messages. -/
def opened (post : Post) (sent : List JsonRpcMessage) : List Event :=
  post.head ++ sent.map post.sseEvent

/-- Where each accepted message is, phase by phase: emitted, collected by the
drain, or in the channel. -/
inductive Accounts (post : Post) : Ledger → State → Prop
  | selecting {queue : List JsonRpcMessage} :
      Accounts post ⟨queue, [], none⟩ ⟨queue, .selecting, none, []⟩
  | run {sent queue : List JsonRpcMessage} (hsent : sent ≠ []) :
      Accounts post ⟨sent ++ queue, [], none⟩ ⟨queue, .run, some .sse, opened post sent⟩
  | drainingPlain {l : Ledger} {result : CallResult} {events queue : List JsonRpcMessage}
      (hl : l.before ++ l.during = events ++ queue) (hresult : l.result = some result) :
      Accounts post l ⟨queue, .draining false result events, none, []⟩
  | drainedPlain {l : Ledger} {result : CallResult} {events queue : List JsonRpcMessage}
      (hl : l.before ++ l.during = events) (hresult : l.result = some result) :
      Accounts post l ⟨queue, .drained false result events, none, []⟩
  | drainingStream {l : Ledger} {result : CallResult} {sent events queue : List JsonRpcMessage}
      (hsent : sent ≠ []) (hl : l.before ++ l.during = sent ++ events ++ queue)
      (hresult : l.result = some result) :
      Accounts post l ⟨queue, .draining true result events, some .sse, opened post sent⟩
  | drainedStream {l : Ledger} {result : CallResult} {sent events queue : List JsonRpcMessage}
      (hsent : sent ≠ []) (hl : l.before ++ l.during = sent ++ events)
      (hresult : l.result = some result) :
      Accounts post l ⟨queue, .drained true result events, some .sse, opened post sent⟩
  | tail {l : Ledger} {result : CallResult} {sent events : List JsonRpcMessage}
      (hne : l.before ++ l.during ≠ [])
      (hl : closing post (l.before ++ l.during) result = sent ++ events)
      (hresult : l.result = some result) :
      Accounts post l ⟨[], .tail events, some .sse, opened post sent⟩
  | done {l : Ledger} {s : State} (hphase : s.phase = .done)
      (hexact : ∀ reply, l.result = some (.ok (some reply)) →
        Exact post (l.before ++ l.during) reply s) (hresult : l.result.isSome = true) :
      Accounts post l s

theorem accounts_initial : Accounts post Ledger.empty initial := .selecting

theorem opened_append (sent : List JsonRpcMessage) (msg : JsonRpcMessage) :
    opened post sent ++ [post.sseEvent msg] = opened post (sent ++ [msg]) := by
  unfold opened
  rw [List.map_append, List.append_assoc]
  rfl

theorem closing_append (sent events : List JsonRpcMessage) (result : CallResult) :
    closing post (sent ++ events) result = sent ++ closing post events result := by
  rcases result with e | reply | reply
  · exact List.append_assoc ..
  · rfl
  · exact List.append_assoc ..

/-- A stream that yields what is left of it, one message at a time. -/
theorem accounts_finish {l : Ledger} {result : CallResult} (sent : List JsonRpcMessage)
    {events : List JsonRpcMessage} {s : State} (hne : l.before ++ l.during ≠ [])
    (hl : closing post (l.before ++ l.during) result = sent ++ events)
    (hresult : l.result = some result) (hresponse : s.response = some .sse)
    (hevents : s.events = opened post sent) : Accounts post l (finish post s events) := by
  cases events with
  | nil =>
      refine .done rfl (fun reply hreply => ?_) (by rw [hresult]; rfl)
      rw [hresult] at hreply
      cases hreply
      unfold Exact
      rw [if_neg hne]
      refine ⟨hresponse, ?_⟩
      show s.events = _
      rw [List.append_nil] at hl
      rw [hevents, ← hl]
      rfl
  | cons msg events =>
      unfold finish
      dsimp only
      rw [hresponse, hevents, opened_append]
      refine .tail hne ?_ hresult
      rw [hl, List.append_assoc]
      rfl

theorem accounts_answer {l : Ledger} {result : CallResult} {s : State}
    (hresult : l.result = some result) (hevents : s.events = []) :
    Accounts post l (answer post s (l.before ++ l.during) result) := by
  have hsome : l.result.isSome = true := by
    rw [hresult]
    rfl
  rcases result with e | _ | reply
  · refine .done rfl (fun reply hreply => ?_) hsome
    rw [hresult] at hreply
    cases hreply
  · unfold answer
    dsimp only
    split
    all_goals
      refine .done rfl (fun reply hreply => ?_) hsome
      rw [hresult] at hreply
      cases hreply
  · unfold answer
    dsimp only
    split
    · rename_i hempty
      refine .done rfl (fun reply' hreply => ?_) hsome
      rw [hresult] at hreply
      cases hreply
      unfold Exact
      rw [if_pos (List.isEmpty_iff.mp hempty)]
      exact ⟨rfl, hevents⟩
    · rename_i hempty
      refine .done rfl (fun reply' hreply => ?_) hsome
      rw [hresult] at hreply
      cases hreply
      unfold Exact
      rw [if_neg fun h => hempty (List.isEmpty_iff.mpr h)]
      exact ⟨rfl, rfl⟩

/-- What the channel accepts is on the ledger, until the drain is over. -/
theorem accounts_accept {l : Ledger} {s t : State} {msg : JsonRpcMessage}
    (h : Accounts post l s) (hstep : Step post s (.accept msg) t) :
    Accounts post (l.note s (.accept msg)) t := by
  have ht : s.receiving = true ∧ t = { s with queue := s.queue ++ [msg] } := by
    unfold Step step at hstep
    simp only at hstep
    split at hstep
    · rename_i haccepts
      rw [Bool.and_eq_true] at haccepts
      exact ⟨haccepts.1, (Option.some.inj hstep).symm⟩
    · cases hstep
  obtain ⟨hreceiving, rfl⟩ := ht
  have hduring (l : Ledger) :
      l.before ++ (l.during ++ [msg]) = l.before ++ l.during ++ [msg] :=
    (List.append_assoc ..).symm
  cases h with
  | selecting => exact .selecting
  | run hsent =>
      unfold Ledger.note
      dsimp only
      rw [List.append_assoc]
      exact .run hsent
  | drainingPlain hl hresult =>
      refine .drainingPlain ?_ hresult
      unfold Ledger.note
      dsimp only
      rw [hduring, hl, List.append_assoc]
  | drainedPlain hl hresult => exact .drainedPlain hl hresult
  | drainingStream hsent hl hresult =>
      refine .drainingStream hsent ?_ hresult
      unfold Ledger.note
      dsimp only
      rw [hduring, hl, List.append_assoc]
  | drainedStream hsent hl hresult => exact .drainedStream hsent hl hresult
  | tail => cases hreceiving
  | done hphase =>
      unfold State.receiving at hreceiving
      rw [hphase] at hreceiving
      cases hreceiving

theorem not_step_done {s t : State} {a : Label} (hphase : s.phase = .done) :
    ¬ Step post s a t := by
  intro hstep
  unfold Step step State.receiving at hstep
  rw [hphase] at hstep
  cases a with
  | _ => cases hstep

/-- **Step lemma**: a message that is accepted is emitted, collected or still in
the channel, in the order of acceptance. -/
theorem accounts_step {l : Ledger} {s t : State} {a : Label} (h : Accounts post l s)
    (hstep : Step post s a t) : Accounts post (l.note s a) t := by
  cases a with
  | accept msg => exact accounts_accept h hstep
  | completed result =>
      cases h with
      | selecting =>
          cases hstep
          exact .drainingPlain (List.append_nil _) rfl
      | run hsent =>
          cases hstep
          refine .drainingStream hsent ?_ rfl
          show (_ ++ _) ++ [] = (_ ++ []) ++ _
          rw [List.append_nil, List.append_nil]
      | done hphase => exact (not_step_done hphase hstep).elim
      | _ => cases hstep
  | first =>
      cases h with
      | @selecting queue =>
          rcases queue with _ | ⟨msg, queue⟩
          · cases hstep
          · cases hstep
            have hsent : [msg] ≠ [] := List.cons_ne_nil _ _
            exact .run hsent
      | done hphase => exact (not_step_done hphase hstep).elim
      | _ => cases hstep
  | recv =>
      cases h with
      | @run sent queue hsent =>
          rcases queue with _ | ⟨msg, queue⟩
          · cases hstep
          · cases hstep
            rw [opened_append]
            have hmoved : sent ++ msg :: queue = sent ++ [msg] ++ queue :=
              List.append_cons ..
            show Accounts post ⟨sent ++ msg :: queue, [], none⟩ _
            rw [hmoved]
            exact .run (by simp)
      | done hphase => exact (not_step_done hphase hstep).elim
      | _ => cases hstep
  | tryRecv =>
      cases h with
      | @drainingPlain _ result events queue hl hresult =>
          rcases queue with _ | ⟨msg, queue⟩
          · cases hstep
          · cases hstep
            refine .drainingPlain ?_ hresult
            show l.before ++ l.during = _
            rw [hl, List.append_cons]
      | @drainingStream _ result sent events queue hsent hl hresult =>
          rcases queue with _ | ⟨msg, queue⟩
          · cases hstep
          · cases hstep
            refine .drainingStream hsent ?_ hresult
            show l.before ++ l.during = _
            rw [hl, List.append_cons, List.append_assoc sent]
      | done hphase => exact (not_step_done hphase hstep).elim
      | _ => cases hstep
  | emptied =>
      cases h with
      | @drainingPlain _ result events queue hl hresult =>
          rcases queue with _ | ⟨msg, queue⟩
          · cases hstep
            rw [List.append_nil] at hl
            exact .drainedPlain hl hresult
          · cases hstep
      | @drainingStream _ result sent events queue hsent hl hresult =>
          rcases queue with _ | ⟨msg, queue⟩
          · cases hstep
            rw [List.append_nil] at hl
            exact .drainedStream hsent hl hresult
          · cases hstep
      | done hphase => exact (not_step_done hphase hstep).elim
      | _ => cases hstep
  | respond =>
      cases h with
      | @drainedPlain _ result events queue hl hresult =>
          cases hstep
          rw [← hl]
          exact accounts_answer hresult rfl
      | @drainedStream _ result sent events queue hsent hl hresult =>
          cases hstep
          refine accounts_finish sent ?_ ?_ hresult rfl rfl
          · show l.before ++ l.during ≠ []
            rw [hl]
            exact List.append_ne_nil_of_left_ne_nil hsent _
          · show closing post (l.before ++ l.during) result = _
            rw [hl, closing_append]
      | done hphase => exact (not_step_done hphase hstep).elim
      | _ => cases hstep
  | flush =>
      cases h with
      | tail hne hl hresult =>
          cases hstep
          exact accounts_finish _ hne hl hresult rfl rfl
      | done hphase => exact (not_step_done hphase hstep).elim
      | _ => cases hstep

theorem accounts_run {l : Ledger} {s : State} {tr : List (Label × State)}
    (h : Accounts post l s) (hrun : Run (Step post) s tr) :
    Accounts post (l.noteAll s tr) (final s tr) := by
  induction tr generalizing l s with
  | nil => exact h
  | cons x tr ih =>
      obtain ⟨a, t⟩ := x
      obtain ⟨hstep, hrun⟩ := run_cons.mp hrun
      exact ih (accounts_step h hstep) hrun

/-! ## Every message once -/

/-- The POST's own moves; the channel's senders and the call are others'. -/
def own : Label → Bool
  | .accept _ | .completed _ => false
  | _ => true

/-- Once the call has completed, the POST goes on by itself. -/
theorem exists_own_step {l : Ledger} {s : State} (h : Accounts post l s)
    (hresult : l.result.isSome = true) (hphase : s.phase ≠ .done) :
    ∃ a t, own a = true ∧ Step post s a t := by
  cases h with
  | selecting => cases hresult
  | run => cases hresult
  | @drainingPlain _ result events queue =>
      rcases queue with _ | ⟨msg, queue⟩
      · exact ⟨.emptied, _, rfl, rfl⟩
      · exact ⟨.tryRecv, _, rfl, rfl⟩
  | drainedPlain => exact ⟨.respond, _, rfl, rfl⟩
  | @drainingStream _ result sent events queue =>
      rcases queue with _ | ⟨msg, queue⟩
      · exact ⟨.emptied, _, rfl, rfl⟩
      · exact ⟨.tryRecv, _, rfl, rfl⟩
  | drainedStream => exact ⟨.respond, _, rfl, rfl⟩
  | tail => exact ⟨.flush, _, rfl, rfl⟩
  | done hdone => exact absurd hdone hphase

/-- **A POST is exact**: when the call completes with a reply, the POST can go on
until it is done, and has then emitted the primer, if any, every message that the
channel accepted before the completion and while it was drained, in order and
once, and the reply as the last event; or just the reply, where there were none. -/
theorem request_post_exact (post : Post) {tr : List (Label × State)}
    (hrun : Run (Step post) initial tr) {reply : JsonRpcMessage}
    (hreply : (ledger tr).result = some (.ok (some reply))) :
    ((final initial tr).phase = .done →
      Exact post ((ledger tr).before ++ (ledger tr).during) reply (final initial tr)) ∧
    ((final initial tr).phase ≠ .done →
      ∃ a t, own a = true ∧ Step post (final initial tr) a t) := by
  have hend : Accounts post (ledger tr) (final initial tr) := accounts_run accounts_initial hrun
  refine ⟨fun hphase => ?_, fun hphase => ?_⟩
  · generalize ledger tr = l at hend hreply
    generalize final initial tr = s at hend hphase
    cases hend with
    | done _ hexact => exact hexact reply hreply
    | _ => cases hphase
  · refine exists_own_step hend ?_ hphase
    rw [hreply]
    rfl

/-! ## A message that races the drain -/

def pingPost : Post where
  request := { id := .number 1, method := "ping", params := none }
  connectionId := "http-post-1"
  encode _ := .ok []
  debug := id

def progressNote : JsonRpcMessage :=
  .notification { method := "notifications/progress", params := none }

def pong : JsonRpcMessage := .response (.success (.number 1) (.object []))

def act (s : State) (a : Label) : State := (step pingPost s a).getD s

theorem run_act {as : List Label}
    (h : checked act (fun s a => (step pingPost s a).isSome) initial as = true) :
    Run (Step pingPost) initial (trace act initial as) := by
  refine run_trace_of_checked (fun s a hsome => ?_) h
  obtain ⟨t, ht⟩ := Option.isSome_iff_exists.mp hsome
  show step pingPost s a = some ((step pingPost s a).getD s)
  rw [ht, Option.getD_some]

/-- A message upgrades the reply, and another one is found by the drain. -/
theorem request_post_exact_upgraded :
    Exact pingPost [progressNote, progressNote] pong (final initial (trace act initial
      [.accept progressNote, .first, .accept progressNote, .completed (.ok (some pong)), .tryRecv,
        .emptied, .respond, .flush, .flush])) := by
  have hrun : Run (Step pingPost) initial (trace act initial
      [.accept progressNote, .first, .accept progressNote, .completed (.ok (some pong)), .tryRecv,
        .emptied, .respond, .flush, .flush]) := run_act rfl
  exact (request_post_exact pingPost hrun rfl).1 rfl

/-- A thread other than the request's sends between completion and drain. -/
def racing : List Label :=
  [.completed (.ok (some pong)), .accept progressNote, .tryRecv, .emptied, .respond]

/-- **Accepted too late, emitted all the same**: nothing was accepted before the
call completed, and the reply is a stream. -/
theorem not_exact_before :
    ∃ tr reply, Run (Step pingPost) initial tr ∧
      (ledger tr).result = some (.ok (some reply)) ∧ (final initial tr).phase = .done ∧
      (ledger tr).before = [] ∧ ¬ Exact pingPost (ledger tr).before reply (final initial tr) := by
  refine ⟨trace act initial racing, pong, run_act rfl, rfl, rfl, rfl, ?_⟩
  rintro ⟨hresponse, -⟩
  cases hresponse

end TurboMcp.Transport.RequestPost
