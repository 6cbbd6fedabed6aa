import TurboMcp.Client.Driving
import TurboMcp.ExtTasks.Requests
import TurboMcp.Server.StateGate
import TurboMcp.System.Inline

/-!
# Elicitation, from handler to handler

What a server's handler asks a user for reaches the client's handler on three
paths: as a request of its own, packaged into an `input_required` result, or
shown by a task.  All of them carry one request object, which the client reads by
one function: a form arrives as it was asked for, a URL as a form without fields.
The outcome comes back the same way, except that a packaged one is only there
for the execution right after it.
-/

namespace TurboMcp.System

open TurboMcp.Core TurboMcp.Lib TurboMcp.Server TurboMcp.Client

/-- What a handler asks a user for: to fill in a form, or to visit a URL. -/
inductive Elicitation
  | form (params : ElicitParams)
  | url (params : ElicitUrlParams)
  deriving DecidableEq

namespace Elicitation

def ask (key minted : String) : Elicitation → Ask
  | form params => .elicit key params
  | url params => .elicitUrl key params minted

def reply (key minted : String) : (e : Elicitation) → ElicitOutcome → (e.ask key minted).Reply
  | form _, outcome => outcome
  | url _, outcome => outcome

/-- Its request object. -/
def request (legacy : Bool) (minted : String) : Elicitation → Value
  | form params => elicitRequestValue params
  | url params =>
      elicitUrlRequestValue params
        (if legacy then some (params.elicitationId.getD minted) else none)

/-- What the client's handler is given. -/
def given : Elicitation → ElicitParams
  | form params => params
  | url params => readAsForm params

def IsForm (e : Elicitation) : Prop := ∃ params, e = form params

/-- The client's handler is given the elicitation itself, and its outcome is received. -/
def Faithful (e : Elicitation) (receives : ClientHandler → ElicitOutcome → Prop) : Prop :=
  ∃ given, form given = e ∧ ∀ c, receives c (arrived (c.elicit given))

variable {e : Elicitation} {key minted : String}

theorem requests_ask (legacy : Bool) :
    (e.ask key minted).requests legacy = [(key, e.request legacy minted)] := by
  cases e with
  | form params => rfl
  | url params => rfl

theorem keys_ask : (e.ask key minted).keys = [key] := by
  rw [← Ask.map_fst_requests _ false, requests_ask]
  rfl

theorem needs_ask : (e.ask key minted).needs = "elicitation" := by
  cases e with
  | form params => rfl
  | url params => rfl

/-- The client answers an elicitation's request by its handler. -/
theorem answerInput_request (c : ClientHandler) (legacy : Bool) :
    answerInput c (e.request legacy minted) = .ok (elicitOutcomeValue (c.elicit e.given)) := by
  cases e with
  | form params => exact answerInput_elicit c params
  | url params => exact answerInput_elicitUrl c params _

theorem Faithful.isForm {receives : ClientHandler → ElicitOutcome → Prop}
    (h : Faithful e receives) : e.IsForm := by
  obtain ⟨given, rfl, -⟩ := h
  exact ⟨given, rfl⟩

/-- Where every outcome comes back, forms are all that is faithful. -/
theorem faithful_iff_isForm {receives : ClientHandler → ElicitOutcome → Prop}
    (h : ∀ c, receives c (arrived (c.elicit e.given))) : Faithful e receives ↔ e.IsForm := by
  constructor
  · exact Faithful.isForm
  · rintro ⟨params, rfl⟩
    exact ⟨params, rfl, h⟩

/-! ## Inline -/

/-- The outcome is what the handler receives where its requests go out inline. -/
def ReceivesInline (texts : Texts) (handle : ClientHandle) (key minted : String) (e : Elicitation)
    (c : ClientHandler) (outcome : ElicitOutcome) : Prop :=
  ∀ asked, ((handle.answer texts (e.ask key minted)).exec (obtainInline c) asked).1 =
    .ok (e.reply key minted outcome)

theorem receivesInline {texts : Texts} {handle : ClientHandle}
    (hm : handle.mode.available = true)
    (hconsent : consent handle.clientCapabilities "elicitation" = .ok ()) (c : ClientHandler) :
    ReceivesInline texts handle key minted e c (arrived (c.elicit e.given)) := by
  intro asked
  rw [exec_answer hm, needs_ask, hconsent]
  cases e with
  | form params => rfl
  | url params => rfl

/-! ## In rounds -/

theorem parseElicitOutcome_ne_inputRequired (texts : Texts) (raw : Value) :
    parseElicitOutcome texts raw ≠ .error .inputRequired := by
  unfold parseElicitOutcome
  dsimp only
  split
  · simp
  · split
    · simp
    · split
      · simp
      · split
        · simp
        · simp

theorem cached_ask (texts : Texts) (responses : Map) :
    (e.ask key minted).cached texts responses =
      (Map.get responses key).map fun raw =>
        (parseElicitOutcome texts raw).map (e.reply key minted) := by
  cases e with
  | form params =>
      show (Map.get responses key).map _ = _
      congr 1
      funext raw
      cases parseElicitOutcome texts raw with
      | error e => rfl
      | ok outcome => rfl
  | url params =>
      show (Map.get responses key).map _ = _
      congr 1
      funext raw
      cases parseElicitOutcome texts raw with
      | error e => rfl
      | ok outcome => rfl

/-- Where the response is there, the elicitation is not recorded. -/
theorem ready_ask_ne_inputRequired {texts : Texts} {responses : Map} {caps : Option Value} :
    (e.ask key minted).ready texts responses caps ≠ some (.error .inputRequired) := by
  intro h
  unfold Ask.ready at h
  split at h
  · rename_i err herr
    unfold consent at herr
    split at herr
    · cases herr
    · cases herr
      cases h
  · rw [cached_ask] at h
    obtain ⟨raw, -, hraw⟩ := Option.map_eq_some_iff.mp h
    apply parseElicitOutcome_ne_inputRequired texts raw
    cases hparse : parseElicitOutcome texts raw with
    | error e =>
        rw [hparse] at hraw
        cases hraw
        rfl
    | ok outcome =>
        rw [hparse] at hraw
        cases hraw

end Elicitation

/-- The draft's result for an execution that recorded requests. -/
def inputRequiredResult (collected : Map) (requestState : Option String) : Value :=
  .object ([("resultType", .string "input_required")] ++
    [("inputRequests", .object collected)] ++
    (requestState.map fun token => ("requestState", .string token)).toList)

/-- The envelope leaves the other parameters alone. -/
theorem get_versionedParams {b : ClientBuilder} {version : ProtocolVersion} {params : Map}
    {key : String} (hkey : "_meta" ≠ key) :
    Map.get (versionedParams b version params) key = Map.get params key := by
  unfold versionedParams
  split
  · rw [Map.get_insert, if_neg hkey]
  · rfl

theorem get_inputRequests (collected : Map) (requestState : Option String) :
    (inputRequiredResult collected requestState).get "inputRequests" =
      some (.object collected) := rfl

theorem get_requestState (collected : Map) (requestState : Option String) :
    (inputRequiredResult collected requestState).get "requestState" =
      requestState.map .string := by
  cases requestState with
  | none => rfl
  | some token => rfl

/-- **The retry**: the next execution has the answers of this round. -/
theorem mrtrFields_retry {b : ClientBuilder} {version : ProtocolVersion} {params : Map}
    (hstate : ∀ v, Map.get params "requestState" = some v → ∃ token, v = .string token)
    (collected answers : Map) (requestState : Option String) :
    (mrtrFields (some (.object (versionedParams b version
      (retryParams params (inputRequiredResult collected requestState) answers))))).1 =
        answers := by
  let params' := versionedParams b version
    (retryParams params (inputRequiredResult collected requestState) answers)
  have hresponses : Map.get params' "inputResponses" = some (.object answers) := by
    rw [get_versionedParams (by decide)]
    unfold retryParams
    rw [get_requestState]
    cases requestState with
    | none => exact Map.get_insert_self _ _ _
    | some token =>
        show Map.get (Map.insert _ "requestState" _) "inputResponses" = _
        rw [Map.get_insert, if_neg (by decide)]
        exact Map.get_insert_self _ _ _
  have hreads : ∃ state, optionField params' "requestState" Value.asStr = some state := by
    have hget : Map.get params' "requestState" = none ∨
        ∃ token, Map.get params' "requestState" = some (.string token) := by
      rw [get_versionedParams (by decide)]
      unfold retryParams
      rw [get_requestState]
      cases requestState with
      | none =>
          show Map.get (Map.insert _ "inputResponses" _) _ = _ ∨ ∃ token,
            Map.get (Map.insert _ "inputResponses" _) _ = _
          rw [Map.get_insert, if_neg (by decide)]
          rcases hparams : Map.get params "requestState" with _ | v
          · exact .inl rfl
          · obtain ⟨token, rfl⟩ := hstate v hparams
            exact .inr ⟨token, rfl⟩
      | some token => exact .inr ⟨token, Map.get_insert_self _ _ _⟩
    unfold optionField
    rcases hget with hnone | ⟨token, htoken⟩
    · rw [show Map.get params' "requestState" = none from hnone]
      exact ⟨none, rfl⟩
    · rw [htoken]
      exact ⟨some token, rfl⟩
  obtain ⟨state, hreads⟩ := hreads
  rw [mrtrFields_object, hreads]
  unfold optionField
  rw [hresponses]
  rfl

/-- Two executions of a handler, one after the other, and the client's round between
them.  A handler may go by the state it stored, so that the second is another
program. -/
structure Retry (N : Type) where
  first : Handler N
  second : Handler N
  /-- What the first execution is answered with. -/
  responses : Map
  strictKeys : Bool
  clientCapabilities : Option Value
  b : ClientBuilder
  version : ProtocolVersion
  /-- The parameters of the call, as the first execution has them. -/
  params : Map
  /-- The state that came with the request, and the one that is sent back. -/
  stateIn : Option Value
  requestState : Option String

namespace Retry

variable {N : Type} (r : Retry N) (texts : Texts)

/-- The handle of an execution. -/
def handle (responses : Map) : ClientHandle :=
  ⟨.mrtr responses r.stateIn r.strictKeys, r.clientCapabilities⟩

/-- How an execution with these responses answers an ask. -/
def answering (responses collected : Map) (a : Ask) : Except McpError a.Reply × Map :=
  answerMrtr (r.handle responses) texts responses r.strictKeys collected a

/-- The first execution ends at the elicitation. -/
def Issues (e : Elicitation) (key minted : String) : Prop :=
  Program.Answered (r.answering texts r.responses) r.first Map.empty (e.ask key minted)
    (.error .inputRequired)

/-- The result the client gets. -/
def result : Value :=
  inputRequiredResult (r.first.mrtr (r.handle r.responses) texts r.responses r.strictKeys).2
    r.requestState

/-- The responses that the client's round brings to the second execution. -/
def answers (c : ClientHandler) : Option Map :=
  match answerInputs c ((((r.result texts).get "inputRequests").bind Value.asObject).getD []) [] with
  | .error _ => none
  | .ok responses =>
      some (mrtrFields (some (.object
        (versionedParams r.b r.version (retryParams r.params (r.result texts) responses))))).1

/-- The outcome is what the second execution receives for the elicitation. -/
def Receives (e : Elicitation) (key minted : String) (c : ClientHandler)
    (outcome : ElicitOutcome) : Prop :=
  ∃ responses, r.answers texts c = some responses ∧
    Program.Answered (r.answering texts responses) r.second Map.empty (e.ask key minted)
      (.ok (e.reply key minted outcome))

/-- The second execution asks for it before anything else that needs a response. -/
def AsksFirst (e : Elicitation) (key minted : String) : Prop :=
  ∃ k, r.second.stop (Ask.ready texts Map.empty r.clientCapabilities) =
    .asking (e.ask key minted) k

/-- A key stands for one question. -/
def KeepsKey (e : Elicitation) (key minted : String) : Prop :=
  ∀ a k, r.second.stop (Ask.ready texts Map.empty r.clientCapabilities) = .asking a k →
    key ∈ a.keys → a = e.ask key minted

/-- The state in the call's parameters is a token, if there is any. -/
def StateReadable : Prop :=
  ∀ v, Map.get r.params "requestState" = some v → ∃ token, v = .string token

variable {r texts} {e : Elicitation} {key minted : String}

/-- What is ready is answered, and nothing is recorded. -/
theorem answering_of_ready {responses : Map} (a : Ask) (out : Except McpError a.Reply)
    (h : a.ready texts responses r.clientCapabilities = some out) :
    r.answering texts responses Map.empty a = (out, Map.empty) :=
  answerMrtr_of_ready rfl a out h

/-- What is not ready ends the execution. -/
theorem answering_of_not_ready {responses : Map} {a : Ask}
    (h : a.ready texts responses r.clientCapabilities = none) :
    ∃ x collected, r.answering texts responses Map.empty a = (.error x, collected) :=
  answerMrtr_of_not_ready rfl h Map.empty

/-- The elicitation is where the first execution's responses give out. -/
theorem stop_of_issues (h : r.Issues texts e key minted) :
    ∃ k, r.first.stop (Ask.ready texts r.responses r.clientCapabilities) =
      .asking (e.ask key minted) k := by
  rcases Program.answered_cases (fun a out => answering_of_ready a out) h with
    hcached | ⟨a, k, hstop, hafter⟩
  · exact absurd hcached Elicitation.ready_ask_ne_inputRequired
  · obtain ⟨x, collected, hfails⟩ := answering_of_not_ready (Program.cache_of_stop hstop)
    have hsame := Program.eq_of_answered_of_error hfails hafter
    obtain rfl : e.ask key minted = a := congrArg Sigma.fst hsame
    exact ⟨k, hstop⟩

/-- The first execution records the elicitation, alone. -/
theorem collected_of_issues (h : r.Issues texts e key minted) :
    consent r.clientCapabilities "elicitation" = .ok () ∧
      (r.first.mrtr (r.handle r.responses) texts r.responses r.strictKeys).2 =
        [(key, e.request false minted)] := by
  obtain ⟨k, hstop⟩ := stop_of_issues h
  obtain ⟨hconsent, key', hkey', hmissing⟩ := Ask.ready_eq_none.mp (Program.cache_of_stop hstop)
  rw [Elicitation.keys_ask, List.mem_singleton] at hkey'
  subst hkey'
  have habort : r.answering texts r.responses Map.empty (e.ask key' minted) =
      (.error .inputRequired, recorded ((e.ask key' minted).requests false)) := by
    apply answerMrtr_abort rfl hconsent
    · rw [Elicitation.keys_ask]
      exact List.nodup_singleton _
    · rw [Elicitation.keys_ask]
      exact List.cons_ne_nil _ _
    · rw [Elicitation.keys_ask, List.forall_mem_singleton]
      exact hmissing
  have hrun : Program.attempt (r.answering texts r.responses) r.first Map.empty =
      (.error .inputRequired, recorded ((e.ask key' minted).requests false)) := by
    rw [Program.attempt_eq (fun a out => answering_of_ready a out), hstop]
    exact Program.attempt_error habort k
  rw [Elicitation.needs_ask] at hconsent
  refine ⟨hconsent, ?_⟩
  show (Program.attempt (r.answering texts r.responses) r.first Map.empty).2 = _
  rw [hrun, Elicitation.requests_ask]
  rfl

/-- The client's round answers the elicitation, and the second execution has that
answer and no other. -/
theorem answers_of_issues (h : r.Issues texts e key minted) (hstate : r.StateReadable)
    (c : ClientHandler) :
    r.answers texts c = some [(key, elicitOutcomeValue (c.elicit e.given))] := by
  obtain ⟨-, hcollected⟩ := collected_of_issues h
  have hresult : r.result texts =
      inputRequiredResult [(key, e.request false minted)] r.requestState := by
    unfold result
    rw [hcollected]
  have hanswers : answerInputs c [(key, e.request false minted)] [] =
      .ok [(key, elicitOutcomeValue (c.elicit e.given))] := by
    unfold answerInputs
    rw [Elicitation.answerInput_request]
    rfl
  unfold answers
  rw [hresult, get_inputRequests, Option.bind_some]
  show (match answerInputs c [(key, e.request false minted)] [] with
    | .error _ => none
    | .ok responses => some (mrtrFields (some (.object (versionedParams r.b r.version
        (retryParams r.params _ responses))))).1) = _
  rw [hanswers]
  show some _ = _
  rw [mrtrFields_retry hstate]

/-- With its answer there, the elicitation is ready. -/
theorem ready_answer (hconsent : consent r.clientCapabilities "elicitation" = .ok ())
    (outcome : ElicitOutcome) :
    (e.ask key minted).ready texts [(key, elicitOutcomeValue outcome)] r.clientCapabilities =
      some (.ok (e.reply key minted (arrived outcome))) := by
  unfold Ask.ready
  rw [Elicitation.needs_ask, hconsent]
  show (e.ask key minted).cached texts _ = _
  have hget : Map.get [(key, elicitOutcomeValue outcome)] key =
      some (elicitOutcomeValue outcome) := if_pos rfl
  rw [Elicitation.cached_ask, hget, Option.map_some, parse_elicitOutcomeValue]
  rfl

/-- **One round**: the second execution receives the outcome exactly if it asks for
the elicitation before anything else that needs a response. -/
theorem receives_iff (h : r.Issues texts e key minted) (hkeeps : r.KeepsKey texts e key minted)
    (hstate : r.StateReadable) (c : ClientHandler) :
    r.Receives texts e key minted c (arrived (c.elicit e.given)) ↔
      r.AsksFirst texts e key minted := by
  have hconsent := (collected_of_issues h).1
  have hanswers := answers_of_issues h hstate c
  let responses : Map := [(key, elicitOutcomeValue (c.elicit e.given))]
  -- what is ready without any response is so with this one
  have hextends : ∀ (a : Ask) out, a.ready texts Map.empty r.clientCapabilities = some out →
      r.answering texts responses Map.empty a = (out, Map.empty) := by
    intro a out hready
    exact answering_of_ready a out (Ask.ready_of_empty a out hready)
  have hnone : (e.ask key minted).ready texts Map.empty r.clientCapabilities = none := by
    rw [Ask.ready_eq_none, Elicitation.needs_ask, Elicitation.keys_ask]
    exact ⟨hconsent, key, List.mem_cons_self, rfl⟩
  constructor
  · rintro ⟨responses', hresponses', hanswered⟩
    rw [hanswers] at hresponses'
    cases hresponses'
    rcases Program.answered_cases hextends hanswered with hcached | ⟨a, k, hstop, hafter⟩
    · rw [hnone] at hcached
      cases hcached
    · by_cases hkey : key ∈ a.keys
      · obtain rfl := hkeeps a k hstop hkey
        exact ⟨k, hstop⟩
      · -- another ask comes first, and its response is missing
        obtain ⟨hagreed, key', hkey', -⟩ := Ask.ready_eq_none.mp (Program.cache_of_stop hstop)
        have hmissing : a.ready texts responses r.clientCapabilities = none := by
          rw [Ask.ready_eq_none]
          refine ⟨hagreed, key', hkey', ?_⟩
          apply if_neg
          rintro rfl
          exact hkey hkey'
        obtain ⟨x, collected, hfails⟩ := answering_of_not_ready hmissing
        cases Program.eq_of_answered_of_error hfails hafter
  · rintro ⟨k, hstop⟩
    refine ⟨responses, hanswers, ?_⟩
    have hanswered := Program.answered_of_stop hextends hstop
    rwa [answering_of_ready _ _ (ready_answer hconsent (c.elicit e.given))] at hanswered

/-- A handler that does not go by state keeps its keys. -/
theorem keepsKey_of_same (h : r.Issues texts e key minted) (hsame : r.second = r.first) :
    r.KeepsKey texts e key minted := by
  intro a k hstop hkey
  rw [hsame] at hstop
  obtain ⟨k', hissues⟩ := stop_of_issues h
  obtain ⟨-, key', hkey', hmissing⟩ := Ask.ready_eq_none.mp (Program.cache_of_stop hissues)
  rw [Elicitation.keys_ask, List.mem_singleton] at hkey'
  subst hkey'
  have hconsent := (Ask.ready_eq_none.mp (Program.cache_of_stop hstop)).1
  have hnone : a.ready texts r.responses r.clientCapabilities = none :=
    Ask.ready_eq_none.mpr ⟨hconsent, key', hkey, hmissing⟩
  rw [Program.stop_of_extends Ask.ready_of_empty, hstop] at hissues
  change Program.stop _ (Program.call a k) = _ at hissues
  rw [Program.stop_none hnone] at hissues
  cases hissues
  rfl

/-- What is faithful over a round. -/
theorem faithful_iff (h : r.Issues texts e key minted) (hkeeps : r.KeepsKey texts e key minted)
    (hstate : r.StateReadable) :
    e.Faithful (r.Receives texts e key minted) ↔ e.IsForm ∧ r.AsksFirst texts e key minted := by
  constructor
  · rintro ⟨given, rfl, hreceives⟩
    refine ⟨⟨given, rfl⟩, ?_⟩
    let c : ClientHandler := ⟨fun _ => ⟨.cancel, []⟩, fun _ => .ok .null, .ok .null⟩
    exact (receives_iff h hkeeps hstate c).mp (hreceives c)
  · rintro ⟨hform, hfirst⟩
    rw [Elicitation.faithful_iff_isForm]
    · exact hform
    · intro c
      exact (receives_iff h hkeeps hstate c).mpr hfirst

end Retry

/-! ## Over a task -/

section

open ExtTasks

/-- Each update of the run has the client's answers to what `tasks/get` showed of the
task at some time. -/
def AnsweredBy (c : ClientHandler) (capacity : Nat)
    (tr : List (DraftTaskStore.Call × Timeline)) : Prop :=
  ∀ x ∈ steps (Timeline.initial capacity) tr, ∀ task responses,
    x.2.1.op = .deliverInputs task responses →
      ∃ s ∈ states (Timeline.initial capacity) tr, ∃ entry requests answered answered',
        s.store.inner.get task = some entry ∧
          (entry.detailed task).inputRequests = some requests ∧
          answerNew c requests answered [] = .ok (answered', responses)

/-- The outcome is what the handler receives that awaits the elicitation's channel, and
it receives it with the first update that has a response under its key. -/
structure Elicitation.ReceivesOverTask (texts : Texts) (minted : String) (e : Elicitation)
    (c : ClientHandler) (outcome : ElicitOutcome) : Prop where
  own : ∀ capacity tr, Run Timeline.Step (Timeline.initial capacity) tr →
    AnsweredBy c capacity tr →
      ∀ p, (p, e.request false minted) ∈ Timeline.asked (Timeline.initial capacity) tr →
        ∀ s ∈ states (Timeline.initial capacity) tr, ∀ cancel v,
          Obtains s.store cancel p.channel (.ok v) → parseElicitOutcome texts v = .ok outcome
  received : ∀ capacity tr, Run Timeline.Step (Timeline.initial capacity) tr →
    ∀ p, (p, e.request false minted) ∈ Timeline.asked (Timeline.initial capacity) tr →
      ∀ x ∈ steps (Timeline.initial capacity) tr, ∀ responses,
        x.2.1.op = .deliverInputs p.task responses → p.key ∈ responses.map Prod.fst →
          ∀ entry, (x.1.store.purgedBy x.2.1).inner.get p.task = some entry →
            p.key ∈ entry.inputs.outstanding.keys →
              ∀ cancel, ∃ v, Obtains x.2.2.store cancel p.channel (.ok v)

/-- What the client answers, it answers to a request under that key. -/
theorem answerInput_of_answerNew {handler : ClientHandler} {requests responses responses' : Map}
    {answered answered' : List String}
    (h : answerNew handler requests answered responses = .ok (answered', responses')) :
    ∀ entry ∈ responses', entry ∈ responses ∨
      ∃ request, (entry.1, request) ∈ requests ∧ answerInput handler request = .ok entry.2 := by
  induction requests generalizing answered responses with
  | nil =>
      cases h
      intro entry hentry
      exact .inl hentry
  | cons r requests ih =>
      obtain ⟨key, request⟩ := r
      intro entry hentry
      rw [answerNew] at h
      split at h
      · rcases ih h entry hentry with hold | ⟨request', hmem, hanswer⟩
        · exact .inl hold
        · exact .inr ⟨request', List.mem_cons_of_mem _ hmem, hanswer⟩
      · split at h
        · cases h
        · rename_i answer hanswer
          rcases ih h entry hentry with hinserted | ⟨request', hmem, hanswer'⟩
          · rcases Entries.mem_of_mem_insert hinserted with hold | rfl
            · exact .inl hold
            · exact .inr ⟨request, List.mem_cons_self, hanswer⟩
          · exact .inr ⟨request', List.mem_cons_of_mem _ hmem, hanswer'⟩

/-- **Over a task**: the handler receives the outcome of what the client was shown. -/
theorem Elicitation.receivesOverTask (texts : Texts) (minted : String) (e : Elicitation)
    (c : ClientHandler) : e.ReceivesOverTask texts minted c (arrived (c.elicit e.given)) where
  own := by
    intro capacity tr hrun hanswers p hp s hs cancel v hv
    obtain ⟨x, hx, -, responses, entry, hop, hresponse, -⟩ :=
      Timeline.answers_of_obtains hrun hs (Timeline.published_of_obtains hrun hp hs hv) hv
    obtain ⟨s', hs', entry', requests, answered, answered', hget, hshown, hnew⟩ :=
      hanswers x hx p.task responses hop
    rcases answerInput_of_answerNew hnew (p.key, v) hresponse with hnil | ⟨request, hmem, hanswer⟩
    · cases hnil
    · have hout : entry'.inputs.outstanding.get p.key = some request := by
        unfold Entry.detailed at hshown
        simp only at hshown
        split at hshown
        · cases hshown
          exact (Dict.get_eq_some_iff ..).mpr hmem
        · cases hshown
      obtain ⟨q, hq, htask, hkey⟩ :=
        Timeline.outstanding_asked hrun s' hs' p.task entry' hget p.key request hout
      obtain rfl := Timeline.asked_unique hrun hp hq htask.symm hkey.symm
      rw [answerInput_request] at hanswer
      cases hanswer
      exact parse_elicitOutcomeValue texts (c.elicit e.given)
  received := by
    intro capacity tr hrun p hp x hx responses hop hresponse entry hentry hkey cancel
    exact Timeline.obtains_of_update hrun hx hp hop hentry hkey hresponse cancel

end

/-! ## The three paths -/

def sampleTexts : Texts := ⟨fun _ _ => "", fun _ => "", fun _ => ""⟩

def nameForm : ElicitParams := ⟨"Your name?", .object [("type", .string "object")]⟩

def cityForm : ElicitParams := ⟨"Your city?", .object [("type", .string "object")]⟩

def consentUrl (url : String) : ElicitUrlParams := ⟨"Please sign in", none, url⟩

def elicitingCaps : Option Value := some (.object [("elicitation", .object [])])

/-- A call whose handler goes by no state. -/
def sampleRetry (handler : Handler Unit) (responses : Map) : Retry Unit where
  first := handler
  second := handler
  responses := responses
  strictKeys := false
  clientCapabilities := elicitingCaps
  b := ⟨⟨"client", none, "1"⟩, .object [], .auto⟩
  version := .draft
  params := [("name", .string "greet")]
  stateIn := none
  requestState := none

def askName : Handler Unit := .call (.elicit "name" nameForm) fun _ => .ret (.ok ())

def askNameAndCity : Handler Unit :=
  .call (.elicit "name" nameForm) fun _ => .call (.elicit "city" cityForm) fun _ => .ret (.ok ())

theorem readable_sample (handler : Handler Unit) (responses : Map) :
    (sampleRetry handler responses).StateReadable := by
  intro v hv
  cases hv

end TurboMcp.System
