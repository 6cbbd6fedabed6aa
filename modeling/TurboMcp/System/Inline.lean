import TurboMcp.Client.Input
import TurboMcp.Server.Handler

/-!
# Asking inline

On the legacy path each input request goes to the client as a request of its
own, and the handler blocks until the answer is back.  The client answers it by
the same function as a packaged one, so an ask has one answer, `askAnswer`, on
either path; what the paths do with a failed or a `null` one differs.
-/

namespace TurboMcp.System

open TurboMcp.Core TurboMcp.Lib TurboMcp.Server TurboMcp.Client

/-! ## One request -/

/-- A response as it is read off the wire: a `null` result is an absent one. -/
def received (resp : JsonRpcResponse) : JsonRpcResponse :=
  { resp with result := resp.result.filter (· ≠ .null) }

/-- What the client's actor answers to a server's request. -/
def serverRequestReply (c : ClientHandler) (id : RequestId) (request : Value) : JsonRpcResponse :=
  match answerInput c request with
  | .ok value => .success id value
  | .error err => .failure id err

/-- `send_and_await`, for an answer that comes in time. -/
def sendAndAwait (c : ClientHandler) (request : Value) : Except McpError Value :=
  let response := received (serverRequestReply c (.string "srv") request)
  match response.result, response.error with
  | some result, none => .ok result
  | _, some e =>
      .error (.internal
        ("client answered input request with error " ++ toString e.code ++ ": " ++ e.message))
  | _, _ => .error (.internal "client answered input request with an empty response")

/-- `obtain` on the legacy path; the requests the client is asked are kept. -/
def obtainInline (c : ClientHandler) (asked : List Value) (o : Obtain) :
    Except McpError Value × List Value :=
  (sendAndAwait c o.request, asked ++ [o.request])

variable {N : Type}

/-- A handler answered inline: how it ends, and what the client was asked. -/
def inlineRun (handle : ClientHandle) (texts : Texts) (c : ClientHandler) (h : Handler N) :
    Except McpError N × List Value :=
  (h.each handle texts).exec (obtainInline c) []

def emptyResponse : McpError :=
  .internal "client answered input request with an empty response"

theorem sendAndAwait_ok {c : ClientHandler} {request value : Value}
    (h : answerInput c request = .ok value) :
    sendAndAwait c request = if value = .null then .error emptyResponse else .ok value := by
  unfold sendAndAwait serverRequestReply
  simp only [h, received, JsonRpcResponse.success, Option.filter_some]
  by_cases hv : value = .null
  · simp [hv, emptyResponse]
  · simp [hv]

theorem sendAndAwait_error {c : ClientHandler} {request : Value} {e : JsonRpcError}
    (h : answerInput c request = .error e) :
    sendAndAwait c request = .error (.internal
      ("client answered input request with error " ++ toString e.code ++ ": " ++ e.message)) := by
  unfold sendAndAwait serverRequestReply
  simp only [h, received, JsonRpcResponse.failure]

/-! ## One ask -/

/-- An outcome as it arrives: `content` comes with `accept` only. -/
def arrived (outcome : ElicitOutcome) : ElicitOutcome :=
  { outcome with content := if outcome.action = .accept then outcome.content else Map.empty }

/-- What the client's handler is given for a URL: a form without fields. -/
def readAsForm (params : ElicitUrlParams) : ElicitParams where
  message := params.message
  requestedSchema := .object []

/-- What the client answers to an ask. -/
def askAnswer (c : ClientHandler) : (a : Ask) → Except JsonRpcError a.Reply
  | .elicit _ params => .ok (arrived (c.elicit params))
  | .elicitUrl _ params _ => .ok (arrived (c.elicit (readAsForm params)))
  | .elicitAll requests => .ok (requests.map fun r => arrived (c.elicit r.2))
  | .createMessage _ params => (c.createMessage params).mapError fun e => internalError e.display
  | .listRoots _ => c.listRoots.mapError fun e => internalError e.display

theorem answerInput_elicit (c : ClientHandler) (params : ElicitParams) :
    answerInput c (elicitRequestValue params) = .ok (elicitOutcomeValue (c.elicit params)) := by
  simp [answerInput, elicitRequestValue, Map.get, dispatchServerRequest, parseElicitParams,
    Except.map]

theorem answerInput_elicitUrl (c : ClientHandler) (params : ElicitUrlParams)
    (legacyId : Option String) :
    answerInput c (elicitUrlRequestValue params legacyId) =
      .ok (elicitOutcomeValue (c.elicit (readAsForm params))) := by
  cases legacyId with
  | none =>
      simp [answerInput, elicitUrlRequestValue, Map.get, dispatchServerRequest,
        parseElicitParams, Except.map, readAsForm]
  | some id =>
      simp [answerInput, elicitUrlRequestValue, Map.get, dispatchServerRequest,
        parseElicitParams, Except.map, readAsForm]

theorem answerInput_createMessage (c : ClientHandler) (params : Value) :
    answerInput c (rawRequestValue "sampling/createMessage" params) =
      (c.createMessage params).mapError fun e => internalError e.display := by
  simp [answerInput, rawRequestValue, Map.get, dispatchServerRequest]

theorem answerInput_listRoots (c : ClientHandler) :
    answerInput c (rawRequestValue "roots/list" (.object [])) =
      c.listRoots.mapError fun e => internalError e.display := by
  simp [answerInput, rawRequestValue, Map.get, dispatchServerRequest]

/-- What the client writes of an outcome is read back as it arrives. -/
theorem parse_elicitOutcomeValue (texts : Texts) (outcome : ElicitOutcome) :
    parseElicitOutcome texts (elicitOutcomeValue outcome) = .ok (arrived outcome) := by
  obtain ⟨action, content⟩ := outcome
  cases action <;>
    simp [parseElicitOutcome, elicitOutcomeValue, structFields, stringField, Map.get,
      ElicitAction.asStr, arrived]

/-- The one answer that is lost inline. -/
def isNull : (a : Ask) → a.Reply → Bool
  | .elicit _ _, _ | .elicitUrl _ _ _, _ | .elicitAll _, _ => false
  | .createMessage _ _, (value : Value) | .listRoots _, (value : Value) => value = .null

/-- The handler's error for an ask that the client refuses. -/
def refusal (e : JsonRpcError) : McpError :=
  .internal ("client answered input request with error " ++ toString e.code ++ ": " ++ e.message)

/-- A raw answer, as the handler gets it inline. -/
def rawReply : Except JsonRpcError Value → Except McpError Value
  | .error e => .error (refusal e)
  | .ok value => if value = .null then .error emptyResponse else .ok value

/-- The handler's view of an ask answered inline. -/
def inlineReply (c : ClientHandler) (a : Ask) : Except McpError a.Reply :=
  match askAnswer c a with
  | .error e => .error (refusal e)
  | .ok reply => if isNull a reply then .error emptyResponse else .ok reply

theorem inlineReply_of_error {c : ClientHandler} {a : Ask} {e : JsonRpcError}
    (h : askAnswer c a = .error e) : inlineReply c a = .error (refusal e) := by
  unfold inlineReply
  rw [h]

theorem inlineReply_of_ok {c : ClientHandler} {a : Ask} {reply : a.Reply}
    (h : askAnswer c a = .ok reply) :
    inlineReply c a = if isNull a reply then .error emptyResponse else .ok reply := by
  unfold inlineReply
  rw [h]

theorem inlineReply_createMessage (c : ClientHandler) (key : String) (params : Value) :
    inlineReply c (.createMessage key params) =
      rawReply ((c.createMessage params).mapError fun e => internalError e.display) := by
  cases hout : (c.createMessage params).mapError fun e => internalError e.display with
  | error e => exact inlineReply_of_error hout
  | ok value =>
      refine (inlineReply_of_ok (a := .createMessage key params) hout).trans ?_
      show (if decide (value = .null) = true then _ else _) = if value = .null then _ else _
      simp only [decide_eq_true_eq]
      rfl

theorem inlineReply_listRoots (c : ClientHandler) (key : String) :
    inlineReply c (.listRoots key) =
      rawReply (c.listRoots.mapError fun e => internalError e.display) := by
  cases hout : c.listRoots.mapError fun e => internalError e.display with
  | error e => exact inlineReply_of_error hout
  | ok value =>
      refine (inlineReply_of_ok (a := .listRoots key) hout).trans ?_
      show (if decide (value = .null) = true then _ else _) = if value = .null then _ else _
      simp only [decide_eq_true_eq]
      rfl

section

variable {handle : ClientHandle} {texts : Texts} {c : ClientHandler} {asked : List Value}

theorem elicitOutcomeValue_ne_null (outcome : ElicitOutcome) :
    elicitOutcomeValue outcome ≠ .null := by
  unfold elicitOutcomeValue
  exact Value.noConfusion

/-- An elicitation whose request the client reads as the form `given`. -/
theorem exec_elicitBy_inline (hm : handle.mode.available = true)
    (hok : consent handle.clientCapabilities "elicitation" = .ok ()) (key : String)
    {request : Value} {given : ElicitParams}
    (hgiven : answerInput c request = .ok (elicitOutcomeValue (c.elicit given))) :
    (handle.elicitBy texts key request).exec (obtainInline c) asked =
      (.ok (arrived (c.elicit given)), asked ++ [request]) := by
  rw [exec_elicitBy, exec_request _ _ hm, hok]
  simp only [obtainInline]
  rw [sendAndAwait_ok hgiven, if_neg (elicitOutcomeValue_ne_null _)]
  refine Prod.ext ?_ rfl
  exact parse_elicitOutcomeValue texts (c.elicit given)

theorem exec_elicitEach_inline (hm : handle.mode.available = true)
    (hok : consent handle.clientCapabilities "elicitation" = .ok ())
    (requests : List (String × ElicitParams)) :
    (handle.elicitEach texts requests).exec (obtainInline c) asked =
      (.ok (requests.map fun r => arrived (c.elicit r.2)),
        asked ++ requests.map fun r => elicitRequestValue r.2) := by
  induction requests generalizing asked with
  | nil => simp [ClientHandle.elicitEach]
  | cons r requests ih =>
      obtain ⟨key, params⟩ := r
      rw [ClientHandle.elicitEach, Program.exec_bind, ClientHandle.elicit,
        exec_elicitBy_inline hm hok key (answerInput_elicit c params)]
      simp only
      rw [Program.exec_bind, ih]
      simp

/-- **One ask, inline**: refused without consent, else put to the client request
by request. -/
theorem exec_answer (hm : handle.mode.available = true) (a : Ask) :
    (handle.answer texts a).exec (obtainInline c) asked =
      match consent handle.clientCapabilities a.needs with
      | .error e => (.error e, asked)
      | .ok () => (inlineReply c a, asked ++ (a.requests handle.legacy).map Prod.snd) := by
  have hraw {key capability : String} {request : Value} {out : Except JsonRpcError Value}
      (hok : consent handle.clientCapabilities capability = .ok ())
      (hout : answerInput c request = out) :
      (handle.request key capability request).exec (obtainInline c) asked =
        (rawReply out, asked ++ [request]) := by
    rw [exec_request _ _ hm, hok]
    simp only [obtainInline]
    cases out with
    | error e => rw [sendAndAwait_error hout]; rfl
    | ok value => rw [sendAndAwait_ok hout]; rfl
  have hrefusedBy {key : String} {request : Value} {e : McpError}
      (he : consent handle.clientCapabilities "elicitation" = .error e) :
      (handle.elicitBy texts key request).exec (obtainInline c) asked = (.error e, asked) := by
    rw [exec_elicitBy, exec_request _ _ hm, he]
    rfl
  cases hc : consent handle.clientCapabilities a.needs with
  | error e =>
      cases a with
      | elicit key params => exact hrefusedBy hc
      | elicitUrl key params minted => exact hrefusedBy hc
      | elicitAll requests =>
          show (handle.elicitAll texts requests).exec _ _ = _
          unfold ClientHandle.elicitAll
          rw [requireCapability_eq hm,
            show consent handle.clientCapabilities "elicitation" = _ from hc]
          rfl
      | createMessage key params =>
          refine (exec_request _ _ hm key "sampling" _).trans ?_
          rw [show consent handle.clientCapabilities "sampling" = _ from hc]
          rfl
      | listRoots key =>
          refine (exec_request _ _ hm key "roots" _).trans ?_
          rw [show consent handle.clientCapabilities "roots" = _ from hc]
          rfl
  | ok _ =>
      cases a with
      | elicit key params => exact exec_elicitBy_inline hm hc key (answerInput_elicit c params)
      | elicitUrl key params minted =>
          exact exec_elicitBy_inline hm hc key (answerInput_elicitUrl c params _)
      | elicitAll requests =>
          show (handle.elicitAll texts requests).exec _ _ = _
          unfold ClientHandle.elicitAll
          rw [requireCapability_eq hm,
            show consent handle.clientCapabilities "elicitation" = _ from hc]
          refine (exec_elicitEach_inline hm hc requests).trans ?_
          simp only [Ask.requests, List.map_map]
          rfl
      | createMessage key params =>
          exact (hraw hc (answerInput_createMessage c params)).trans
            (Prod.ext (inlineReply_createMessage c key params).symm rfl)
      | listRoots key =>
          exact (hraw hc (answerInput_listRoots c)).trans
            (Prod.ext (inlineReply_listRoots c key).symm rfl)

/-! ## A whole handler -/

theorem exec_each {σ : Type} (ans : σ → Obtain → Except McpError Value × σ) (h : Handler N)
    (s : σ) :
    (h.each handle texts).exec ans s =
      h.attempt (fun s a => (handle.answer texts a).exec ans s) s := by
  induction h generalizing s with
  | ret r => rfl
  | call a k ih =>
      rw [Handler.each, Program.exec_bind, Program.attempt]
      cases hout : (handle.answer texts a).exec ans s with
      | mk out s' =>
          cases out with
          | error e => rfl
          | ok reply => exact ih reply s'

/-- Without the client's help, a handler gets inline where it gets on the draft. -/
theorem inlineRun_eq (hm : handle.mode.available = true) (h : Handler N) :
    inlineRun handle texts c h =
      match h.stop (fun a => a.ready texts Map.empty handle.clientCapabilities) with
      | .ended r => (r, [])
      | .asking a k =>
          ((Program.call a k).attempt
            (fun s a => (handle.answer texts a).exec (obtainInline c) s) []) := by
  have hcached : ∀ (a : Ask) (r : Except McpError a.Reply),
      a.ready texts Map.empty handle.clientCapabilities = some r →
      (fun s a => (handle.answer texts a).exec (obtainInline c) s) [] a = (r, []) := by
    intro a r hr
    simp only
    rw [exec_answer hm]
    unfold Ask.ready at hr
    cases hconsent : consent handle.clientCapabilities a.needs with
    | error e =>
        rw [hconsent] at hr
        cases hr
        rfl
    | ok _ =>
        rw [hconsent] at hr
        simp only at hr
        have hkeys : a.keys = [] := by
          rw [List.eq_nil_iff_forall_not_mem]
          intro key hkey
          have hnone : a.cached texts Map.empty = none := Ask.cached_eq_none.mpr ⟨key, hkey, rfl⟩
          rw [hnone] at hr
          cases hr
        cases a with
        | elicit key params => simp [Ask.keys, Ask.requests] at hkeys
        | elicitUrl key params minted => simp [Ask.keys, Ask.requests] at hkeys
        | elicitAll requests =>
            obtain rfl : requests = [] := by simpa [Ask.keys, Ask.requests] using hkeys
            cases hr
            rfl
        | createMessage key params => simp [Ask.keys, Ask.requests] at hkeys
        | listRoots key => simp [Ask.keys, Ask.requests] at hkeys
  unfold inlineRun
  rw [exec_each, Program.attempt_eq hcached]
  cases h.stop fun a => a.ready texts Map.empty handle.clientCapabilities <;> rfl

end

end TurboMcp.System
