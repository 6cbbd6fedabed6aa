import TurboMcp.Lib.Resume
import TurboMcp.Server.Replies

/-!
# Handlers and their client channel

A handler is a program over what it asks of the client, and ends when an ask
fails.  Its `ClientHandle` turns each ask into single input requests, which the
delivery mode obtains one by one; the draft's coordinator answers them from the
retry's `inputResponses` or records them and aborts.
-/

namespace TurboMcp.Server

open TurboMcp.Core TurboMcp.Lib

/-! ## Asking -/

/-- What a handler asks of the client, under keys of its own choice; `minted` is the
elicitation id that is drawn where one is needed. -/
inductive Ask
  | elicit (key : String) (params : ElicitParams)
  | elicitUrl (key : String) (params : ElicitUrlParams) (minted : String)
  | elicitAll (requests : List (String × ElicitParams))
  | createMessage (key : String) (params : Value)
  | listRoots (key : String)

namespace Ask

def Reply : Ask → Type
  | elicit _ _ | elicitUrl _ _ _ => ElicitOutcome
  | elicitAll _ => List ElicitOutcome
  | createMessage _ _ | listRoots _ => Value

/-- The client capability an ask needs. -/
def needs : Ask → String
  | elicit _ _ | elicitUrl _ _ _ | elicitAll _ => "elicitation"
  | createMessage _ _ => "sampling"
  | listRoots _ => "roots"

end Ask

/-- `elicit_request_value`. -/
def elicitRequestValue (params : ElicitParams) : Value :=
  .object [("method", .string "elicitation/create"),
    ("params", .object [("mode", .string "form"), ("message", .string params.message),
      ("requestedSchema", params.requestedSchema)])]

/-- `elicit_url_request_value`: the id is there on the legacy wire only. -/
def elicitUrlRequestValue (params : ElicitUrlParams) (legacyId : Option String) : Value :=
  .object [("method", .string "elicitation/create"),
    ("params", .object ([("mode", .string "url"), ("message", .string params.message),
        ("url", .string params.url)] ++
      (legacyId.map fun id => ("elicitationId", .string id)).toList))]

def rawRequestValue (method : String) (params : Value) : Value :=
  .object [("method", .string method), ("params", params)]

/-- The input requests of an ask, keyed; on the legacy wire a URL comes with an id. -/
def Ask.requests (legacy : Bool) : Ask → List (String × Value)
  | elicit key params => [(key, elicitRequestValue params)]
  | elicitUrl key params minted =>
      [(key, elicitUrlRequestValue params
        (if legacy then some (params.elicitationId.getD minted) else none))]
  | elicitAll requests => requests.map fun r => (r.1, elicitRequestValue r.2)
  | createMessage key params => [(key, rawRequestValue "sampling/createMessage" params)]
  | listRoots key => [(key, rawRequestValue "roots/list" (.object []))]

def Ask.keys (a : Ask) : List String := (a.requests false).map Prod.fst

theorem Ask.map_fst_requests (a : Ask) (legacy : Bool) :
    (a.requests legacy).map Prod.fst = a.keys := by
  cases a with
  | elicitAll requests => rfl
  | _ => rfl

/-- A handler that goes on when its asks succeed and ends with the error of the
one that does not. -/
abbrev Handler (N : Type) := Program Ask Ask.Reply (Except McpError N)

/-- `RawElicitResult`, with `content` kept on `accept` only. -/
def parseElicitOutcome (texts : Texts) (raw : Value) : Except McpError ElicitOutcome :=
  let decoded := do
    let m ← structFields ["action", "content"] raw
    let action ← stringField m "action"
    let content ← match m.get "content" with
      | none => some Map.empty
      | some c => c.asObject
    pure (action, content)
  match decoded with
  | none =>
      .error (.invalidParams
        ("invalid elicit response: " ++ texts.serdeError "RawElicitResult" raw))
  | some (action, content) =>
      if action = "accept" then .ok { action := .accept, content }
      else if action = "decline" then .ok { action := .decline, content := Map.empty }
      else if action = "cancel" then .ok { action := .cancel, content := Map.empty }
      else .error (.invalidParams ("invalid elicit action: " ++ action))

/-! ## Obtaining single requests -/

/-- One input request, obtained from the client by the handle's mode. -/
structure Obtain where
  key : String
  request : Value

abbrev Obtaining := Program Obtain fun _ => Except McpError Value

def obtain (key : String) (request : Value) : Obtaining (Except McpError Value) :=
  .call ⟨key, request⟩ .ret

/-- Whether the client declared the capability. -/
def consent (clientCapabilities : Option Value) (capability : String) : Except McpError Unit :=
  if (clientCapabilities.bind (·.get capability)).isSome then .ok ()
  else .error (.invalidParams
    ("client did not declare the \x60" ++ capability ++ "\x60 capability"))

namespace ClientHandle

/-- `require_capability`: there is a channel, and the client agreed to its use. -/
def requireCapability (handle : ClientHandle) (capability : String) : Except McpError Unit :=
  match handle.mode with
  | .unavailable reason => .error (.internal reason)
  | _ => consent handle.clientCapabilities capability

/-- `obtain` behind its capability check. -/
def request (handle : ClientHandle) (key capability : String) (request : Value) :
    Obtaining (Except McpError Value) :=
  match handle.requireCapability capability with
  | .error e => .ret (.error e)
  | .ok () => obtain key request

variable (handle : ClientHandle) (texts : Texts)

/-- An elicitation by its request. -/
def elicitBy (key : String) (request : Value) : Obtaining (Except McpError ElicitOutcome) := do
  match ← handle.request key "elicitation" request with
  | .error e => pure (.error e)
  | .ok raw => pure (parseElicitOutcome texts raw)

def elicit (key : String) (params : ElicitParams) : Obtaining (Except McpError ElicitOutcome) :=
  handle.elicitBy texts key (elicitRequestValue params)

/-- Whether the handle writes the legacy wire. -/
def legacy : Bool :=
  match handle.mode with
  | .bidi _ _ => true
  | _ => false

def elicitUrl (key : String) (params : ElicitUrlParams) (minted : String) :
    Obtaining (Except McpError ElicitOutcome) :=
  handle.elicitBy texts key (elicitUrlRequestValue params
    (if handle.legacy then some (params.elicitationId.getD minted) else none))

/-- One elicitation after the other, until one fails. -/
def elicitEach : List (String × ElicitParams) →
    Obtaining (Except McpError (List ElicitOutcome))
  | [] => pure (.ok [])
  | (key, params) :: requests => do
      match ← handle.elicit texts key params with
      | .error e => pure (.error e)
      | .ok outcome =>
          match ← elicitEach requests with
          | .error e => pure (.error e)
          | .ok outcomes => pure (.ok (outcome :: outcomes))

/-- `elicit_all` where each request is resolved by itself. -/
def elicitAll (requests : List (String × ElicitParams)) :
    Obtaining (Except McpError (List ElicitOutcome)) :=
  match handle.requireCapability "elicitation" with
  | .error e => pure (.error e)
  | .ok () => handle.elicitEach texts requests

def createMessage (key : String) (params : Value) : Obtaining (Except McpError Value) :=
  handle.request key "sampling" (rawRequestValue "sampling/createMessage" params)

def listRoots (key : String) : Obtaining (Except McpError Value) :=
  handle.request key "roots" (rawRequestValue "roots/list" (.object []))

/-- An ask where requests are resolved one by one. -/
def answer : (a : Ask) → Obtaining (Except McpError a.Reply)
  | .elicit key params => handle.elicit texts key params
  | .elicitUrl key params minted => handle.elicitUrl texts key params minted
  | .elicitAll requests => handle.elicitAll texts requests
  | .createMessage key params => handle.createMessage key params
  | .listRoots key => handle.listRoots key

end ClientHandle

/-- The mode's channel exists. -/
def HandleMode.available : HandleMode → Bool
  | .unavailable _ => false
  | _ => true

theorem requireCapability_eq {handle : ClientHandle} (h : handle.mode.available = true)
    (capability : String) :
    handle.requireCapability capability = consent handle.clientCapabilities capability := by
  unfold ClientHandle.requireCapability
  cases hm : handle.mode with
  | unavailable reason =>
      rw [hm] at h
      cases h
  | _ => rfl

section

variable {handle : ClientHandle} {σ : Type} (ans : σ → Obtain → Except McpError Value × σ) (s : σ)

theorem exec_request (hm : handle.mode.available = true) (key capability : String)
    (request : Value) :
    (handle.request key capability request).exec ans s =
      match consent handle.clientCapabilities capability with
      | .error e => (.error e, s)
      | .ok () => ans s ⟨key, request⟩ := by
  unfold ClientHandle.request
  rw [requireCapability_eq hm]
  cases consent handle.clientCapabilities capability <;> rfl

theorem exec_elicitBy (texts : Texts) (key : String) (request : Value) :
    (handle.elicitBy texts key request).exec ans s =
      (((handle.request key "elicitation" request).exec ans s).1.bind (parseElicitOutcome texts),
        ((handle.request key "elicitation" request).exec ans s).2) := by
  unfold ClientHandle.elicitBy
  rw [Program.exec_bind]
  cases ((handle.request key "elicitation" request).exec ans s).1 <;> rfl

end

/-! ## The draft's coordinator -/

/-- `record`: a key used again with another request is refused under strict
keys. -/
def recordInput (strictKeys : Bool) (collected : Map) (key : String) (request : Value) :
    Except McpError Map :=
  match Map.get collected key with
  | none => .ok (Map.insertSorted collected key request)
  | some previous =>
      if previous ≠ request ∧ strictKeys = true then
        .error (.invalidParams
          ("elicit key \x60" ++ key ++ "\x60 re-used with a different request shape"))
      else .ok (Map.insertSorted collected key request)

/-- `obtain` on the draft: the retry's response, or an abort that records the
request. -/
def obtainMrtr (responses : Map) (strictKeys : Bool) (collected : Map) (o : Obtain) :
    Except McpError Value × Map :=
  match Map.get responses o.key with
  | some raw => (.ok raw, collected)
  | none =>
      match recordInput strictKeys collected o.key o.request with
      | .ok collected => (.error .inputRequired, collected)
      | .error e => (.error e, collected)

/-- Record what is missing of a batch, and abort. -/
def recordMissing (responses : Map) (strictKeys : Bool) :
    List (String × Value) → Map → McpError × Map
  | [], collected => (.inputRequired, collected)
  | (key, request) :: requests, collected =>
      if Map.containsKey responses key then recordMissing responses strictKeys requests collected
      else
        match recordInput strictKeys collected key request with
        | .ok collected => recordMissing responses strictKeys requests collected
        | .error e => (e, collected)

/-- The outcomes of a batch whose responses are all there. -/
def parseBatch (texts : Texts) (responses : Map) (requests : List (String × ElicitParams)) :
    Except McpError (List ElicitOutcome) :=
  requests.mapM fun r => parseElicitOutcome texts ((Map.get responses r.1).getD .null)

/-- `elicit_all` on the draft: one abort for all that is missing. -/
def elicitAllMrtr (handle : ClientHandle) (texts : Texts) (responses : Map) (strictKeys : Bool)
    (collected : Map) (requests : List (String × ElicitParams)) :
    Except McpError (List ElicitOutcome) × Map :=
  match handle.requireCapability "elicitation" with
  | .error e => (.error e, collected)
  | .ok () =>
      if requests.all fun r => Map.containsKey responses r.1 then
        (parseBatch texts responses requests, collected)
      else
        let (e, collected) :=
          recordMissing responses strictKeys ((Ask.elicitAll requests).requests handle.legacy)
            collected
        (.error e, collected)

/-- One ask on the draft. -/
def answerMrtr (handle : ClientHandle) (texts : Texts) (responses : Map) (strictKeys : Bool)
    (collected : Map) : (a : Ask) → Except McpError a.Reply × Map
  | .elicitAll requests => elicitAllMrtr handle texts responses strictKeys collected requests
  | .elicit key params =>
      (handle.elicit texts key params).exec (obtainMrtr responses strictKeys) collected
  | .elicitUrl key params minted =>
      (handle.elicitUrl texts key params minted).exec (obtainMrtr responses strictKeys) collected
  | .createMessage key params =>
      (handle.createMessage key params).exec (obtainMrtr responses strictKeys) collected
  | .listRoots key => (handle.listRoots key).exec (obtainMrtr responses strictKeys) collected

variable {N : Type}

/-- One execution of a handler on the draft: its result, and what it recorded. -/
def Handler.mrtr (h : Handler N) (handle : ClientHandle) (texts : Texts) (responses : Map)
    (strictKeys : Bool) : Except McpError N × Map :=
  h.attempt (answerMrtr handle texts responses strictKeys) Map.empty

/-- A handler whose requests are obtained one by one. -/
def Handler.each (handle : ClientHandle) (texts : Texts) :
    Handler N → Obtaining (Except McpError N)
  | .ret r => .ret r
  | .call a k => do
      match ← handle.answer texts a with
      | .error e => pure (.error e)
      | .ok reply => each handle texts (k reply)

/-! ## What needs no client -/

section

variable (texts : Texts) (responses : Map)

/-- The reply to an ask all of whose responses are there. -/
def Ask.cached : (a : Ask) → Option (Except McpError a.Reply)
  | .elicit key _ | .elicitUrl key _ _ =>
      (Map.get responses key).map (parseElicitOutcome texts)
  | .elicitAll requests =>
      if requests.all fun r => Map.containsKey responses r.1 then
        some (parseBatch texts responses requests)
      else none
  | .createMessage key _ | .listRoots key => (Map.get responses key).map .ok

/-- The reply the handle gives without asking for more. -/
def Ask.ready (clientCapabilities : Option Value) (a : Ask) : Option (Except McpError a.Reply) :=
  match consent clientCapabilities a.needs with
  | .error e => some (.error e)
  | .ok () => a.cached texts responses

variable {texts} {responses}

theorem Ask.cached_eq_none {a : Ask} :
    a.cached texts responses = none ↔ ∃ key ∈ a.keys, Map.get responses key = none := by
  cases a with
  | elicit key params =>
      refine Option.map_eq_none_iff.trans ?_
      show Map.get responses key = none ↔ ∃ k ∈ [key], Map.get responses k = none
      rw [List.exists_mem_cons_iff]
      simp
  | elicitUrl key params minted =>
      refine Option.map_eq_none_iff.trans ?_
      show Map.get responses key = none ↔ ∃ k ∈ [key], Map.get responses k = none
      rw [List.exists_mem_cons_iff]
      simp
  | elicitAll requests =>
      have hmissing : (∃ key ∈ (elicitAll requests).keys, Map.get responses key = none) ↔
          ¬ (requests.all fun r => Map.containsKey responses r.1) = true := by
        simp [keys, Ask.requests, Map.containsKey]
      rw [hmissing]
      simp only [cached]
      split
      · rename_i hall
        exact iff_of_false (fun h => nomatch h) (not_not.mpr hall)
      · rename_i hall
        exact iff_of_true rfl hall
  | createMessage key params =>
      refine Option.map_eq_none_iff.trans ?_
      show Map.get responses key = none ↔ ∃ k ∈ [key], Map.get responses k = none
      rw [List.exists_mem_cons_iff]
      simp
  | listRoots key =>
      refine Option.map_eq_none_iff.trans ?_
      show Map.get responses key = none ↔ ∃ k ∈ [key], Map.get responses k = none
      rw [List.exists_mem_cons_iff]
      simp

/-- An ask that needs no response needs none in any execution. -/
theorem Ask.cached_of_empty {a : Ask} {r : Except McpError a.Reply}
    (h : a.cached texts Map.empty = some r) : a.cached texts responses = some r := by
  have hkeys : a.keys = [] := by
    rw [List.eq_nil_iff_forall_not_mem]
    intro key hkey
    have hnone : a.cached texts Map.empty = none := Ask.cached_eq_none.mpr ⟨key, hkey, rfl⟩
    rw [hnone] at h
    cases h
  cases a with
  | elicit key params => simp [keys, requests] at hkeys
  | elicitUrl key params minted => simp [keys, requests] at hkeys
  | elicitAll requests =>
      obtain rfl : requests = [] := by simpa [keys, Ask.requests] using hkeys
      exact h
  | createMessage key params => simp [keys, requests] at hkeys
  | listRoots key => simp [keys, requests] at hkeys

theorem Ask.ready_of_empty {caps : Option Value} (a : Ask) (r : Except McpError a.Reply)
    (h : a.ready texts Map.empty caps = some r) : a.ready texts responses caps = some r := by
  unfold ready at h ⊢
  split at h
  · exact h
  · exact cached_of_empty h

theorem Ask.ready_eq_none {caps : Option Value} {a : Ask} :
    a.ready texts responses caps = none ↔
      consent caps a.needs = .ok () ∧ ∃ key ∈ a.keys, Map.get responses key = none := by
  unfold ready
  split
  · rename_i e he
    simp [he]
  · rename_i hok
    rw [cached_eq_none, hok]
    simp

end

/-! ## One execution on the draft -/

section

variable {handle : ClientHandle} {texts : Texts} {responses : Map} {strictKeys : Bool}

/-- What is ready is answered, and nothing is recorded. -/
theorem answerMrtr_of_ready (hm : handle.mode.available = true) {collected : Map} (a : Ask)
    (r : Except McpError a.Reply)
    (h : a.ready texts responses handle.clientCapabilities = some r) :
    answerMrtr handle texts responses strictKeys collected a = (r, collected) := by
  have hobtained {key capability : String} {request raw : Value}
      (hok : consent handle.clientCapabilities capability = .ok ())
      (hraw : Map.get responses key = some raw) :
      (handle.request key capability request).exec (obtainMrtr responses strictKeys) collected =
        (.ok raw, collected) := by
    rw [exec_request _ _ hm, hok]
    simp only [obtainMrtr, hraw]
  have hrefused {key capability : String} {request : Value} {e : McpError}
      (he : consent handle.clientCapabilities capability = .error e) :
      (handle.request key capability request).exec (obtainMrtr responses strictKeys) collected =
        (.error e, collected) := by
    rw [exec_request _ _ hm, he]
  have hobtainedBy {key : String} {request raw : Value}
      (hok : consent handle.clientCapabilities "elicitation" = .ok ())
      (hraw : Map.get responses key = some raw) :
      (handle.elicitBy texts key request).exec (obtainMrtr responses strictKeys) collected =
        (parseElicitOutcome texts raw, collected) := by
    rw [exec_elicitBy, hobtained hok hraw]
    rfl
  have hrefusedBy {key : String} {request : Value} {e : McpError}
      (he : consent handle.clientCapabilities "elicitation" = .error e) :
      (handle.elicitBy texts key request).exec (obtainMrtr responses strictKeys) collected =
        (.error e, collected) := by
    rw [exec_elicitBy, hrefused he]
    rfl
  unfold Ask.ready at h
  split at h
  · rename_i e he
    cases h
    cases a with
    | elicit key params => exact hrefusedBy he
    | elicitUrl key params minted => exact hrefusedBy he
    | elicitAll requests =>
        have hc : handle.requireCapability "elicitation" = .error e :=
          (requireCapability_eq hm _).trans he
        show elicitAllMrtr handle texts responses strictKeys collected requests = _
        simp only [elicitAllMrtr, hc]
        rfl
    | createMessage key params => exact hrefused he
    | listRoots key => exact hrefused he
  · rename_i hok
    cases a with
    | elicit key params =>
        obtain ⟨raw, hraw, rfl⟩ := Option.map_eq_some_iff.mp h
        exact hobtainedBy hok hraw
    | elicitUrl key params minted =>
        obtain ⟨raw, hraw, rfl⟩ := Option.map_eq_some_iff.mp h
        exact hobtainedBy hok hraw
    | elicitAll requests =>
        have hc : handle.requireCapability "elicitation" = .ok () :=
          (requireCapability_eq hm _).trans hok
        simp only [Ask.cached] at h
        split at h
        · rename_i hall
          cases h
          show elicitAllMrtr handle texts responses strictKeys collected requests = _
          simp only [elicitAllMrtr, hc, hall, if_true]
          rfl
        · cases h
    | createMessage key params =>
        obtain ⟨raw, hraw, rfl⟩ := Option.map_eq_some_iff.mp h
        exact hobtained hok hraw
    | listRoots key =>
        obtain ⟨raw, hraw, rfl⟩ := Option.map_eq_some_iff.mp h
        exact hobtained hok hraw

/-- A recorded request ends the execution. -/
theorem obtainMrtr_of_missing {collected : Map} {o : Obtain}
    (h : Map.get responses o.key = none) :
    ∃ e collected', obtainMrtr responses strictKeys collected o = (.error e, collected') := by
  unfold obtainMrtr
  simp only [h]
  rcases recordInput strictKeys collected o.key o.request with e | collected'
  · exact ⟨e, collected, rfl⟩
  · exact ⟨.inputRequired, collected', rfl⟩

/-- What is not ready ends the execution. -/
theorem answerMrtr_of_not_ready (hm : handle.mode.available = true) {a : Ask}
    (h : a.ready texts responses handle.clientCapabilities = none) (collected : Map) :
    ∃ e collected', answerMrtr handle texts responses strictKeys collected a =
      (.error e, collected') := by
  obtain ⟨hconsent, key, hkey, hmissing⟩ := Ask.ready_eq_none.mp h
  have haborts {key capability : String} {request : Value}
      (hok : consent handle.clientCapabilities capability = .ok ())
      (hnone : Map.get responses key = none) :
      ∃ e collected', (handle.request key capability request).exec
        (obtainMrtr responses strictKeys) collected = (.error e, collected') := by
    rw [exec_request _ _ hm, hok]
    exact obtainMrtr_of_missing hnone
  have habortsBy {key : String} {request : Value}
      (hok : consent handle.clientCapabilities "elicitation" = .ok ())
      (hnone : Map.get responses key = none) :
      ∃ e collected', (handle.elicitBy texts key request).exec
        (obtainMrtr responses strictKeys) collected = (.error e, collected') := by
    obtain ⟨e, collected', hrun⟩ : ∃ e collected', (handle.request key "elicitation" request).exec
        (obtainMrtr responses strictKeys) collected = (.error e, collected') := haborts hok hnone
    refine ⟨e, collected', ?_⟩
    rw [exec_elicitBy, hrun]
    rfl
  cases a with
  | elicit key' params =>
      obtain rfl := List.mem_singleton.mp hkey
      exact habortsBy hconsent hmissing
  | elicitUrl key' params minted =>
      obtain rfl := List.mem_singleton.mp hkey
      exact habortsBy hconsent hmissing
  | elicitAll requests =>
      have hc : handle.requireCapability "elicitation" = .ok () :=
        (requireCapability_eq hm _).trans hconsent
      have hall : ¬ (requests.all fun r => Map.containsKey responses r.1) = true := by
        obtain ⟨r, hr, rfl⟩ : ∃ r ∈ requests, r.1 = key := by
          simpa [Ask.keys, Ask.requests] using hkey
        intro hall
        have hpresent := List.all_eq_true.mp hall r hr
        simp [Map.containsKey, hmissing] at hpresent
      let missing := recordMissing responses strictKeys
        ((Ask.elicitAll requests).requests handle.legacy) collected
      refine ⟨missing.1, missing.2, ?_⟩
      show elicitAllMrtr handle texts responses strictKeys collected requests = _
      simp only [elicitAllMrtr, hc]
      rw [if_neg hall]
      rfl
  | createMessage key' params =>
      obtain rfl := List.mem_singleton.mp hkey
      exact haborts hconsent hmissing
  | listRoots key' =>
      obtain rfl := List.mem_singleton.mp hkey
      exact haborts hconsent hmissing

/-- The requests of an ask, as an abort records them. -/
def recorded (requests : List (String × Value)) : Map :=
  requests.foldl (fun m r => Map.insertSorted m r.1 r.2) Map.empty

theorem recordInput_fresh {collected : Map} {key : String} (h : Map.get collected key = none)
    (request : Value) :
    recordInput strictKeys collected key request =
      .ok (Map.insertSorted collected key request) := by
  simp only [recordInput, h]

/-- A batch of fresh keys, none of them answered, is recorded whole. -/
theorem recordMissing_all {requests : List (String × Value)} {collected : Map}
    (hkeys : (requests.map Prod.fst).Nodup)
    (hfresh : ∀ key ∈ requests.map Prod.fst, Map.get collected key = none)
    (hmissing : ∀ key ∈ requests.map Prod.fst, Map.get responses key = none) :
    recordMissing responses strictKeys requests collected =
      (.inputRequired, requests.foldl (fun m r => Map.insertSorted m r.1 r.2) collected) := by
  induction requests generalizing collected with
  | nil => rfl
  | cons r requests ih =>
      obtain ⟨key, request⟩ := r
      rw [List.map_cons, List.nodup_cons] at hkeys
      have hnone : Map.containsKey responses key = false := by
        simp [Map.containsKey, hmissing key (List.mem_cons_self ..)]
      rw [recordMissing, hnone, recordInput_fresh (hfresh key (List.mem_cons_self ..))]
      refine ih hkeys.2 ?_ fun k hk => hmissing k (List.mem_cons_of_mem _ hk)
      intro k hk
      rw [Map.get_insertSorted, if_neg fun heq : key = k => hkeys.1 (heq ▸ hk)]
      exact hfresh k (List.mem_cons_of_mem _ hk)

/-- **The abort**: an ask of distinct keys, none of them answered, ends the
execution with the sentinel and leaves its requests behind. -/
theorem answerMrtr_abort (hm : handle.mode.available = true) {a : Ask}
    (hconsent : consent handle.clientCapabilities a.needs = .ok ()) (hkeys : a.keys.Nodup)
    (hsome : a.keys ≠ []) (hmissing : ∀ key ∈ a.keys, Map.get responses key = none) :
    answerMrtr handle texts responses strictKeys Map.empty a =
      (.error .inputRequired, recorded (a.requests handle.legacy)) := by
  have hobtained {key capability : String} {request : Value}
      (hok : consent handle.clientCapabilities capability = .ok ())
      (hnone : Map.get responses key = none) :
      (handle.request key capability request).exec (obtainMrtr responses strictKeys) Map.empty =
        (.error .inputRequired, Map.insertSorted Map.empty key request) := by
    rw [exec_request _ _ hm, hok]
    simp only [obtainMrtr, hnone, recordInput_fresh (Map.get_empty key)]
  have habortsBy {key : String} {request : Value}
      (hok : consent handle.clientCapabilities "elicitation" = .ok ())
      (hnone : Map.get responses key = none) :
      (handle.elicitBy texts key request).exec (obtainMrtr responses strictKeys) Map.empty =
        (.error .inputRequired, Map.insertSorted Map.empty key request) := by
    rw [exec_elicitBy, hobtained hok hnone]
    rfl
  cases a with
  | elicit key params => exact habortsBy hconsent (hmissing key (List.mem_singleton_self key))
  | elicitUrl key params minted =>
      exact habortsBy hconsent (hmissing key (List.mem_singleton_self key))
  | elicitAll requests =>
      have hc : handle.requireCapability "elicitation" = .ok () :=
        (requireCapability_eq hm _).trans hconsent
      have hall : ¬ (requests.all fun r => Map.containsKey responses r.1) = true := by
        obtain ⟨key, hkey⟩ := List.exists_mem_of_ne_nil _ hsome
        obtain ⟨r, hr, rfl⟩ : ∃ r ∈ requests, r.1 = key := by
          simpa [Ask.keys, Ask.requests] using hkey
        intro hall
        have hpresent := List.all_eq_true.mp hall r hr
        simp [Map.containsKey, hmissing r.1 hkey] at hpresent
      show elicitAllMrtr handle texts responses strictKeys Map.empty requests = _
      simp only [elicitAllMrtr, hc]
      rw [← Ask.map_fst_requests _ handle.legacy] at hkeys hmissing
      rw [if_neg hall, recordMissing_all hkeys (fun _ _ => rfl) hmissing]
      rfl
  | createMessage key params => exact hobtained hconsent (hmissing key (List.mem_singleton_self key))
  | listRoots key => exact hobtained hconsent (hmissing key (List.mem_singleton_self key))

theorem get_recorded {requests : List (String × Value)} (hkeys : (requests.map Prod.fst).Nodup)
    (key : String) : Map.get (recorded requests) key = Entries.get requests key := by
  have hfold : ∀ (requests : List (String × Value)) (m : Map),
      (requests.map Prod.fst).Nodup →
      Map.get (requests.foldl (fun m r => Map.insertSorted m r.1 r.2) m) key =
        (Entries.get requests key).or (Map.get m key) := by
    intro requests
    induction requests with
    | nil => exact fun m _ => rfl
    | cons r requests ih =>
        intro m hkeys
        rw [List.map_cons, List.nodup_cons] at hkeys
        rw [List.foldl_cons, ih _ hkeys.2, Map.get_insertSorted, Entries.get_cons]
        by_cases hr : r.1 = key
        · have habsent : Entries.get requests key = none := by
            rw [← Option.not_isSome_iff_eq_none, Entries.get_isSome_iff, ← hr]
            exact hkeys.1
          simp [hr, habsent]
        · simp [hr]
  rw [recorded, hfold requests Map.empty hkeys, Map.get_empty, Option.or_none]

theorem nodup_recorded {requests : List (String × Value)}
    (hkeys : (requests.map Prod.fst).Nodup) : ((recorded requests).map Prod.fst).Nodup := by
  have hfold : ∀ (requests : List (String × Value)) (m : Map), (m.map Prod.fst).Nodup →
      (requests.map Prod.fst).Nodup → (∀ r ∈ requests, r.1 ∉ m.map Prod.fst) →
      ((requests.foldl (fun m r => Map.insertSorted m r.1 r.2) m).map Prod.fst).Nodup := by
    intro requests
    induction requests with
    | nil => exact fun m hm _ _ => hm
    | cons r requests ih =>
        intro m hm hkeys hfresh
        rw [List.map_cons, List.nodup_cons] at hkeys
        refine ih _ (Entries.nodup_insertSorted hm (hfresh r (List.mem_cons_self ..)) _) hkeys.2 ?_
        intro r' hr' hmem
        rcases (Entries.mem_keys_insertSorted m r.1 r.2 r'.1).mp hmem with heq | hold
        · exact hkeys.1 (heq ▸ List.mem_map_of_mem hr')
        · exact hfresh r' (List.mem_cons_of_mem _ hr') hold
  exact hfold requests Map.empty List.nodup_nil hkeys fun _ _ => List.not_mem_nil

end

end TurboMcp.Server
