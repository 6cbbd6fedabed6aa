import TurboMcp.Client.Http
import TurboMcp.Lib.Text

/-!
# The HTTP client: receiving

An exchange fails, or ends in a response.  The frames the response holds go into
the inbound channel in their order; where the exchange fails, a request gets an
error of the client's own making.  The connection completes the waiting caller
with the first response for its id.
-/

namespace TurboMcp.Client.Http

open TurboMcp.Core TurboMcp.Lib TurboMcp.Transport

/-! ## Responses -/

/-- An item of an event stream. -/
inductive SseItem
  | event (data : String)
  | failure (err : String)

/-- A response, with both readings of its body: a text, or events up to where the
stream ends. -/
structure HttpResponse where
  status : Nat
  session : Option HeaderValue
  contentType : Option HeaderValue
  text : Except String String
  events : List SseItem

namespace HttpResponse

/-- `StatusCode::is_success`. -/
def isSuccess (resp : HttpResponse) : Bool := 200 ≤ resp.status && resp.status < 300

def isSse (resp : HttpResponse) : Bool :=
  (resp.contentType.bind HeaderValue.toStr).any fun ct =>
    "text/event-stream".toList.isPrefixOf ct.toList

end HttpResponse

/-- Capture, or refresh, the session id from any response. -/
def Shared.capture (shared : Shared) (resp : HttpResponse) : Shared :=
  { shared with session := (resp.session.bind HeaderValue.toStr).or shared.session }

/-! ## Pumping -/

/-- What one exchange put into the channel, and how it failed, if it did. -/
structure Pumped where
  frames : List JsonRpcMessage
  failure : Option String

def Pumped.cons (frame : JsonRpcMessage) (p : Pumped) : Pumped :=
  { p with frames := frame :: p.frames }

/-- A frame in the channel, and whether the server sent it. -/
inductive Delivery
  | received (frame : JsonRpcMessage)
  | synthesized (resp : JsonRpcResponse)
  deriving DecidableEq

def Delivery.frame : Delivery → JsonRpcMessage
  | received frame => frame
  | synthesized resp => .response resp

section

-- the codec's reading of a text, and `Display` of a status
variable (decode : String → Except String JsonRpcMessage) (statusText : Nat → String)

/-- Each event is one frame; the first that is none ends the pumping. -/
def pumpEvents : List SseItem → Pumped
  | [] => { frames := [], failure := none }
  | .failure err :: _ => { frames := [], failure := some ("sse stream error: " ++ err) }
  | .event data :: items =>
      if data = "" then pumpEvents items
      else
        match decode data with
        | .error err => { frames := [], failure := some ("sse frame decode failed: " ++ err) }
        | .ok frame => (pumpEvents items).cons frame

/-- A text is one frame, or blank. -/
def pumpText : Except String String → Pumped
  | .error err => { frames := [], failure := some ("read body: " ++ err) }
  | .ok text =>
      if text.toList.all isWhitespace then { frames := [], failure := none }
      else
        match decode text with
        | .error err => { frames := [], failure := some ("json decode failed: " ++ err) }
        | .ok frame => { frames := [frame], failure := none }

/-- `pump`, from the sending on. -/
def pump : Except String HttpResponse → Pumped
  | .error err => { frames := [], failure := some ("request failed: " ++ err) }
  | .ok resp =>
      if !resp.isSuccess then
        { frames := [], failure := some ("http status " ++ statusText resp.status) }
      else if resp.isSse then pumpEvents decode resp.events
      else pumpText decode resp.text

/-- The error a failed POST becomes. -/
def postFailed (id : RequestId) (err : String) : JsonRpcResponse :=
  .failure id { code := -32001, message := err, data := none }

/-- `post_and_pump`: only a request has a waiter to tell. -/
def postAndPump (msg : JsonRpcMessage) (outcome : Except String HttpResponse) : List Delivery :=
  let pumped := pump decode statusText outcome
  pumped.frames.map .received ++
    match msg, pumped.failure with
    | .request req, some err => [.synthesized (postFailed req.id err)]
    | _, _ => []

/-! ## What the server supplied -/

/-- The frame in an item, where there is one. -/
def frameIn : SseItem → Option JsonRpcMessage
  | .event data => if data = "" then none else (decode data).toOption
  | .failure _ => none

/-- A keep-alive, or a frame. -/
def readable : SseItem → Bool
  | .event data => data = "" || (decode data).isOk
  | .failure _ => false

def textFrames : Except String String → List JsonRpcMessage
  | .error _ => []
  | .ok text => if text.toList.all isWhitespace then [] else (decode text).toOption.toList

namespace HttpResponse

variable (resp : HttpResponse)

/-- Every frame of the body, whatever stands between them. -/
def bodyFrames : List JsonRpcMessage :=
  if resp.isSse then resp.events.filterMap (frameIn decode) else textFrames decode resp.text

/-- The frames before anything that cannot be read. -/
def leadingFrames : List JsonRpcMessage :=
  if resp.isSse then (resp.events.takeWhile (readable decode)).filterMap (frameIn decode)
  else textFrames decode resp.text

/-- Something in the body cannot be read. -/
def isBroken : Bool :=
  if resp.isSse then resp.events.any fun item => !readable decode item
  else
    match resp.text with
    | .error _ => true
    | .ok text => !text.toList.all isWhitespace && !(decode text).isOk

end HttpResponse

end

/-! ## Answers -/

/-- The response in a frame, if it is one for `id`. -/
def answerTo (id : RequestId) : JsonRpcMessage → Option JsonRpcResponse
  | .response r => if r.id = id then some r else none
  | _ => none

/-- The first response for `id`. -/
def answerIn (id : RequestId) (frames : List JsonRpcMessage) : Option JsonRpcResponse :=
  frames.findSome? (answerTo id)

def firstAnswer (id : RequestId) (ds : List Delivery) : Option Delivery :=
  ds.find? fun d => (answerTo id d.frame).isSome

theorem answerTo_eq_some {id : RequestId} {frame : JsonRpcMessage} {r : JsonRpcResponse} :
    answerTo id frame = some r ↔ frame = .response r ∧ r.id = id := by
  cases frame with
  | request req => simp [answerTo]
  | notification n => simp [answerTo]
  | response r' =>
      simp only [answerTo, Option.ite_none_right_eq_some, Option.some.injEq,
        JsonRpcMessage.response.injEq]
      constructor
      · rintro ⟨hid, rfl⟩
        exact ⟨rfl, hid⟩
      · rintro ⟨rfl, hid⟩
        exact ⟨hid, rfl⟩

section

variable {decode : String → Except String JsonRpcMessage} {statusText : Nat → String}

theorem pumpEvents_spec (items : List SseItem) :
    (pumpEvents decode items).frames =
        (items.takeWhile (readable decode)).filterMap (frameIn decode) ∧
      (pumpEvents decode items).failure.isSome = items.any fun item => !readable decode item := by
  induction items with
  | nil => exact ⟨rfl, rfl⟩
  | cons item items ih =>
      obtain ⟨hframes, hfailure⟩ := ih
      cases item with
      | failure err => exact ⟨rfl, rfl⟩
      | event data =>
          rw [pumpEvents]
          split
          · rename_i hempty
            simpa [readable, frameIn, hempty] using ⟨hframes, hfailure⟩
          · rename_i hdata
            cases hdecode : decode data with
            | error err => simp [readable, hdata, hdecode, Except.isOk, Except.toBool]
            | ok frame =>
                simpa [readable, frameIn, hdata, hdecode, Except.isOk, Except.toBool,
                  Except.toOption, Pumped.cons] using ⟨hframes, hfailure⟩

theorem pumpText_spec (text : Except String String) :
    (pumpText decode text).frames = textFrames decode text ∧
      (pumpText decode text).failure.isSome =
        match text with
        | .error _ => true
        | .ok text => !text.toList.all isWhitespace && !(decode text).isOk := by
  cases text with
  | error err => exact ⟨rfl, rfl⟩
  | ok text =>
      unfold pumpText textFrames
      simp only
      split
      · rename_i hblank
        simp [hblank]
      · rename_i htext
        cases hdecode : decode text with
        | error err => simp [htext, Except.isOk, Except.toBool, Except.toOption]
        | ok frame => simp [Except.isOk, Except.toBool, Except.toOption]

/-- What a response of a success status is pumped into. -/
theorem pump_success (decode : String → Except String JsonRpcMessage) (statusText : Nat → String)
    {resp : HttpResponse} (h : resp.isSuccess = true) :
    (pump decode statusText (.ok resp)).frames = resp.leadingFrames decode ∧
      (pump decode statusText (.ok resp)).failure.isSome = resp.isBroken decode := by
  unfold pump HttpResponse.leadingFrames HttpResponse.isBroken
  simp only [h, Bool.not_true, Bool.false_eq_true, if_false]
  split
  · exact pumpEvents_spec resp.events
  · exact pumpText_spec resp.text

theorem answerIn_of_leading {resp : HttpResponse} {id : RequestId} {r : JsonRpcResponse}
    (h : answerIn id (resp.leadingFrames decode) = some r) :
    answerIn id (resp.bodyFrames decode) = some r := by
  have hprefix : resp.leadingFrames decode <+: resp.bodyFrames decode := by
    unfold HttpResponse.leadingFrames HttpResponse.bodyFrames
    split
    · exact (List.takeWhile_prefix _).filterMap _
    · exact List.prefix_rfl
  obtain ⟨rest, hrest⟩ := hprefix
  unfold answerIn at h ⊢
  rw [← hrest, List.findSome?_append, h]
  rfl

theorem firstAnswer_received (id : RequestId) (frames : List JsonRpcMessage) :
    firstAnswer id (frames.map .received) =
      (answerIn id frames).map fun r => .received (.response r) := by
  induction frames with
  | nil => rfl
  | cons frame frames ih =>
      unfold firstAnswer answerIn at ih ⊢
      rw [List.map_cons, List.find?_cons, List.findSome?_cons]
      cases hanswer : answerTo id frame with
      | none => simpa [Delivery.frame, hanswer] using ih
      | some r =>
          obtain ⟨rfl, -⟩ := answerTo_eq_some.mp hanswer
          simp [Delivery.frame, hanswer]

/-- **What a request gets first**: the server's response among the frames pumped,
else the error of a failed exchange. -/
theorem firstAnswer_postAndPump (decode : String → Except String JsonRpcMessage)
    (statusText : Nat → String) (req : JsonRpcRequest) (outcome : Except String HttpResponse) :
    let pumped := pump decode statusText outcome
    firstAnswer req.id (postAndPump decode statusText (.request req) outcome) =
      ((answerIn req.id pumped.frames).map fun r => .received (.response r)).or
        (pumped.failure.map fun err => .synthesized (postFailed req.id err)) := by
  have hown : ∀ err, answerTo req.id (.response (postFailed req.id err)) =
      some (postFailed req.id err) := fun err => if_pos rfl
  simp only [postAndPump]
  rw [firstAnswer, List.find?_append, ← firstAnswer, firstAnswer_received]
  congr 1
  cases (pump decode statusText outcome).failure with
  | none => rfl
  | some err => simp [Delivery.frame, hown]

/-! ## Settling a request -/

/-- The server's own response for `id`, of whatever status. -/
def supplied (decode : String → Except String JsonRpcMessage) (id : RequestId) :
    Except String HttpResponse → Option JsonRpcResponse
  | .error _ => none
  | .ok resp => answerIn id (resp.bodyFrames decode)

/-- The exchange gives the waiting caller a response, and the server's where
there is one. -/
structure Settles (decode : String → Except String JsonRpcMessage) (statusText : Nat → String)
    (req : JsonRpcRequest) (outcome : Except String HttpResponse) : Prop where
  answered : (firstAnswer req.id (postAndPump decode statusText (.request req) outcome)).isSome
  first : ∀ r, supplied decode req.id outcome = some r →
    firstAnswer req.id (postAndPump decode statusText (.request req) outcome) =
      some (.received (.response r))

/-- A response is read in full up to the server's answer; or it has none, and
its status or its body says that something went wrong. -/
def Conclusive (decode : String → Except String JsonRpcMessage) (id : RequestId)
    (resp : HttpResponse) : Prop :=
  (resp.isSuccess = true ∧ (answerIn id (resp.leadingFrames decode)).isSome) ∨
    (answerIn id (resp.bodyFrames decode) = none ∧
      (resp.isSuccess = false ∨ resp.isBroken decode = true))

theorem settles_success {req : JsonRpcRequest} {resp : HttpResponse}
    (h : resp.isSuccess = true) :
    Settles decode statusText req (.ok resp) ↔ Conclusive decode req.id resp := by
  obtain ⟨hframes, hfailure⟩ := pump_success decode statusText h
  have hfirst := firstAnswer_postAndPump decode statusText req
    (.ok resp)
  simp only [hframes] at hfirst
  cases hleading : answerIn req.id (resp.leadingFrames decode) with
  | some r =>
      rw [hleading, Option.map_some, Option.some_or] at hfirst
      refine iff_of_true ⟨?_, ?_⟩ (Or.inl ⟨h, by rw [hleading]; rfl⟩)
      · rw [hfirst]
        rfl
      · intro r' hr'
        have hbody := answerIn_of_leading hleading
        rw [hfirst, ← Option.some.inj (hr'.symm.trans hbody)]
  | none =>
      rw [hleading, Option.map_none, Option.none_or] at hfirst
      unfold Conclusive
      rw [hleading]
      constructor
      · intro hsettles
        refine Or.inr ⟨?_, Or.inr ?_⟩
        · -- a synthesized error is no response of the server's
          rw [Option.eq_none_iff_forall_ne_some]
          intro r hr
          have hreceived := hsettles.first r hr
          rw [hfirst, Option.map_eq_some_iff] at hreceived
          obtain ⟨err, -, heq⟩ := hreceived
          cases heq
        · have hanswered := hsettles.answered
          rw [hfirst, Option.isSome_map] at hanswered
          rw [← hfailure, hanswered]
      · rintro (⟨-, hsome⟩ | ⟨hnone, hbad⟩)
        · cases hsome
        · have hbroken : resp.isBroken decode = true := by
            rcases hbad with hstatus | hbroken
            · rw [h] at hstatus
              cases hstatus
            · exact hbroken
          refine ⟨?_, ?_⟩
          · rw [hfirst, Option.isSome_map, hfailure, hbroken]
          · intro r hr
            rw [show supplied decode req.id (.ok resp) = none from hnone] at hr
            cases hr

theorem settles_failure {req : JsonRpcRequest} {outcome : Except String HttpResponse}
    {err : String} (h : pump decode statusText outcome = { frames := [], failure := some err }) :
    Settles decode statusText req outcome ↔ supplied decode req.id outcome = none := by
  have hfirst := firstAnswer_postAndPump decode statusText req outcome
  simp only [h] at hfirst
  change _ = some (Delivery.synthesized (postFailed req.id err)) at hfirst
  constructor
  · intro hsettles
    rw [Option.eq_none_iff_forall_ne_some]
    intro r hr
    have hreceived := hsettles.first r hr
    rw [hfirst] at hreceived
    cases hreceived
  · intro hnone
    refine ⟨?_, ?_⟩
    · rw [hfirst]
      rfl
    · intro r hr
      rw [hnone] at hr
      cases hr

/-- **Settled requests**: an exchange settles its request iff the sending fails
or the response is conclusive. -/
theorem settles_iff (req : JsonRpcRequest) (outcome : Except String HttpResponse) :
    Settles decode statusText req outcome ↔
      ∀ resp, outcome = .ok resp → Conclusive decode req.id resp := by
  cases outcome with
  | error err =>
      refine iff_of_true ((settles_failure rfl).mpr rfl) ?_
      intro resp hresp
      cases hresp
  | ok resp =>
      simp only [Except.ok.injEq, forall_eq']
      cases hstatus : resp.isSuccess with
      | true => exact settles_success hstatus
      | false =>
          have hpump : pump decode statusText (.ok resp) =
              { frames := [], failure := some ("http status " ++ statusText resp.status) } := by
            simp [pump, hstatus]
          rw [settles_failure hpump]
          simp [Conclusive, hstatus, supplied]

end

/-! ## The waiting caller -/

/-- The requests that wait, and what came of those that did. -/
structure Pending where
  waiting : List RequestId
  outcomes : List (RequestId × Except ClientError Value)

/-- `route_inbound` for a response, that is `complete_pending`; other frames
concern no waiting caller. -/
def Pending.route (p : Pending) : JsonRpcMessage → Pending
  | .response resp =>
      if resp.id ∈ p.waiting then
        { waiting := p.waiting.filter (· ≠ resp.id),
          outcomes := p.outcomes ++ [(resp.id, completePending resp)] }
      else p
  | _ => p

def Pending.outcome (p : Pending) (id : RequestId) : Option (Except ClientError Value) :=
  (p.outcomes.find? (·.1 = id)).map (·.2)

theorem Pending.outcome_route_of_some {p : Pending} {id : RequestId}
    {out : Except ClientError Value} (h : p.outcome id = some out) (frame : JsonRpcMessage) :
    (p.route frame).outcome id = some out := by
  obtain ⟨e, he, rfl⟩ := Option.map_eq_some_iff.mp h
  cases frame with
  | request req => exact h
  | notification n => exact h
  | response resp =>
      unfold route
      simp only
      split
      · rw [outcome, List.find?_append, he]
        rfl
      · exact h

/-- A frame that is no answer leaves the request waiting. -/
theorem Pending.route_of_other {p : Pending} {id : RequestId} (hwaiting : id ∈ p.waiting)
    (hnone : p.outcome id = none) {frame : JsonRpcMessage} (h : answerTo id frame = none) :
    id ∈ (p.route frame).waiting ∧ (p.route frame).outcome id = none := by
  cases frame with
  | request req => exact ⟨hwaiting, hnone⟩
  | notification n => exact ⟨hwaiting, hnone⟩
  | response resp =>
      have hid : resp.id ≠ id := by
        intro hid
        rw [answerTo, if_pos hid] at h
        cases h
      unfold route
      simp only
      split
      · refine ⟨List.mem_filter.mpr ⟨hwaiting, by simpa using hid.symm⟩, ?_⟩
        rw [outcome, Option.map_eq_none_iff] at hnone ⊢
        rw [List.find?_append, hnone]
        simp [hid]
      · exact ⟨hwaiting, hnone⟩

theorem Pending.route_answer {p : Pending} {id : RequestId} (hwaiting : id ∈ p.waiting)
    (hnone : p.outcome id = none) {frame : JsonRpcMessage} {resp : JsonRpcResponse}
    (h : answerTo id frame = some resp) :
    (p.route frame).outcome id = some (completePending resp) := by
  obtain ⟨rfl, rfl⟩ := answerTo_eq_some.mp h
  rw [outcome, Option.map_eq_none_iff] at hnone
  unfold route
  simp only
  rw [if_pos hwaiting, outcome, List.find?_append, hnone]
  simp

/-- **The first answer counts**: a waiting request comes to what the first
response for its id says. -/
theorem Pending.outcome_routed {p : Pending} {id : RequestId} (hwaiting : id ∈ p.waiting)
    (hnone : p.outcome id = none) (frames : List JsonRpcMessage) :
    (frames.foldl route p).outcome id = (answerIn id frames).map completePending := by
  have hkept : ∀ (frames : List JsonRpcMessage) {p : Pending} {out : Except ClientError Value},
      p.outcome id = some out → (frames.foldl route p).outcome id = some out := by
    intro frames
    induction frames with
    | nil => exact fun h => h
    | cons frame frames ih => exact fun h => ih (outcome_route_of_some h frame)
  induction frames generalizing p with
  | nil => exact hnone
  | cons frame frames ih =>
      rw [List.foldl_cons, answerIn, List.findSome?_cons]
      cases h : answerTo id frame with
      | none =>
          obtain ⟨hwaiting', hnone'⟩ := route_of_other hwaiting hnone h
          exact ih hwaiting' hnone'
      | some resp => exact hkept frames (route_answer hwaiting hnone h)

/-- `m` merges `l` and `r`, each in its order. -/
inductive Merges {α : Type} : List α → List α → List α → Prop
  | nil : Merges [] [] []
  | left {a : α} {l r m : List α} (h : Merges l r m) : Merges (a :: l) r (a :: m)
  | right {b : α} {l r m : List α} (h : Merges l r m) : Merges l (b :: r) (b :: m)

theorem Merges.findSome? {α β : Type} {f : α → Option β} {l r m : List α} (h : Merges l r m)
    (hr : ∀ b ∈ r, f b = none) : m.findSome? f = l.findSome? f := by
  induction h with
  | nil => rfl
  | left h ih => rw [List.findSome?_cons, List.findSome?_cons, ih hr]
  | right h ih =>
      rw [List.findSome?_cons, hr _ List.mem_cons_self]
      exact ih fun b hb => hr b (List.mem_cons_of_mem _ hb)

section

variable {decode : String → Except String JsonRpcMessage} {statusText : Nat → String}

/-- The reply is an error response for `id`, as its text or on its stream. -/
def CarriesError (decode : String → Except String JsonRpcMessage) (id : RequestId)
    (e : JsonRpcError) (resp : HttpResponse) : Prop :=
  ∃ r, answerIn id (resp.leadingFrames decode) = some r ∧ r.error = some e

/-- The error of a reply whose status is no success. -/
def statusError (statusText : Nat → String) (status : Nat) : JsonRpcError :=
  { code := -32001, message := "http status " ++ statusText status, data := none }

/-- Of a reply whose status is no success a request gets the client's own error. -/
theorem answer_of_failure {req : JsonRpcRequest} {resp : HttpResponse}
    (h : resp.isSuccess = false) :
    ((postAndPump decode statusText (.request req) (.ok resp)).map (·.frame)).findSome?
        (answerTo req.id) = some (.failure req.id (statusError statusText resp.status)) := by
  have hposted : postAndPump decode statusText (.request req) (.ok resp) =
      [.synthesized (postFailed req.id ("http status " ++ statusText resp.status))] := by
    simp [postAndPump, pump, h]
  rw [hposted]
  simp [Delivery.frame, answerTo, postFailed, JsonRpcResponse.failure, statusError]

/-- **Errors over HTTP**: with whatever else comes in meanwhile, a waiting
request fails with the server's error iff the reply's status is a success (or
the server's error is the very one the client makes up). -/
theorem error_survives_iff {req : JsonRpcRequest} {resp : HttpResponse} {e : JsonRpcError}
    (hcarries : CarriesError decode req.id e resp) {p : Pending} (hwaiting : req.id ∈ p.waiting)
    (hnone : p.outcome req.id = none) {others inbound : List JsonRpcMessage}
    (hothers : ∀ frame ∈ others, answerTo req.id frame = none)
    (hinbound : Merges ((postAndPump decode statusText (.request req) (.ok resp)).map (·.frame))
      others inbound) :
    (inbound.foldl Pending.route p).outcome req.id = some (.error (.rpc e)) ↔
      resp.isSuccess = true ∨ e = statusError statusText resp.status := by
  obtain ⟨r, hr, herror⟩ := hcarries
  rw [Pending.outcome_routed hwaiting hnone, answerIn, hinbound.findSome? hothers]
  cases hstatus : resp.isSuccess with
  | true =>
      obtain ⟨hframes, -⟩ := pump_success decode statusText hstatus
      have hfirst : ((postAndPump decode statusText (.request req) (.ok resp)).map
          (·.frame)).findSome? (answerTo req.id) = some r := by
        simp only [postAndPump]
        rw [List.map_append, List.map_map, List.findSome?_append, hframes]
        unfold answerIn at hr
        rw [show ((·.frame) ∘ Delivery.received : JsonRpcMessage → JsonRpcMessage) = id from rfl,
          List.map_id, hr]
        rfl
      rw [hfirst]
      simp [completePending, herror]
  | false =>
      rw [answer_of_failure hstatus]
      simp [completePending, JsonRpcResponse.failure, eq_comm]

end

/-! ### The draft probe and a server that does not know it -/

def probe : JsonRpcRequest := { id := .number 1, method := "server/discover", params := none }

def unknownMethod : JsonRpcError :=
  { code := -32601, message := "method not found: server/discover", data := none }

/-- A codec that reads one text. -/
def reads (text : String) (frame : JsonRpcMessage) (s : String) : Except String JsonRpcMessage :=
  if s = text then .ok frame else .error "expected value at line 1 column 1"

def statusName (status : Nat) : String :=
  toString status ++ if status = 404 then " Not Found" else " OK"

def refusalText : String :=
  "\x7b\"jsonrpc\":\"2.0\",\"id\":1,\"error\":\x7b\"code\":-32601,\"message\":" ++
    "\"method not found: server/discover\"\x7d\x7d"

def refusal (status : Nat) : HttpResponse :=
  { status, session := none, contentType := some (.ofAscii "application/json"),
    text := .ok refusalText, events := [] }

/-- The probe waits. -/
def probing : Pending := { waiting := [.number 1], outcomes := [] }

def codec : String → Except String JsonRpcMessage :=
  reads refusalText (.response (.failure (.number 1) unknownMethod))

theorem refusal_carries (status : Nat) :
    CarriesError codec probe.id unknownMethod (refusal status) := by
  have hleading : (refusal status).leadingFrames codec = (refusal 200).leadingFrames codec := rfl
  refine ⟨.failure (.number 1) unknownMethod, ?_, rfl⟩
  rw [hleading]
  decide

theorem refused_with_200 :
    (((postAndPump codec statusName (.request probe) (.ok (refusal 200))).map
      Delivery.frame).foldl Pending.route probing).outcome (.number 1) =
        some (.error (.rpc unknownMethod)) := by
  have hothers : ∀ frame ∈ ([] : List JsonRpcMessage), answerTo probe.id frame = none := nofun
  have hinbound : Merges ((postAndPump codec statusName (.request probe)
      (.ok (refusal 200))).map (·.frame)) []
      ((postAndPump codec statusName (.request probe) (.ok (refusal 200))).map (·.frame)) :=
    .left .nil
  exact (error_survives_iff (p := probing) (refusal_carries 200) List.mem_cons_self rfl hothers
    hinbound).mpr (Or.inl rfl)

/-- **The status hides the error**: the refusal a server answers with a 404
reaches the caller as another error, and the handshake does not fall back. -/
theorem refused_with_404 :
    CarriesError codec probe.id unknownMethod (refusal 404) ∧
      (((postAndPump codec statusName (.request probe) (.ok (refusal 404))).map
        Delivery.frame).foldl Pending.route probing).outcome (.number 1) =
          some (.error (.rpc (statusError statusName 404))) ∧
      ClientBuilder.fallsBack (.rpc unknownMethod) = true ∧
      ClientBuilder.fallsBack (.rpc (statusError statusName 404)) = false :=
  ⟨refusal_carries 404, by decide, by decide, by decide⟩

/-- A stream that ends after a log message. -/
def cutShort : HttpResponse :=
  { status := 200, session := none, contentType := some (.ofAscii "text/event-stream"),
    text := .ok "", events := [.event "note"] }

/-- **Nothing is delivered** for a request whose stream ends cleanly before the
response; the caller runs into its timeout. -/
theorem cut_short_unsettled :
    ¬ Settles (reads "note" (.notification { method := "notifications/message", params := none }))
      statusName probe (.ok cutShort) := by
  intro h
  exact absurd h.answered (by decide)

end TurboMcp.Client.Http
