import TurboMcp.Core.JsonRpc
import TurboMcp.Core.Serde

/-!
# Frames as bytes

A frame is written as its fields, and read by trying a request, then a
notification, then a response.  Payloads are kept as they are, but for two
things that reading does to a `Value`: an optional one that is `null` reads as
absent, and an object that begins with the key of a raw value is replaced by the
JSON in its text.  The text itself is `serde_json`'s, which reads what it
printed unless that nests too deeply.
-/

namespace TurboMcp.Core

open TurboMcp.Lib

/-! ## Reading a payload -/

/-- The key by which `serde_json` marks a raw value. -/
def rawValueToken : String := "$serde_json::private::RawValue"

def Map.beginsRaw (m : Map) : Bool := m.head?.any (·.1 = rawValueToken)

/-- The text of a raw value: it is the only entry. -/
def Map.rawText : Map → Option String
  | [(_, .string s)] => some s
  | _ => none

namespace Value

mutual
/-- What `Value`'s deserializer makes of JSON that is already parsed. -/
def read (fromStr : String → Option Value) : Value → Option Value
  | array xs => (readItems fromStr xs).map array
  | object m =>
      if Map.beginsRaw m then (Map.rawText m).bind fromStr
      else (readEntries fromStr m).map object
  | v => some v

def readItems (fromStr : String → Option Value) : List Value → Option (List Value)
  | [] => some []
  | x :: xs => do
      let y ← read fromStr x
      let ys ← readItems fromStr xs
      pure (y :: ys)

def readEntries (fromStr : String → Option Value) :
    List (String × Value) → Option (List (String × Value))
  | [] => some []
  | (key, v) :: m => do
      let w ← read fromStr v
      let n ← readEntries fromStr m
      pure ((key, w) :: n)
end

mutual
/-- No object in the value begins with a raw value's key. -/
def plain : Value → Bool
  | array xs => plainItems xs
  | object m => !Map.beginsRaw m && plainEntries m
  | _ => true

def plainItems : List Value → Bool
  | [] => true
  | x :: xs => plain x && plainItems xs

def plainEntries : List (String × Value) → Bool
  | [] => true
  | (_, v) :: m => plain v && plainEntries m
end

mutual
/-- How deep arrays and objects are nested. -/
def nesting : Value → Nat
  | array xs => nestingItems xs + 1
  | object m => nestingEntries m + 1
  | _ => 0

def nestingItems : List Value → Nat
  | [] => 0
  | x :: xs => max (nesting x) (nestingItems xs)

def nestingEntries : List (String × Value) → Nat
  | [] => 0
  | (_, v) :: m => max (nesting v) (nestingEntries m)
end

end Value

/-! ## The text -/

/-- `serde_json`'s text of JSON values. -/
structure JsonText where
  Bytes : Type
  toVec : Value → Bytes
  fromSlice : Bytes → Option Value
  /-- `from_str` into a `Value`. -/
  fromStr : String → Option Value
  /-- What was printed is read as it was, floats included, up to the parser's
  recursion limit. -/
  fromSlice_toVec : ∀ v, fromSlice (toVec v) = if v.nesting < 128 then some v else none
  /-- A raw value is read as its text says, so none is left. -/
  fromStr_plain : ∀ s m, fromStr s = some (.object m) → Map.beginsRaw m = false

namespace Value

variable {text : JsonText}

mutual
/-- A payload is read as it was just when it holds no raw value. -/
theorem read_eq_self_iff : ∀ v : Value, v.read text.fromStr = some v ↔ v.plain = true
  | null | bool _ | int _ | float _ | string _ => by simp [read, plain]
  | array xs => by
      rw [read, plain, ← readItems_eq_self_iff xs]
      cases readItems text.fromStr xs <;> simp
  | object m => by
      rw [read, plain]
      by_cases hraw : Map.beginsRaw m = true
      · rw [if_pos hraw, hraw]
        refine iff_of_false (fun h => ?_) (by simp)
        obtain ⟨s, _, hs⟩ := Option.bind_eq_some_iff.mp h
        rw [text.fromStr_plain s m hs] at hraw
        cases hraw
      · rw [if_neg hraw, Bool.eq_false_iff.mpr hraw, Bool.not_false, Bool.true_and,
          ← readEntries_eq_self_iff m]
        cases readEntries text.fromStr m <;> simp

theorem readItems_eq_self_iff :
    ∀ xs : List Value, readItems text.fromStr xs = some xs ↔ plainItems xs = true
  | [] => by simp [readItems, plainItems]
  | x :: xs => by
      rw [readItems, plainItems, Bool.and_eq_true, ← read_eq_self_iff x,
        ← readItems_eq_self_iff xs]
      cases read text.fromStr x <;> cases readItems text.fromStr xs <;> simp

theorem readEntries_eq_self_iff :
    ∀ m : List (String × Value), readEntries text.fromStr m = some m ↔ plainEntries m = true
  | [] => by simp [readEntries, plainEntries]
  | (key, v) :: m => by
      rw [readEntries, plainEntries, Bool.and_eq_true, ← read_eq_self_iff v,
        ← readEntries_eq_self_iff m]
      cases read text.fromStr v <;> cases readEntries text.fromStr m <;> simp
end

end Value

/-! ## Frames -/

/-- An integer of `w` bits, signed. -/
def Value.asSigned (w : Nat) : Value → Option Int
  | .int n => if -2 ^ (w - 1) ≤ n ∧ n < 2 ^ (w - 1) then some n else none
  | _ => none

/-- A field that defaults to the protocol version. -/
def versionField (m : Map) : Option String :=
  match m.get "jsonrpc" with
  | none => some jsonrpcVersion
  | some v => v.asStr

namespace RequestId

def encode : RequestId → Value
  | number n => .int n
  | string s => .string s

/-- An untagged union: an `i64`, or else a string. -/
def decode : Value → Option RequestId :=
  firstOf [fun v => (v.asSigned 64).map number, fun v => v.asStr.map string]

/-- The id is one the source's type holds. -/
def Fits : RequestId → Prop
  | number n => -2 ^ 63 ≤ n ∧ n < 2 ^ 63
  | string _ => True

end RequestId

namespace JsonRpcRequest

def encode (r : JsonRpcRequest) : Value :=
  .struct [("jsonrpc", some (.string r.jsonrpc)), ("id", some r.id.encode),
    ("method", some (.string r.method)), ("params", r.params)]

def decode (fromStr : String → Option Value) (v : Value) : Option JsonRpcRequest := do
  let m ← structFields ["jsonrpc", "id", "method", "params"] v
  let jsonrpc ← versionField m
  let id ← requiredField m "id" RequestId.decode
  let method ← stringField m "method"
  let params ← optionField m "params" (Value.read fromStr)
  pure { jsonrpc, id, method, params }

end JsonRpcRequest

namespace JsonRpcNotification

def encode (n : JsonRpcNotification) : Value :=
  .struct [("jsonrpc", some (.string n.jsonrpc)), ("method", some (.string n.method)),
    ("params", n.params)]

def decode (fromStr : String → Option Value) (v : Value) : Option JsonRpcNotification := do
  let m ← structFields ["jsonrpc", "method", "params"] v
  let jsonrpc ← versionField m
  let method ← stringField m "method"
  let params ← optionField m "params" (Value.read fromStr)
  pure { jsonrpc, method, params }

end JsonRpcNotification

namespace JsonRpcError

def encode (e : JsonRpcError) : Value :=
  .struct [("code", some (.int e.code)), ("message", some (.string e.message)), ("data", e.data)]

def decode (fromStr : String → Option Value) (v : Value) : Option JsonRpcError := do
  let m ← structFields ["code", "message", "data"] v
  let code ← requiredField m "code" (Value.asSigned 32)
  let message ← stringField m "message"
  let data ← optionField m "data" (Value.read fromStr)
  pure { code, message, data }

/-- The code is an `i32`. -/
def Fits (e : JsonRpcError) : Prop := -2 ^ 31 ≤ e.code ∧ e.code < 2 ^ 31

end JsonRpcError

namespace JsonRpcResponse

def encode (r : JsonRpcResponse) : Value :=
  .struct [("jsonrpc", some (.string r.jsonrpc)), ("id", some r.id.encode),
    ("result", r.result), ("error", r.error.map JsonRpcError.encode)]

def decode (fromStr : String → Option Value) (v : Value) : Option JsonRpcResponse := do
  let m ← structFields ["jsonrpc", "id", "result", "error"] v
  let jsonrpc ← versionField m
  let id ← requiredField m "id" RequestId.decode
  let result ← optionField m "result" (Value.read fromStr)
  let error ← optionField m "error" (JsonRpcError.decode fromStr)
  pure { jsonrpc, id, result, error }

end JsonRpcResponse

namespace JsonRpcMessage

def encode : JsonRpcMessage → Value
  | request r => r.encode
  | notification n => n.encode
  | response r => r.encode

/-- An untagged union, in the order of its variants. -/
def decode (fromStr : String → Option Value) : Value → Option JsonRpcMessage :=
  firstOf
    [fun v => (JsonRpcRequest.decode fromStr v).map request,
      fun v => (JsonRpcNotification.decode fromStr v).map notification,
      fun v => (JsonRpcResponse.decode fromStr v).map response]

end JsonRpcMessage

/-! ## The codec -/

namespace SerdeJsonCodec

def encode (text : JsonText) (m : JsonRpcMessage) : text.Bytes := text.toVec m.encode

def decode (text : JsonText) (bytes : text.Bytes) : Option JsonRpcMessage :=
  (text.fromSlice bytes).bind (JsonRpcMessage.decode text.fromStr)

end SerdeJsonCodec

/-! ## What frames are built from -/

namespace JsonRpcMessage

/-- Built by one of the constructors of the source, from values of its types. -/
inductive Built : JsonRpcMessage → Prop
  | request {id : RequestId} (hid : id.Fits) (method : String) (params : Option Value) :
      Built (.request { id, method, params })
  | notification (method : String) (params : Option Value) :
      Built (.notification { method, params })
  | success {id : RequestId} (hid : id.Fits) (result : Value) :
      Built (.response (.success id result))
  | error {id : RequestId} (hid : id.Fits) {e : JsonRpcError} (he : e.Fits) :
      Built (.response (.failure id e))

/-- The JSON a frame carries. -/
def payload : JsonRpcMessage → Option Value
  | request r => r.params
  | notification n => n.params
  | response r => r.result.or (r.error.bind (·.data))

/-- How deep a frame's payload is nested in it. -/
def framing : JsonRpcMessage → Nat
  | response r => if r.error.isSome then 2 else 1
  | _ => 1

/-- **Round trip**: decoding the encoding gives the frame back, and a response
that is decoded has exactly one of result and error. -/
structure RoundTrips (text : JsonText) (m : JsonRpcMessage) : Prop where
  decoded : SerdeJsonCodec.decode text (SerdeJsonCodec.encode text m) = some m
  carriesOne : ∀ r, SerdeJsonCodec.decode text (SerdeJsonCodec.encode text m) =
    some (.response r) → r.result.isSome ≠ r.error.isSome

/-- The payload is one that a frame keeps: it is not `null`, holds no raw value,
and does not nest beyond the parser's limit. -/
def Kept (m : JsonRpcMessage) : Prop :=
  ∀ v, m.payload = some v → v ≠ .null ∧ v.plain = true ∧ v.nesting + m.framing < 128

end JsonRpcMessage

/-! ## Reading fields back -/

variable {text : JsonText} {id : RequestId}

theorem optional_read_iff (text : JsonText) {o : Option Value} :
    optional (Value.read text.fromStr) o = some o ↔
      ∀ v, o = some v → v ≠ .null ∧ v.plain = true := by
  rcases o with _ | v
  · exact iff_of_true rfl nofun
  · by_cases hnull : v = .null
    · subst hnull
      refine iff_of_false nofun fun h => ?_
      exact absurd rfl (h _ rfl).1
    · rw [optional_some hnull]
      constructor
      · rintro h w ⟨⟩
        obtain ⟨w, hw, heq⟩ := Option.map_eq_some_iff.mp h
        injection heq with heq
        rw [heq] at hw
        exact ⟨hnull, (Value.read_eq_self_iff v).mp hw⟩
      · intro h
        rw [(Value.read_eq_self_iff v).mpr (h v rfl).2, Option.map_some]

theorem RequestId.decode_encode (h : id.Fits) : RequestId.decode id.encode = some id := by
  cases id with
  | number n =>
      unfold decode encode
      rw [firstOf_cons]
      have hfits : -2 ^ (64 - 1) ≤ n ∧ n < 2 ^ (64 - 1) := h
      show (Option.map number (if -2 ^ (64 - 1) ≤ n ∧ n < 2 ^ (64 - 1) then some n else none)).or _ = _
      rw [if_pos hfits]
      rfl
  | string s => rfl

theorem versionField_record (jsonrpc : String) (fields : List (String × Option Value)) :
    versionField (record (("jsonrpc", some (.string jsonrpc)) :: fields)) = some jsonrpc := by
  unfold versionField
  rw [Map.get_record_cons, if_pos rfl]
  rfl

theorem JsonRpcRequest.decode_encode {r : JsonRpcRequest} (h : r.id.Fits) :
    decode text.fromStr r.encode =
      (optional (Value.read text.fromStr) r.params).map fun params => { r with params } := by
  unfold decode encode
  rw [structFields_struct, Option.bind_eq_bind, Option.bind_some, versionField_record]
  simp [RequestId.decode_encode h]
  cases optional (Value.read text.fromStr) r.params <;> rfl

theorem JsonRpcNotification.decode_encode (n : JsonRpcNotification) :
    decode text.fromStr n.encode =
      (optional (Value.read text.fromStr) n.params).map fun params => { n with params } := by
  unfold decode encode
  rw [structFields_struct, Option.bind_eq_bind, Option.bind_some, versionField_record]
  simp
  cases optional (Value.read text.fromStr) n.params <;> rfl

theorem JsonRpcError.decode_encode {e : JsonRpcError} (h : e.Fits) :
    decode text.fromStr e.encode =
      (optional (Value.read text.fromStr) e.data).map fun data => { e with data } := by
  have hcode : Value.asSigned 32 (.int e.code) = some e.code := if_pos h
  unfold decode encode
  simp [hcode]
  cases optional (Value.read text.fromStr) e.data <;> rfl

/-! ## Which variant a frame is read as -/

theorem JsonRpcRequest.decode_notification (n : JsonRpcNotification) :
    decode text.fromStr n.encode = none := by
  unfold decode JsonRpcNotification.encode
  rw [structFields_struct, Option.bind_eq_bind, Option.bind_some, versionField_record]
  cases hp : n.params <;> simp

theorem JsonRpcRequest.decode_response {r : JsonRpcResponse} :
    decode text.fromStr r.encode = none := by
  unfold decode JsonRpcResponse.encode
  rw [structFields_struct, Option.bind_eq_bind, Option.bind_some, versionField_record]
  cases hr : r.result <;> cases he : r.error <;> simp

theorem JsonRpcNotification.decode_response {r : JsonRpcResponse} :
    decode text.fromStr r.encode = none := by
  unfold decode JsonRpcResponse.encode
  rw [structFields_struct, Option.bind_eq_bind, Option.bind_some, versionField_record]
  cases hr : r.result <;> cases he : r.error <;> simp

theorem JsonRpcResponse.decode_success {result : Value} (h : id.Fits) :
    decode text.fromStr (encode (success id result)) =
      (optional (Value.read text.fromStr) (some result)).map fun result =>
        { id, result, error := none } := by
  unfold decode encode success
  rw [structFields_struct, Option.bind_eq_bind, Option.bind_some, versionField_record]
  simp [RequestId.decode_encode h]
  cases optional (Value.read text.fromStr) (some result) <;> rfl

theorem JsonRpcResponse.decode_failure {e : JsonRpcError} (h : id.Fits) (he : e.Fits) :
    decode text.fromStr (encode (failure id e)) =
      (optional (Value.read text.fromStr) e.data).map fun data =>
        failure id { e with data } := by
  have hnull : e.encode ≠ .null := Value.struct_ne_null _
  unfold decode encode failure
  rw [structFields_struct, Option.bind_eq_bind, Option.bind_some, versionField_record]
  simp [RequestId.decode_encode h, optional_some hnull, JsonRpcError.decode_encode he]
  cases optional (Value.read text.fromStr) e.data <;> rfl

namespace JsonRpcMessage

variable {fromStr : String → Option Value} {v : Value} {m : JsonRpcMessage}

theorem decode_eq_request_iff {r : JsonRpcRequest} :
    decode fromStr v = some (.request r) ↔ JsonRpcRequest.decode fromStr v = some r := by
  unfold decode firstOf firstOf firstOf
  dsimp only
  rcases JsonRpcRequest.decode fromStr v with _ | r'
  · rcases JsonRpcNotification.decode fromStr v with _ | n
    · rcases JsonRpcResponse.decode fromStr v with _ | r' <;> simp
    · simp
  · simp

theorem decode_eq_notification_iff {n : JsonRpcNotification}
    (h : JsonRpcRequest.decode fromStr v = none) :
    decode fromStr v = some (.notification n) ↔ JsonRpcNotification.decode fromStr v = some n := by
  unfold decode firstOf firstOf firstOf
  dsimp only
  rw [h]
  rcases JsonRpcNotification.decode fromStr v with _ | n'
  · rcases JsonRpcResponse.decode fromStr v with _ | r <;> simp
  · simp

theorem decode_eq_response_iff {r : JsonRpcResponse}
    (h : JsonRpcRequest.decode fromStr v = none)
    (h' : JsonRpcNotification.decode fromStr v = none) :
    decode fromStr v = some (.response r) ↔ JsonRpcResponse.decode fromStr v = some r := by
  unfold decode firstOf firstOf firstOf
  dsimp only
  rw [h, h']
  rcases JsonRpcResponse.decode fromStr v with _ | r'
  · simp
  · simp

/-- A built frame is read back just when its payload is. -/
theorem decode_encode_iff (h : m.Built) :
    decode text.fromStr m.encode = some m ↔
      ∀ v, m.payload = some v → v ≠ .null ∧ v.plain = true := by
  rw [← optional_read_iff text]
  cases h with
  | @request id hid method params =>
      refine decode_eq_request_iff.trans ?_
      show JsonRpcRequest.decode _ (JsonRpcRequest.encode _) = _ ↔ optional _ params = some params
      rw [JsonRpcRequest.decode_encode (show RequestId.Fits _ from hid), Option.map_eq_some_iff]
      constructor
      · rintro ⟨params', hparams, heq⟩
        injection heq with _ _ _ heq
        rw [hparams, heq]
      · intro hparams
        exact ⟨params, hparams, rfl⟩
  | notification method params =>
      refine (decode_eq_notification_iff (JsonRpcRequest.decode_notification _)).trans ?_
      rw [JsonRpcNotification.decode_encode, Option.map_eq_some_iff]
      show _ ↔ optional _ params = some params
      constructor
      · rintro ⟨params', hparams, heq⟩
        injection heq with _ _ heq
        rw [hparams, heq]
      · intro hparams
        exact ⟨params, hparams, rfl⟩
  | @success id hid result =>
      refine (decode_eq_response_iff JsonRpcRequest.decode_response
        JsonRpcNotification.decode_response).trans ?_
      rw [JsonRpcResponse.decode_success hid, Option.map_eq_some_iff]
      show _ ↔ optional _ (some result) = some (some result)
      constructor
      · rintro ⟨result', hresult, heq⟩
        injection heq with _ _ heq _
        rw [hresult, heq]
      · intro hresult
        exact ⟨some result, hresult, rfl⟩
  | @error id hid e he =>
      refine (decode_eq_response_iff JsonRpcRequest.decode_response
        JsonRpcNotification.decode_response).trans ?_
      rw [JsonRpcResponse.decode_failure hid he, Option.map_eq_some_iff]
      show _ ↔ optional _ e.data = some e.data
      constructor
      · rintro ⟨data, hdata, heq⟩
        injection heq with _ _ _ heq
        injection heq with heq
        rw [hdata, ← heq]
      · intro hdata
        exact ⟨e.data, hdata, rfl⟩

/-- What is built carries exactly one of result and error. -/
theorem Built.carriesOne {r : JsonRpcResponse} (h : Built (.response r)) :
    r.result.isSome ≠ r.error.isSome := by
  cases h with
  | success hid result => exact nofun
  | error hid he => exact nofun

/-! ## How deep a frame nests -/

theorem nestingEntries_record_nil : Value.nestingEntries (record []) = 0 := rfl

theorem nestingEntries_record_cons (key : String) (o : Option Value)
    (fields : List (String × Option Value)) :
    Value.nestingEntries (record ((key, o) :: fields)) =
      max ((o.map Value.nesting).getD 0) (Value.nestingEntries (record fields)) := by
  rcases o with _ | v
  · rw [Option.map_none, Option.getD_none, Nat.zero_max]
    rfl
  · rfl

theorem nesting_id (id : RequestId) : id.encode.nesting = 0 := by
  cases id with
  | number n => rfl
  | string s => rfl

theorem nesting_encode (h : m.Built) :
    m.encode.nesting = (m.payload.map Value.nesting).getD 0 + m.framing := by
  cases h with
  | request hid method params =>
      simp [encode, JsonRpcRequest.encode, Value.struct, Value.nesting,
        nestingEntries_record_cons, nestingEntries_record_nil, nesting_id, payload, framing]
  | notification method params =>
      simp [encode, JsonRpcNotification.encode, Value.struct, Value.nesting,
        nestingEntries_record_cons, nestingEntries_record_nil, payload, framing]
  | success hid result =>
      simp [encode, JsonRpcResponse.encode, JsonRpcResponse.success, Value.struct, Value.nesting,
        nestingEntries_record_cons, nestingEntries_record_nil, nesting_id, payload, framing]
  | error hid he =>
      simp [encode, JsonRpcResponse.encode, JsonRpcResponse.failure, JsonRpcError.encode,
        Value.struct, Value.nesting, nestingEntries_record_cons, nestingEntries_record_nil,
        nesting_id, payload, framing]

theorem framing_le (m : JsonRpcMessage) : m.framing ≤ 2 := by
  unfold framing
  split
  · split <;> omega
  · omega

/-! ## The round trip -/

/-- **When frames round-trip**: exactly when the payload is kept. -/
theorem roundTrips_iff (text : JsonText) {m : JsonRpcMessage} (h : m.Built) :
    RoundTrips text m ↔ m.Kept := by
  have hcodec : SerdeJsonCodec.decode text (SerdeJsonCodec.encode text m) =
      if m.encode.nesting < 128 then decode text.fromStr m.encode else none := by
    unfold SerdeJsonCodec.decode SerdeJsonCodec.encode
    rw [text.fromSlice_toVec]
    split
    · rfl
    · rfl
  have hdeep := nesting_encode h
  constructor
  · intro hround v hv
    have hdecoded := hround.decoded
    rw [hcodec] at hdecoded
    rw [hv, Option.map_some, Option.getD_some] at hdeep
    split at hdecoded
    · rename_i hlimit
      obtain ⟨hnull, hplain⟩ := (decode_encode_iff h).mp hdecoded v hv
      exact ⟨hnull, hplain, by omega⟩
    · cases hdecoded
  · intro hkept
    have hlimit : m.encode.nesting < 128 := by
      have hframing := framing_le m
      rcases hv : m.payload with _ | v
      · rw [hv, Option.map_none, Option.getD_none] at hdeep
        omega
      · have hfits := (hkept v hv).2.2
        rw [hv, Option.map_some, Option.getD_some] at hdeep
        omega
    have hdecoded : SerdeJsonCodec.decode text (SerdeJsonCodec.encode text m) = some m := by
      rw [hcodec, if_pos hlimit, decode_encode_iff h]
      intro v hv
      exact ⟨(hkept v hv).1, (hkept v hv).2.1⟩
    constructor
    · exact hdecoded
    · intro r hr
      rw [hdecoded] at hr
      injection hr with hr
      subst hr
      exact h.carriesOne

end JsonRpcMessage

/-- A text that stands for itself. -/
def JsonText.verbatim : JsonText where
  Bytes := Value
  toVec v := v
  fromSlice v := if v.nesting < 128 then some v else none
  fromStr _ := none
  fromSlice_toVec _ := rfl
  fromStr_plain := nofun

/-- A call with nested arguments. -/
def callFrame : JsonRpcMessage :=
  .request
    { id := .string "call-1", method := "tools/call"
      params := some (.object [("name", .string "pay"),
        ("arguments", .object [("items", .array [.int 3, .object [("note", .null)]])])]) }

/-- An error that says more. -/
def errorFrame : JsonRpcMessage :=
  .response (.failure (.number 1)
    { code := -32602, message := "Invalid params"
      data := some (.object [("supported", .array [.string "2025-11-25"])]) })

theorem roundTrips_iff_call : callFrame.RoundTrips JsonText.verbatim ∧
    errorFrame.RoundTrips JsonText.verbatim := by
  constructor
  · have hid : RequestId.Fits (.string "call-1") := trivial
    refine (JsonRpcMessage.roundTrips_iff JsonText.verbatim (.request hid _ _)).mpr ?_
    intro v hv
    obtain rfl := Option.some.inj hv
    decide
  · have hid : RequestId.Fits (.number 1) := ⟨by decide, by decide⟩
    refine (JsonRpcMessage.roundTrips_iff JsonText.verbatim (.error hid ⟨?_, ?_⟩)).mpr ?_
    · decide
    · decide
    · intro v hv
      obtain rfl := Option.some.inj hv
      decide

/-- A success whose result is `null` comes back with neither result nor error. -/
theorem not_roundTrips_null : ¬ JsonRpcMessage.RoundTrips JsonText.verbatim
    (.response (.success (.number 1) .null)) := by
  intro h
  have hdecoded : SerdeJsonCodec.decode JsonText.verbatim (SerdeJsonCodec.encode JsonText.verbatim
      (.response (.success (.number 1) .null))) =
        some (.response { id := .number 1, result := none, error := none }) := by
    decide
  exact h.carriesOne _ hdecoded rfl

end TurboMcp.Core
