import TurboMcp.Core.Context
import TurboMcp.Core.JsonRpc

/-!
# `_meta` keys and the trust boundary

Transports strip every internal key a client sent (`sanitizeInbound`) and then
assert their own (`setRequestMeta`); the dispatcher reads them back.  Both
only touch an object `_meta` inside object `params`, and `setRequestMeta`
creates what is absent.
-/

namespace TurboMcp.Core.Meta

open TurboMcp.Core TurboMcp.Lib

/-! ## Keys -/

namespace keys

def protocolVersion := "io.modelcontextprotocol/protocolVersion"
def progressToken := "progressToken"
def traceparent := "traceparent"
def tracestate := "tracestate"
def baggage := "baggage"
def subscriptionId := "io.modelcontextprotocol/subscriptionId"
def clientInfo := "io.modelcontextprotocol/clientInfo"
def clientCapabilities := "io.modelcontextprotocol/clientCapabilities"
def logLevel := "io.modelcontextprotocol/logLevel"
def serverInfo := "io.modelcontextprotocol/serverInfo"

end keys

namespace internal

def sessionId := "io.turbomcp.internal/sessionId"
def connectionId := "io.turbomcp.internal/connectionId"
def identity := "io.turbomcp.internal/identity"

def isInternalKey (key : String) : Bool :=
  "io.turbomcp.internal/".toList.isPrefixOf key.toList

end internal

def isFrameworkKey (key : String) : Bool :=
  key = keys.protocolVersion || key = keys.progressToken || key = keys.traceparent ||
    key = keys.tracestate || key = keys.baggage || key = keys.subscriptionId ||
    key = keys.clientInfo || key = keys.clientCapabilities || key = keys.logLevel ||
    internal.isInternalKey key

/-! ## Reading -/

/-- The `_meta` object of a message's `params`, if it is one. -/
def metaObject (params : Option Value) : Option Map :=
  (params.bind (·.get "_meta")).bind Value.asObject

def extractProtocolVersion (m : Map) : Option ProtocolVersion :=
  ((m.get keys.protocolVersion).bind Value.asStr).map ProtocolVersion.fromWire

/-- `version::request_protocol_version`. -/
def requestProtocolVersion (params : Option Value) : Option ProtocolVersion :=
  (metaObject params).bind extractProtocolVersion

/-- Framework-consumed and propagated halves of a `_meta` map. -/
def partition (m : Map) : Map × Map :=
  (m.filter (isFrameworkKey ·.1), m.filter fun e => !isFrameworkKey e.1)

/-- A principal `{ "sub": String, "claims": Object }` as an identity; anything
else is anonymous. -/
def principalIdentity (principal : Value) : Identity :=
  match (principal.get "sub").bind Value.asStr with
  | none => .anonymous
  | some sub =>
      .bearer sub (((principal.get "claims").bind Value.asObject).getD Map.empty)

def extractIdentity (m : Map) : Identity :=
  match m.get internal.identity with
  | none => .anonymous
  | some principal => principalIdentity principal

def extractTraceContext (m : Map) : Option TraceContext :=
  ((m.get keys.traceparent).bind Value.asStr).map fun traceparent =>
    { traceparent
      tracestate := (m.get keys.tracestate).bind Value.asStr
      baggage := (m.get keys.baggage).bind Value.asStr }

/-! ## Writing -/

/-- Set `key` in the `_meta` object of `params`. -/
def setMeta (key : String) (value : Value) : Option Value → Option Value
  | none => some (.object [("_meta", .object [(key, value)])])
  | some (.object obj) =>
      match Map.get obj "_meta" with
      | none => some (.object (Map.insert obj "_meta" (.object [(key, value)])))
      | some (.object m) =>
          some (.object (Map.insert obj "_meta" (.object (Map.insert m key value))))
      | some _ => some (.object obj)
  | some params => some params

/-- Insert `key: value` into a request's or notification's `params._meta`,
creating both as needed; a non-object `params` or `_meta` is left as it is. -/
def setRequestMeta (msg : JsonRpcMessage) (key : String) (value : Value) :
    JsonRpcMessage :=
  msg.mapParams (setMeta key value)

/-- Keep the entries of `params._meta` whose key satisfies `p`. -/
def retainMeta (p : String → Bool) : Option Value → Option Value
  | some (.object obj) =>
      match Map.get obj "_meta" with
      | some (.object m) => some (.object (Map.insert obj "_meta" (.object (Map.retain m p))))
      | _ => some (.object obj)
  | params => params

/-- Strip all internal keys from `params._meta`. -/
def sanitizeInbound (msg : JsonRpcMessage) : JsonRpcMessage :=
  msg.mapParams (retainMeta fun key => !internal.isInternalKey key)

/-! ## What can be stamped -/

/-- `params` is absent or an object, and so is its `_meta`: the shapes
`setMeta` writes into. -/
def stampable : Option Value → Bool
  | none => true
  | some (.object obj) =>
      match Map.get obj "_meta" with
      | none => true
      | some (.object _) => true
      | some _ => false
  | some _ => false

theorem metaObject_of_not_stampable {params : Option Value}
    (h : stampable params = false) : metaObject params = none := by
  unfold stampable at h
  split at h
  · simp at h
  · rename_i obj
    split at h
    · simp at h
    · simp at h
    · rename_i v hv hne
      simp only [metaObject, Option.bind_some, Value.get_object, hne]
      cases v <;> simp_all [Value.asObject]
  · rename_i v hv
    cases v <;> simp_all [metaObject, Value.get, Value.asObject]

theorem setMeta_of_not_stampable (key : String) (value : Value) {params : Option Value}
    (h : stampable params = false) : setMeta key value params = params := by
  unfold setMeta
  split
  · simp [stampable] at h
  · split
    · simp_all [stampable]
    · simp_all [stampable]
    · rfl
  · rfl

/-- **Reading back a stamp**: where there is room for `_meta`, the new key
stands in it beside what was there. -/
theorem metaObject_setMeta (key : String) (value : Value) {params : Option Value}
    (h : stampable params = true) :
    metaObject (setMeta key value params) =
      some (Map.insert ((metaObject params).getD Map.empty) key value) := by
  unfold stampable at h
  split at h
  · simp [setMeta, metaObject, Map.get, Map.insert, Entries.insert, Map.empty]
  · rename_i obj
    split at h
    · rename_i hnone
      simp [setMeta, metaObject, hnone]
      rfl
    · rename_i m hm
      simp [setMeta, metaObject, hm]
    · simp at h
  · simp at h

theorem stampable_setMeta (key : String) (value : Value) (params : Option Value) :
    stampable (setMeta key value params) = stampable params := by
  cases h : stampable params with
  | false => rw [setMeta_of_not_stampable key value h, h]
  | true =>
      unfold stampable at h
      split at h
      · simp [setMeta, stampable, Map.get]
      · rename_i obj
        split at h
        · rename_i hnone
          simp [setMeta, stampable, hnone]
        · rename_i m hm
          simp [setMeta, stampable, hm]
        · simp at h
      · simp at h

theorem metaObject_retainMeta (p : String → Bool) (params : Option Value) :
    metaObject (retainMeta p params) = (metaObject params).map (Map.retain · p) := by
  unfold retainMeta
  split
  · rename_i obj
    split
    · rename_i m hm
      simp [metaObject, hm]
    · rename_i v hv
      cases hm : Map.get obj "_meta" with
      | none => simp [metaObject, hm]
      | some v => cases v <;> simp_all [metaObject, Value.asObject]
  · rename_i hno
    cases params with
    | none => rfl
    | some v => cases v <;> simp_all [metaObject, Value.get, Value.asObject]

theorem stampable_retainMeta (p : String → Bool) (params : Option Value) :
    stampable (retainMeta p params) = stampable params := by
  unfold retainMeta
  split
  · rename_i obj
    split
    · rename_i m hm
      simp [stampable, hm]
    · rfl
  · rfl

/-! ## Single entries -/

/-- The entry of `params._meta` under `key`. -/
def entry (key : String) (params : Option Value) : Option Value :=
  (metaObject params).bind (Map.get · key)

theorem requestProtocolVersion_eq (params : Option Value) :
    requestProtocolVersion params =
      ((entry keys.protocolVersion params).bind Value.asStr).map ProtocolVersion.fromWire := by
  unfold requestProtocolVersion extractProtocolVersion entry
  cases metaObject params <;> rfl

theorem entry_of_not_stampable {params : Option Value} (h : stampable params = false)
    (key : String) : entry key params = none := by
  simp [entry, metaObject_of_not_stampable h]

theorem entry_setMeta_self (key : String) (value : Value) {params : Option Value}
    (h : stampable params = true) : entry key (setMeta key value params) = some value := by
  simp [entry, metaObject_setMeta key value h]

theorem entry_setMeta_of_ne {key key' : String} (hne : key' ≠ key) (value : Value)
    (params : Option Value) : entry key' (setMeta key value params) = entry key' params := by
  cases h : stampable params with
  | false => rw [setMeta_of_not_stampable key value h]
  | true =>
      simp only [entry, metaObject_setMeta key value h, Option.bind_some]
      cases metaObject params <;> simp [Map.get_insert, hne.symm]

theorem entry_retainMeta (p : String → Bool) (key : String) (params : Option Value) :
    entry key (retainMeta p params) = if p key then entry key params else none := by
  simp only [entry, metaObject_retainMeta]
  cases metaObject params <;> simp [Map.get_retain]

end TurboMcp.Core.Meta
