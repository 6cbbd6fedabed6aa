import TurboMcp.Core.Json

/-!
# JSON-RPC envelopes

The version-neutral frames: request, notification, response, error and id.
-/

namespace TurboMcp.Core

inductive RequestId
  | number (n : Int)
  | string (s : String)
  deriving DecidableEq, Repr, Inhabited

def jsonrpcVersion : String := "2.0"

structure JsonRpcRequest where
  jsonrpc : String := jsonrpcVersion
  id : RequestId
  method : String
  params : Option Value
  deriving DecidableEq

structure JsonRpcNotification where
  jsonrpc : String := jsonrpcVersion
  method : String
  params : Option Value
  deriving DecidableEq

structure JsonRpcError where
  code : Int
  message : String
  data : Option Value
  deriving DecidableEq

/-- `serde_json::to_value` of an error: `data` is skipped when absent. -/
def JsonRpcError.toValue (e : JsonRpcError) : Value :=
  .object ([("code", .int e.code), ("message", .string e.message)] ++
    (e.data.map fun d => ("data", d)).toList)

structure JsonRpcResponse where
  jsonrpc : String := jsonrpcVersion
  id : RequestId
  result : Option Value
  error : Option JsonRpcError
  deriving DecidableEq

namespace JsonRpcResponse

def success (id : RequestId) (result : Value) : JsonRpcResponse :=
  { id, result := some result, error := none }

/-- `JsonRpcResponse::error`. -/
def failure (id : RequestId) (error : JsonRpcError) : JsonRpcResponse :=
  { id, result := none, error := some error }

@[simp] theorem success_id (id : RequestId) (v : Value) : (success id v).id = id := rfl

@[simp] theorem failure_id (id : RequestId) (e : JsonRpcError) : (failure id e).id = id := rfl

end JsonRpcResponse

inductive JsonRpcMessage
  | request (r : JsonRpcRequest)
  | notification (n : JsonRpcNotification)
  | response (r : JsonRpcResponse)
  deriving DecidableEq

namespace JsonRpcMessage

def hasValidVersion : JsonRpcMessage → Bool
  | request r => r.jsonrpc = jsonrpcVersion
  | notification n => n.jsonrpc = jsonrpcVersion
  | response r => r.jsonrpc = jsonrpcVersion

def method : JsonRpcMessage → Option String
  | request r => some r.method
  | notification n => some n.method
  | response _ => none

/-- The `params` of a request or notification. -/
def params : JsonRpcMessage → Option Value
  | request r => r.params
  | notification n => n.params
  | response _ => none

/-- Rewrite the `params` of a request or notification. -/
def mapParams (f : Option Value → Option Value) : JsonRpcMessage → JsonRpcMessage
  | request r => request { r with params := f r.params }
  | notification n => notification { n with params := f n.params }
  | response r => response r

@[simp] theorem mapParams_mapParams (f g : Option Value → Option Value)
    (msg : JsonRpcMessage) :
    (msg.mapParams f).mapParams g = msg.mapParams fun p => g (f p) := by
  cases msg <;> rfl

end JsonRpcMessage

end TurboMcp.Core
