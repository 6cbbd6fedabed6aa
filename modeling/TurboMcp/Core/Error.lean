import TurboMcp.Core.JsonRpc

/-!
# Errors

`McpError` is what handlers return, `ProtocolError` what a service call fails
with; each has one table of JSON-RPC codes and one rendering.
-/

namespace TurboMcp.Core

inductive McpError
  | internal (msg : String)
  | invalidParams (msg : String)
  | methodNotFound (msg : String)
  | toolNotFound (name : String)
  | toolExecutionFailed (tool reason : String)
  | resourceNotFound (uri : String)
  | authentication (msg : String)
  | permissionDenied (msg : String)
  | timeout (msg : String)
  | transport (msg : String)
  | unsupportedProtocolVersion (msg : String)
  | missingRequiredCapability (msg : String)
  | headerMismatch (msg : String)
  /-- The abort sentinel of a handler that asked the client for input. -/
  | inputRequired
  deriving DecidableEq, Repr

namespace McpError

def jsonrpcCode : McpError → Int
  | internal _ | toolExecutionFailed _ _ | inputRequired => -32603
  | invalidParams _ | resourceNotFound _ => -32602
  | methodNotFound _ | toolNotFound _ => -32601
  | authentication _ | permissionDenied _ | timeout _ | transport _ => -32001
  | headerMismatch _ => -32020
  | missingRequiredCapability _ => -32021
  | unsupportedProtocolVersion _ => -32022

/-- `Display for McpError`. -/
def display : McpError → String
  | internal m => "internal error: " ++ m
  | invalidParams m => "invalid params: " ++ m
  | methodNotFound m => "method not found: " ++ m
  | toolNotFound m => "tool not found: " ++ m
  | toolExecutionFailed tool reason => "tool '" ++ tool ++ "' failed: " ++ reason
  | resourceNotFound m => "resource not found: " ++ m
  | authentication m => "authentication error: " ++ m
  | permissionDenied m => "permission denied: " ++ m
  | timeout m => "timeout: " ++ m
  | transport m => "transport error: " ++ m
  | unsupportedProtocolVersion m => "unsupported protocol version: " ++ m
  | missingRequiredCapability m => "missing required capability: " ++ m
  | headerMismatch m => "header mismatch: " ++ m
  | inputRequired => "input required (unintercepted MRTR abort)"

end McpError

/-- The canonical `McpError` to JSON-RPC mapping. -/
def mcpToJsonrpcError (err : McpError) : JsonRpcError :=
  { code := err.jsonrpcCode, message := err.display, data := none }

inductive ProtocolError
  | parse (msg : String)
  | unsupportedVersion (requested : Option String) (supported : List String)
  | missingCapability (msg : String)
  | unknownSession (session : String)
  | transport (msg : String)
  | serverShuttingDown
  | internal (msg : String)
  deriving DecidableEq, Repr

namespace ProtocolError

def jsonrpcCode : ProtocolError → Int
  | parse _ => -32700
  | unsupportedVersion _ _ => -32022
  | missingCapability _ => -32021
  | unknownSession _ => -32002
  | transport _ | serverShuttingDown => -32001
  | internal _ => -32603

/-- `Display for ProtocolError`; `debug` is the `Debug` of a string. -/
def display (debug : String → String) : ProtocolError → String
  | parse m => "parse error: " ++ m
  | unsupportedVersion requested supported =>
      "unsupported protocol version (requested " ++
        (match requested with
          | none => "None"
          | some v => "Some(" ++ debug v ++ ")") ++
        "; supported [" ++ ", ".intercalate (supported.map debug) ++ "])"
  | missingCapability m => "missing required capability: " ++ m
  | unknownSession m => "unknown session: " ++ m
  | transport m => "transport error: " ++ m
  | serverShuttingDown => "server is shutting down"
  | internal m => "internal error: " ++ m

def intoResponse (debug : String → String) (e : ProtocolError) (id : RequestId) :
    JsonRpcResponse :=
  .failure id { code := e.jsonrpcCode, message := e.display debug, data := none }

end ProtocolError

end TurboMcp.Core
