import TurboMcp.Client.Handshake

/-!
# Answering the server

`dispatch_server_request` answers what a server asks of the client, on either
protocol.  On the draft the questions come packaged in an `input_required`
result: `mrtr_request` answers each, and issues the call again with the answers
of this round.
-/

namespace TurboMcp.Client

open TurboMcp.Core TurboMcp.Lib

/-- `Display for ClientError`. -/
def ClientError.display : ClientError → String
  | rpc e => "server error " ++ toString e.code ++ ": " ++ e.message
  | closed => "client connection closed"
  | timeout => "request timed out"
  | decode msg => "could not decode result: " ++ msg
  | protocol msg => "protocol error: " ++ msg

/-! ## The handler -/

/-- A `ClientHandler`: what the client answers. -/
structure ClientHandler where
  elicit : ElicitParams → ElicitOutcome
  createMessage : Value → Except ClientError Value
  listRoots : Except ClientError Value

def invalidParams (msg : String) : JsonRpcError := { code := -32602, message := msg, data := none }

def internalError (msg : String) : JsonRpcError := { code := -32603, message := msg, data := none }

def parseElicitParams : Option Value → Except JsonRpcError ElicitParams
  | none => .error (invalidParams "elicitation/create requires params")
  | some params =>
      .ok
        { message := ((params.get "message").bind Value.asStr).getD ""
          requestedSchema := (params.get "requestedSchema").getD (.object []) }

/-- The wire shape of an outcome: `content` is there on `accept` only. -/
def elicitOutcomeValue (outcome : ElicitOutcome) : Value :=
  .object ([("action", .string outcome.action.asStr)] ++
    if outcome.action = .accept then [("content", .object outcome.content)] else [])

/-- `dispatch_server_request`. -/
def dispatchServerRequest (handler : ClientHandler) (method : String) (params : Option Value) :
    Except JsonRpcError Value :=
  if method = "elicitation/create" then
    (parseElicitParams params).map fun elicit => elicitOutcomeValue (handler.elicit elicit)
  else if method = "sampling/createMessage" then
    (handler.createMessage (params.getD .null)).mapError fun e => internalError e.display
  else if method = "roots/list" then
    handler.listRoots.mapError fun e => internalError e.display
  else .error { code := -32601, message := "method not found: " ++ method, data := none }

/-- Answer one packaged request. -/
def answerInput (handler : ClientHandler) (req : Value) : Except JsonRpcError Value :=
  dispatchServerRequest handler (((req.get "method").bind Value.asStr).getD "") (req.get "params")

/-- Answer every packaged request, keyed as the server sent them. -/
def answerInputs (handler : ClientHandler) : Map → Map → Except ClientError Map
  | [], responses => .ok responses
  | (key, req) :: requests, responses =>
      match answerInput handler req with
      | .error e => .error (.protocol ("input handler failed: " ++ e.message))
      | .ok answer => answerInputs handler requests (Map.insert responses key answer)

/-! ## The draft's rounds -/

def maxMrtrRounds : Nat := 16

def inputRequiredType := "input_required"

/-- The next round's parameters: this round's answers, and the server's state. -/
def retryParams (params : Map) (result : Value) (responses : Map) : Map :=
  let params := Map.insert params "inputResponses" (.object responses)
  match result.get "requestState" with
  | none => params
  | some state => Map.insert params "requestState" state

/-- The rounds of `mrtr_request` that are left. -/
def mrtrRounds (b : ClientBuilder) (version : ProtocolVersion) (handler : Option ClientHandler)
    (method : String) : Nat → Map → Conversation (Except ClientError Value)
  | 0, _ =>
      pure (.error (.protocol
        ("MRTR did not converge after " ++ toString maxMrtrRounds ++ " rounds")))
  | rounds + 1, params => do
      match ← request method (some (.object (versionedParams b version params))) with
      | .error e => pure (.error e)
      | .ok result =>
          if (result.get "resultType").bind Value.asStr = some inputRequiredType then
            match handler with
            | none =>
                pure (.error (.protocol
                  "server requires input (MRTR) but the client has no handler"))
            | some handler =>
                let requests := ((result.get "inputRequests").bind Value.asObject).getD []
                match answerInputs handler requests [] with
                | .error e => pure (.error e)
                | .ok responses =>
                    mrtrRounds b version (some handler) method rounds
                      (retryParams params result responses)
          else pure (.ok result)

/-- `mrtr_request`. -/
def mrtrRequest (b : ClientBuilder) (version : ProtocolVersion) (handler : Option ClientHandler)
    (method : String) (params : Map) : Conversation (Except ClientError Value) :=
  mrtrRounds b version handler method maxMrtrRounds params

end TurboMcp.Client
