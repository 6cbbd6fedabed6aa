import TurboMcp.Lib.Program
import TurboMcp.Server.Params

/-!
# What the dispatcher asks of its surroundings

Every store, handler, extension and channel the dispatcher touches is an
effect, with the data the source passes it.  The answers are left open: a run
of the dispatcher is its program with the answers the surroundings gave.
-/

namespace TurboMcp.Server

open TurboMcp.Core TurboMcp.Lib

/-! ## Handler contexts -/

/-- How a handler's `ClientHandle` reaches the client. -/
inductive HandleMode
  | mrtr (responses : Map) (stateIn : Option Value) (strictKeys : Bool)
  | bidi (session connection : String)
  | taskMediated
  | unavailable (reason : String)
  deriving DecidableEq

structure ClientHandle where
  mode : HandleMode
  clientCapabilities : Option Value
  deriving DecidableEq

/-- A live progress reporter; `none` where the request carried no token. -/
structure ProgressReporter where
  token : Value
  connection : String
  session : String
  deriving DecidableEq

/-- A live log sender; `none` without the server's and the client's opt-in. -/
structure LogSender where
  min : LogLevel
  connection : String
  session : String
  deriving DecidableEq

/-- One call of a registered capability handler. -/
structure CapabilityCall where
  capability : Capability
  ctx : RequestContext
  client : Option ClientHandle
  progress : Option ProgressReporter
  log : Option LogSender
  params : Params
  deriving DecidableEq

/-- What a handler leaves behind: its result, the input requests it recorded
and the state it stored. -/
structure HandlerOutcome (N : Type) where
  result : Except McpError N
  collected : Map
  stateOut : Option Value

/-! ## Extensions, subscriptions and tasks -/

structure ExtensionRequest where
  request : JsonRpcRequest
  context : RequestContext
  connectionId : Option String
  deriving DecidableEq

/-- A `tools/call` offered for augmentation, with the prepared call. -/
structure CallAugmentRequest where
  request : JsonRpcRequest
  context : RequestContext
  connectionId : Option String
  run : CapabilityCall
  deriving DecidableEq

inductive SubscribeOutcome
  | notApplicable
  | missingCapability
  | subscribed (contribution : Value)

/-- The draft's `SubscriptionFilter`. -/
structure SubscriptionFilter where
  promptsListChanged : Option Bool
  resourceSubscriptions : List String
  resourcesListChanged : Option Bool
  toolsListChanged : Option Bool
  deriving DecidableEq

def SubscriptionFilter.decode (v : Value) : Option SubscriptionFilter := do
  let m ← structFields ["promptsListChanged", "resourceSubscriptions", "resourcesListChanged",
    "toolsListChanged"] v
  let promptsListChanged ← optionField m "promptsListChanged" Value.asBool
  let resourceSubscriptions ← vecField m "resourceSubscriptions" Value.asStr
  let resourcesListChanged ← optionField m "resourcesListChanged" Value.asBool
  let toolsListChanged ← optionField m "toolsListChanged" Value.asBool
  pure { promptsListChanged, resourceSubscriptions, resourcesListChanged, toolsListChanged }

/-- What the listen request's params ask for. -/
def RawListenParams.decode (v : Value) : Option SubscriptionFilter := do
  let m ← structFields ["notifications"] v
  requiredField m "notifications" SubscriptionFilter.decode

inductive CoreTaskStatus
  | working
  | completed
  | failed
  | cancelled
  deriving DecidableEq

/-- A core task as its store describes it. -/
structure TaskSnapshot where
  taskId : String
  status : CoreTaskStatus
  statusMessage : Option String
  createdAt : String
  lastUpdatedAt : String
  ttlMs : Int
  deriving DecidableEq

inductive TaskError
  | notFound
  | alreadyTerminal
  | capacityExhausted
  deriving DecidableEq

/-! ## Effects -/

inductive Effect
  -- sessions
  | sessionGet (sid : String)
  | sessionInsert (sid : String) (state : SessionState)
  | sessionSetLogLevel (sid : String) (level : LogLevel)
  | sweepExpired
  -- in-flight requests
  | inflightRegister (connection : String) (id : RequestId)
  | inflightRelease (connection : String) (id : RequestId)
  | inflightCancel (connection : String) (id : RequestId)
  /-- Whether the request's token has fired. -/
  | isCancelled (connection : Option String) (id : RequestId)
  -- subscriptions
  | legacyTouch (sid : String) (connection : Option String)
  | legacyRemove (sid : String)
  | legacySubscribe (sid : String) (connection : Option String) (uri : String)
  | legacyUnsubscribe (sid uri : String)
  | subscriptionInsert (connection : String) (id : RequestId) (agreed : SubscriptionFilter)
  | subscriptionRemove (connection : String) (id : RequestId)
  /-- Whether `outbound::writer` finds a writer for the connection. -/
  | writer (connection : String)
  /-- Send on that writer; `false` when the connection is gone. -/
  | send (connection : String) (message : JsonRpcMessage)
  -- server-to-client requests
  | pendingComplete (response : JsonRpcResponse)
  | stateVerify (method : String) (subject : Option String) (token : String)
  | stateSign (method : String) (subject : Option String) (data : Value)
  -- handlers and extensions
  | capability (call : CapabilityCall)
  | extensionDispatch (extension : String) (request : ExtensionRequest)
  | augmentCall (extension : String) (request : CallAugmentRequest)
  | onSubscribe (extension connection : String) (id : RequestId) (notifications : Value)
      (declared : Bool)
  -- core tasks
  | taskCreate (sid : String) (ttl : Option Int)
  | taskSpawn (taskId : String) (call : CapabilityCall)
  | taskList (sid : String) (cursor : Option String) (pageSize : Nat)
  | taskGet (sid taskId : String)
  | taskCancel (sid taskId : String)
  | taskWaitResult (sid taskId : String)
  -- the session adapter
  | mintSession
  | adapterSession
  | commitSession (sid : String)

/-- What each effect is answered with; `N` is the type of handler results. -/
def Answer (N : Type) : Effect → Type
  | .sessionGet _ => Option SessionState
  | .sweepExpired => List String
  | .isCancelled _ _ => Bool
  | .inflightCancel _ _ => Bool
  | .subscriptionRemove _ _ => Bool
  | .writer _ => Bool
  | .send _ _ => Bool
  | .pendingComplete _ => Bool
  | .stateVerify _ _ _ => Except McpError Value
  | .stateSign _ _ _ => Except McpError String
  | .capability _ => HandlerOutcome N
  | .extensionDispatch _ _ => JsonRpcMessage
  | .augmentCall _ _ => Option JsonRpcMessage
  | .onSubscribe _ _ _ _ _ => SubscribeOutcome
  | .taskCreate _ _ => Except TaskError TaskSnapshot
  | .taskList _ _ _ => Except TaskError (List TaskSnapshot × Option String)
  | .taskGet _ _ => Except TaskError TaskSnapshot
  | .taskCancel _ _ => Except TaskError TaskSnapshot
  | .taskWaitResult _ _ => Except TaskError (Except JsonRpcError Value)
  | .mintSession => String
  | .adapterSession => Option String
  | _ => Unit

/-- A program of the dispatcher. -/
abbrev Dispatch (N : Type) := Program Effect (Answer N)

namespace Dispatch

variable {N : Type}

/-- Perform an effect. -/
def perform (e : Effect) : Dispatch N (Answer N e) := Program.perform e

def sessionGet (sid : String) : Dispatch N (Option SessionState) :=
  perform (.sessionGet sid)

def sweepExpired : Dispatch N (List String) := perform .sweepExpired

def isCancelled (connection : Option String) (id : RequestId) : Dispatch N Bool :=
  perform (.isCancelled connection id)

def writer (connection : String) : Dispatch N Bool := perform (.writer connection)

def send (connection : String) (message : JsonRpcMessage) : Dispatch N Bool :=
  perform (.send connection message)

def stateVerify (method : String) (subject : Option String) (token : String) :
    Dispatch N (Except McpError Value) :=
  perform (.stateVerify method subject token)

def stateSign (method : String) (subject : Option String) (data : Value) :
    Dispatch N (Except McpError String) :=
  perform (.stateSign method subject data)

def capability (call : CapabilityCall) : Dispatch N (HandlerOutcome N) :=
  perform (.capability call)

def extensionDispatch (extension : String) (request : ExtensionRequest) :
    Dispatch N JsonRpcMessage :=
  perform (.extensionDispatch extension request)

def augmentCall (extension : String) (request : CallAugmentRequest) :
    Dispatch N (Option JsonRpcMessage) :=
  perform (.augmentCall extension request)

def onSubscribe (extension connection : String) (id : RequestId) (notifications : Value)
    (declared : Bool) : Dispatch N SubscribeOutcome :=
  perform (.onSubscribe extension connection id notifications declared)

def taskCreate (sid : String) (ttl : Option Int) :
    Dispatch N (Except TaskError TaskSnapshot) :=
  perform (.taskCreate sid ttl)

def taskList (sid : String) (cursor : Option String) (pageSize : Nat) :
    Dispatch N (Except TaskError (List TaskSnapshot × Option String)) :=
  perform (.taskList sid cursor pageSize)

def taskGet (sid taskId : String) : Dispatch N (Except TaskError TaskSnapshot) :=
  perform (.taskGet sid taskId)

def taskCancel (sid taskId : String) : Dispatch N (Except TaskError TaskSnapshot) :=
  perform (.taskCancel sid taskId)

def taskWaitResult (sid taskId : String) :
    Dispatch N (Except TaskError (Except JsonRpcError Value)) :=
  perform (.taskWaitResult sid taskId)

def mintSession : Dispatch N String := perform .mintSession

def adapterSession : Dispatch N (Option String) := perform .adapterSession

/-- Perform an effect for its effect alone. -/
def tell (e : Effect) : Dispatch N Unit := Program.call e fun _ => Program.ret ()

/-! ### What each effect obliges

`wp` of an effect: it must be allowed, and every admitted answer must do. -/

section

variable {C : Effect → Prop} {A : (e : Effect) → Answer N e → Prop}

@[simp] theorem wp_tell (e : Effect) (Q : Unit → Prop) :
    Program.wp C A (tell e : Dispatch N Unit) Q ↔ C e ∧ ∀ r, A e r → Q () := Iff.rfl

@[simp] theorem wp_sessionGet (sid : String) (Q : Option SessionState → Prop) :
    Program.wp C A (sessionGet sid) Q ↔
      C (.sessionGet sid) ∧ ∀ r, A (.sessionGet sid) r → Q r := Iff.rfl

@[simp] theorem wp_sweepExpired (Q : List String → Prop) :
    Program.wp C A sweepExpired Q ↔
      C .sweepExpired ∧ ∀ r, A .sweepExpired r → Q r := Iff.rfl

@[simp] theorem wp_isCancelled (connection : Option String) (id : RequestId)
    (Q : Bool → Prop) :
    Program.wp C A (isCancelled connection id) Q ↔
      C (.isCancelled connection id) ∧
        ∀ r, A (.isCancelled connection id) r → Q r := Iff.rfl

@[simp] theorem wp_writer (connection : String) (Q : Bool → Prop) :
    Program.wp C A (writer connection) Q ↔
      C (.writer connection) ∧ ∀ r, A (.writer connection) r → Q r := Iff.rfl

@[simp] theorem wp_send (connection : String) (message : JsonRpcMessage)
    (Q : Bool → Prop) :
    Program.wp C A (send connection message) Q ↔
      C (.send connection message) ∧ ∀ r, A (.send connection message) r → Q r := Iff.rfl

@[simp] theorem wp_stateVerify (method : String) (subject : Option String) (token : String)
    (Q : Except McpError Value → Prop) :
    Program.wp C A (stateVerify method subject token) Q ↔
      C (.stateVerify method subject token) ∧
        ∀ r, A (.stateVerify method subject token) r → Q r := Iff.rfl

@[simp] theorem wp_stateSign (method : String) (subject : Option String) (data : Value)
    (Q : Except McpError String → Prop) :
    Program.wp C A (stateSign method subject data) Q ↔
      C (.stateSign method subject data) ∧
        ∀ r, A (.stateSign method subject data) r → Q r := Iff.rfl

@[simp] theorem wp_capability (call : CapabilityCall) (Q : HandlerOutcome N → Prop) :
    Program.wp C A (capability call) Q ↔
      C (.capability call) ∧ ∀ r, A (.capability call) r → Q r := Iff.rfl

@[simp] theorem wp_extensionDispatch (extension : String) (request : ExtensionRequest)
    (Q : JsonRpcMessage → Prop) :
    Program.wp C A (extensionDispatch extension request) Q ↔
      C (.extensionDispatch extension request) ∧
        ∀ r, A (.extensionDispatch extension request) r → Q r := Iff.rfl

@[simp] theorem wp_augmentCall (extension : String) (request : CallAugmentRequest)
    (Q : Option JsonRpcMessage → Prop) :
    Program.wp C A (augmentCall extension request) Q ↔
      C (.augmentCall extension request) ∧
        ∀ r, A (.augmentCall extension request) r → Q r := Iff.rfl

@[simp] theorem wp_onSubscribe (extension connection : String) (id : RequestId)
    (notifications : Value)
    (declared : Bool)
    (Q : SubscribeOutcome → Prop) :
    Program.wp C A (onSubscribe extension connection id notifications declared) Q ↔
      C (.onSubscribe extension connection id notifications declared) ∧
        ∀ r, A (.onSubscribe extension connection id notifications declared) r →
          Q r := Iff.rfl

@[simp] theorem wp_taskCreate (sid : String) (ttl : Option Int)
    (Q : Except TaskError TaskSnapshot → Prop) :
    Program.wp C A (taskCreate sid ttl) Q ↔
      C (.taskCreate sid ttl) ∧ ∀ r, A (.taskCreate sid ttl) r → Q r := Iff.rfl

@[simp] theorem wp_taskList (sid : String) (cursor : Option String) (pageSize : Nat)
    (Q : Except TaskError (List TaskSnapshot × Option String) → Prop) :
    Program.wp C A (taskList sid cursor pageSize) Q ↔
      C (.taskList sid cursor pageSize) ∧
        ∀ r, A (.taskList sid cursor pageSize) r → Q r := Iff.rfl

@[simp] theorem wp_taskGet (sid taskId : String)
    (Q : Except TaskError TaskSnapshot → Prop) :
    Program.wp C A (taskGet sid taskId) Q ↔
      C (.taskGet sid taskId) ∧ ∀ r, A (.taskGet sid taskId) r → Q r := Iff.rfl

@[simp] theorem wp_taskCancel (sid taskId : String)
    (Q : Except TaskError TaskSnapshot → Prop) :
    Program.wp C A (taskCancel sid taskId) Q ↔
      C (.taskCancel sid taskId) ∧ ∀ r, A (.taskCancel sid taskId) r → Q r := Iff.rfl

@[simp] theorem wp_taskWaitResult (sid taskId : String)
    (Q : Except TaskError (Except JsonRpcError Value) → Prop) :
    Program.wp C A (taskWaitResult sid taskId) Q ↔
      C (.taskWaitResult sid taskId) ∧
        ∀ r, A (.taskWaitResult sid taskId) r → Q r := Iff.rfl

@[simp] theorem wp_mintSession (Q : String → Prop) :
    Program.wp C A mintSession Q ↔ C .mintSession ∧ ∀ r, A .mintSession r → Q r := Iff.rfl

@[simp] theorem wp_adapterSession (Q : Option String → Prop) :
    Program.wp C A adapterSession Q ↔
      C .adapterSession ∧ ∀ r, A .adapterSession r → Q r := Iff.rfl

end

end Dispatch

end TurboMcp.Server
