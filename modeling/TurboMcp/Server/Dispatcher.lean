import TurboMcp.Server.Handshake

/-!
# The version dispatcher

`handle` turns one frame into at most one reply.  A request is tracked as in
flight, routed by its method and the version its `_meta` declares, and answered
by a response unless it is cancelled; `subscriptions/listen` answers with a
notification instead.  Where a legacy request names a session that is not live
the call fails with a `ProtocolError`, which is not a reply.
-/

namespace TurboMcp.Server

open TurboMcp.Core TurboMcp.Lib

variable {N : Type}

def methodNotFound (req : JsonRpcRequest) : JsonRpcMessage :=
  errorResponse req.id (.methodNotFound req.method)

def unsupportedVersion (d : VersionDispatcher N) (id : RequestId)
    (requested : Option String) : JsonRpcMessage :=
  .response ((ProtocolError.unsupportedVersion requested (d.supported.map (·.asStr))).intoResponse
    d.texts.debug id)

/-- Whether the request's client capabilities declare the extension. -/
def contextDeclaresExtension (ctx : RequestContext) (ext : String) : Bool :=
  match ((ctx.clientCapabilities.bind (·.get "extensions")).bind Value.asObject) with
  | some exts => Map.containsKey exts ext
  | none => false

def missingCapabilityResponse (id : RequestId) (ext : String) : JsonRpcMessage :=
  .response (.failure id
    { code := -32021
      message := "missing required client capability"
      data := some (.object [("requiredCapabilities",
        .object [("extensions", .object [(ext, .object [])])])]) })

/-- `legacy_context`: no session id is answered in-band, an unknown one is a
`ProtocolError`. -/
def legacyContext (req : JsonRpcRequest) :
    Dispatch N (Except ProtocolError (Except JsonRpcMessage RequestContext)) := do
  match sessionId req.params with
  | none =>
      pure (.ok (.error (.response (.failure req.id
        { code := -32002, message := "server not initialized: send `initialize` first",
          data := none }))))
  | some sid =>
      match ← Dispatch.sessionGet sid with
      | none => pure (.error (.unknownSession sid))
      | some state => pure (.ok (.ok (sessionContext state req.params)))

/-! ## Draft augmentation -/

/-- `build_call_runner`: the underlying call, with a task-mediated channel. -/
def buildCallRunner (d : VersionDispatcher N) (req : JsonRpcRequest)
    (ctx : RequestContext) : Except McpError CapabilityCall :=
  (parseCallToolParams d.texts req.params).map fun params =>
    { capability := .callTool, ctx, client := some ⟨.taskMediated, ctx.clientCapabilities⟩,
      progress := none, log := none, params }

/-- `try_augment_call`: the first declared extension that takes the call over
answers for it. -/
def tryAugmentCall (d : VersionDispatcher N) (req : JsonRpcRequest)
    (ctx : RequestContext) : List Extension → Dispatch N (Option JsonRpcMessage)
  | [] => pure none
  | ext :: extensions => do
      if ext.augmentsCalls && contextDeclaresExtension ctx ext.id then
        match buildCallRunner d req ctx with
        | .error e => pure (some (errorResponse req.id e))
        | .ok run =>
            match ← Dispatch.augmentCall ext.id
                { request := req, context := ctx, connectionId := connectionId req.params,
                  run } with
            | some resp => pure (some resp)
            | none => tryAugmentCall d req ctx extensions
      else tryAugmentCall d req ctx extensions

/-! ## Core tasks -/

def tasksPageSize : Nat := 50

def hasTaskField (params : Option Value) : Bool := (params.bind (·.get "task")).isSome

def taskErrorResponse (id : RequestId) (e : TaskError) : JsonRpcMessage :=
  let (code, message) := match e with
    | .notFound => (-32602, "unknown task id (expired, evicted, or never created)")
    | .alreadyTerminal => (-32602, "task is already in a terminal status")
    | .capacityExhausted => (-32603, "task capacity exhausted; retry later")
  .response (.failure id { code, message, data := none })

def CoreTaskStatus.toValue : CoreTaskStatus → Value
  | working => .string "working"
  | completed => .string "completed"
  | failed => .string "failed"
  | cancelled => .string "cancelled"

/-- `to_wire_task`. -/
def wireTask (s : TaskSnapshot) (pollIntervalMs : Int) : Value :=
  .object ([("createdAt", .string s.createdAt), ("lastUpdatedAt", .string s.lastUpdatedAt),
      ("pollInterval", .int pollIntervalMs), ("status", s.status.toValue)] ++
    optionalString "statusMessage" s.statusMessage ++
    [("taskId", .string s.taskId), ("ttl", .int s.ttlMs)])

/-- `RawTaskMetadata`. -/
def taskTtl (params : Option Value) : Option (Option Int) :=
  (params.bind (·.get "task")).bind fun t => do
    let m ← structFields ["ttl"] t
    optionField m "ttl" Value.asI64

/-- `task_augmented_call`: register a task, start the handler under it, and
answer with the task at once. -/
def taskAugmentedCall (d : VersionDispatcher N) (pollIntervalMs : Int)
    (ctx : RequestContext) (req : JsonRpcRequest) : Dispatch N JsonRpcMessage := do
  match taskTtl req.params with
  | none =>
      pure (errorResponse req.id (.invalidParams "invalid tools/call `task` augmentation"))
  | some ttl =>
      match parseCallToolParams d.texts req.params with
      | .error e => pure (errorResponse req.id e)
      | .ok params =>
          if d.router.tools then
            match ← Dispatch.taskCreate ((sessionId req.params).getD "") ttl with
            | .error e => pure (taskErrorResponse req.id e)
            | .ok snap =>
                Dispatch.tell (.taskSpawn snap.taskId
                  { capability := .callTool, ctx, client := none, progress := none,
                    log := none, params })
                pure (okValue req.id (.object [("task", wireTask snap pollIntervalMs)]))
          else pure (errorResponse req.id (.methodNotFound methods.toolsCall))

/-- `legacy_list_tools_with_task_support`. -/
def legacyListToolsWithTaskSupport (d : VersionDispatcher N) (req : JsonRpcRequest)
    (ctx : RequestContext) : Dispatch N JsonRpcMessage := do
  let outcome ← callHandler d.router
    { capability := .listTools, ctx, client := none, progress := none, log := none,
      params := parseListParams req.params }
  match outcome with
  | none => pure (errorResponse req.id (.methodNotFound methods.toolsList))
  | some outcome =>
      match outcome.result with
      | .ok result => pure (okValue req.id (d.wire.listToolsWithTaskSupport result))
      | .error e => pure (errorResponse req.id e)

def parseTaskId (texts : Texts) (params : Option Value) : Except McpError String :=
  match params with
  | none => .error (.invalidParams "missing `taskId`")
  | some v =>
      match (structFields ["taskId"] v).bind (stringField · "taskId") with
      | some tid => .ok tid
      | none =>
          .error (.invalidParams ("invalid task params: " ++ texts.serdeError "RawTaskIdParams" v))

/-- Answer with the task an operation on one task id returns. -/
def taskById (d : VersionDispatcher N) (pollIntervalMs : Int) (req : JsonRpcRequest)
    (op : String → Dispatch N (Except TaskError TaskSnapshot)) :
    Dispatch N JsonRpcMessage := do
  match parseTaskId d.texts req.params with
  | .error e => pure (errorResponse req.id e)
  | .ok tid =>
      match ← op tid with
      | .ok s => pure (okValue req.id (wireTask s pollIntervalMs))
      | .error e => pure (taskErrorResponse req.id e)

/-- `handle_tasks_method`. -/
def handleTasksMethod (d : VersionDispatcher N) (pollIntervalMs : Int) (sid : String)
    (req : JsonRpcRequest) : Dispatch N JsonRpcMessage := do
  if req.method = methods.tasksList then
    let cursor := (req.params.bind (·.get "cursor")).bind Value.asStr
    match ← Dispatch.taskList sid cursor tasksPageSize with
    | .ok (page, nextCursor) =>
        pure (okValue req.id (.object (optionalString "nextCursor" nextCursor ++
          [("tasks", .array (page.map (wireTask · pollIntervalMs)))])))
    | .error e => pure (taskErrorResponse req.id e)
  else if req.method = methods.tasksGet then
    taskById d pollIntervalMs req (Dispatch.taskGet sid)
  else if req.method = methods.tasksCancel then
    taskById d pollIntervalMs req (Dispatch.taskCancel sid)
  else
    -- `tasks/result` blocks until the task is terminal
    match parseTaskId d.texts req.params with
    | .error e => pure (errorResponse req.id e)
    | .ok tid =>
        match ← Dispatch.taskWaitResult sid tid with
        | .ok (.ok value) => pure (okValue req.id value)
        | .ok (.error err) => pure (.response (.failure req.id err))
        | .error e => pure (taskErrorResponse req.id e)

/-! ## Requests -/

/-- Only a `tools/call` is offered to the extensions. -/
def offerAugmentation (d : VersionDispatcher N) (capability : Capability)
    (req : JsonRpcRequest) (ctx : RequestContext) : Dispatch N (Option JsonRpcMessage) :=
  if capability = .callTool then tryAugmentCall d req ctx d.extensions else pure none

/-- The capability arm on the modern path. -/
def handleModern (d : VersionDispatcher N) (capability : Capability)
    (req : JsonRpcRequest) : Dispatch N JsonRpcMessage := do
  match extractLogLevel d.texts req.params with
  | .error e => pure (errorResponse req.id e)
  | .ok level =>
      let ctx := { buildContext req with logLevel := level }
      match ← offerAugmentation d capability req ctx with
      | some resp => pure resp
      | none => dispatchCapability d .draft capability req ctx req.id

/-- Note the session's connection for later notifications. -/
def touchSession (req : JsonRpcRequest) : Dispatch N Unit :=
  match sessionId req.params with
  | none => pure ()
  | some sid => Dispatch.tell (.legacyTouch sid (connectionId req.params))

/-- A legacy capability call, with or without core tasks. -/
def legacyCall (d : VersionDispatcher N) (capability : Capability)
    (req : JsonRpcRequest) (ctx : RequestContext) : Dispatch N JsonRpcMessage :=
  match d.tasks with
  | none => dispatchCapability d .legacy capability req ctx req.id
  | some poll =>
      if capability = .callTool ∧ hasTaskField req.params = true then
        taskAugmentedCall d poll ctx req
      else if capability = .listTools then legacyListToolsWithTaskSupport d req ctx
      else dispatchCapability d .legacy capability req ctx req.id

/-- The capability arm on the legacy path, once the session is known. -/
def handleLegacy (d : VersionDispatcher N) (capability : Capability)
    (req : JsonRpcRequest) (ctx : RequestContext) : Dispatch N JsonRpcMessage := do
  touchSession req
  legacyCall d capability req ctx

/-- Answer on the legacy path under a live session, and refuse elsewhere. -/
def withSession (d : VersionDispatcher N) (req : JsonRpcRequest)
    (modern : Dispatch N JsonRpcMessage)
    (legacy : RequestContext → Dispatch N JsonRpcMessage) :
    Dispatch N (Except ProtocolError JsonRpcMessage) := do
  match classifyVersion req.params d.supported with
  | .modern => .ok <$> modern
  | .unsupported requested => pure (.ok (unsupportedVersion d req.id requested))
  | .legacy =>
      match ← legacyContext req with
      | .error e => pure (.error e)
      | .ok (.error response) => pure (.ok response)
      | .ok (.ok ctx) => .ok <$> legacy ctx

/-- `resources/subscribe` and `resources/unsubscribe`. -/
def handleResourceSubscription (d : VersionDispatcher N) (req : JsonRpcRequest) :
    Dispatch N JsonRpcMessage := do
  if d.router.resources then
    match parseUriParam d.texts req.params req.method with
    | .error e => pure (errorResponse req.id e)
    | .ok uri =>
        let sid := (sessionId req.params).getD ""
        if req.method = methods.resourcesSubscribe then
          Dispatch.tell (.legacySubscribe sid (connectionId req.params) uri)
        else Dispatch.tell (.legacyUnsubscribe sid uri)
        pure (okValue req.id (.object []))
  else pure (methodNotFound req)

/-- `logging/setLevel`. -/
def handleSetLevel (d : VersionDispatcher N) (req : JsonRpcRequest) :
    Dispatch N JsonRpcMessage := do
  if d.router.logging then
    match parseSetLevelParams d.texts req.params with
    | .error e => pure (errorResponse req.id e)
    | .ok level =>
        Dispatch.tell (.sessionSetLogLevel ((sessionId req.params).getD "") level)
        pure (okValue req.id (.object []))
  else pure (methodNotFound req)

/-- Drop the delivery routes of reclaimed sessions. -/
def removeRoutes : List String → Dispatch N Unit
  | [] => pure ()
  | sid :: sids => do
      Dispatch.tell (.legacyRemove sid)
      removeRoutes sids

/-- The `initialize` arm: reclaim idle sessions, shake hands, and give a new
session its delivery route. -/
def handleInitializeRequest (d : VersionDispatcher N) (req : JsonRpcRequest) :
    Dispatch N JsonRpcMessage := do
  let swept ← Dispatch.sweepExpired
  removeRoutes swept
  let reply ← handleInitialize d (d.tasks.isSome && d.router.tools) req
  match reply with
  | .response resp =>
      if resp.error.isNone then do
        touchSession req
        pure reply
      else pure reply
  | _ => pure reply

/-- The extension that owns the request's method on the modern path. -/
def extensionFor (d : VersionDispatcher N) (req : JsonRpcRequest) : Option Extension :=
  match d.extensions.find? (·.methods.contains req.method) with
  | some ext =>
      if classifyVersion req.params d.supported = .modern then some ext else none
  | none => none

def handleExtension (ext : Extension) (req : JsonRpcRequest) :
    Dispatch N JsonRpcMessage := do
  let ctx := buildContext req
  if contextDeclaresExtension ctx ext.id then
    Dispatch.extensionDispatch ext.id
      { request := req, context := ctx, connectionId := connectionId req.params }
  else pure (methodNotFound req)

def tasksMethods : List String :=
  [methods.tasksList, methods.tasksGet, methods.tasksCancel, methods.tasksResult]

/-- `handle_request`. -/
def handleRequest (d : VersionDispatcher N) (req : JsonRpcRequest) :
    Dispatch N (Except ProtocolError JsonRpcMessage) := do
  match extensionFor d req with
  | some ext => .ok <$> handleExtension ext req
  | none =>
      if req.method = methods.discover then pure (.ok (discoverResponse d req.id))
      else if req.method = methods.ping then pure (.ok (okValue req.id (.object [])))
      else if req.method = methods.initializeRequest then
        .ok <$> handleInitializeRequest d req
      else
        match Capability.ofMethod req.method with
        | some capability =>
            withSession d req (handleModern d capability req) (handleLegacy d capability req)
        | none =>
            if req.method = methods.resourcesSubscribe ∨
                req.method = methods.resourcesUnsubscribe then
              withSession d req (pure (methodNotFound req))
                fun _ => handleResourceSubscription d req
            else if req.method = methods.loggingSetLevel then
              withSession d req (pure (methodNotFound req)) fun _ => handleSetLevel d req
            else if req.method ∈ tasksMethods then
              withSession d req (pure (methodNotFound req)) fun _ =>
                match d.tasks with
                | none => pure (methodNotFound req)
                | some poll =>
                    handleTasksMethod d poll ((sessionId req.params).getD "") req
            else pure (.ok (methodNotFound req))

/-! ## `subscriptions/listen` -/

/-- Keep what the server can emit. -/
def agreedFilter (router : MethodRouter) (wanted : SubscriptionFilter) :
    SubscriptionFilter :=
  let honored (b : Bool) (want : Option Bool) : Option Bool :=
    if want = some true ∧ b = true then some true else none
  { toolsListChanged := honored router.tools wanted.toolsListChanged
    resourcesListChanged := honored router.resources wanted.resourcesListChanged
    promptsListChanged := honored router.prompts wanted.promptsListChanged
    resourceSubscriptions := if router.resources then wanted.resourceSubscriptions else [] }

def SubscriptionFilter.toValue (f : SubscriptionFilter) : Map :=
  let flag (key : String) (b : Option Bool) : Map :=
    (b.map fun b => (key, Value.bool b)).toList
  flag "promptsListChanged" f.promptsListChanged ++
    (if f.resourceSubscriptions.isEmpty then []
      else [("resourceSubscriptions", .array (f.resourceSubscriptions.map .string))]) ++
    flag "resourcesListChanged" f.resourcesListChanged ++
    flag "toolsListChanged" f.toolsListChanged

/-- The listen request's id, verbatim. -/
def subscriptionIdValue : RequestId → Value
  | .number n => .int n
  | .string s => .string s

/-- Offer the raw filter to each extension and merge what they accept into the
acknowledgement; the id of one the client did not declare is an error. -/
def offerSubscription (conn : String) (id : RequestId) (raw : Value)
    (ctx : RequestContext) : List Extension → Map → Dispatch N (Except String Map)
  | [], ack => pure (.ok ack)
  | ext :: extensions, ack => do
      match ← Dispatch.onSubscribe ext.id conn id raw (contextDeclaresExtension ctx ext.id) with
      | .notApplicable => offerSubscription conn id raw ctx extensions ack
      | .missingCapability => pure (.error ext.id)
      | .subscribed contribution =>
          let extra := contribution.asObject.getD Map.empty
          offerSubscription conn id raw ctx extensions
            (extra.foldl (fun m e => Map.insert m e.1 e.2) ack)

/-- Open the stream once the filter is accepted. -/
def acknowledge (conn : String) (req : JsonRpcRequest) (agreed : SubscriptionFilter)
    (ack : Map) : Dispatch N Unit := do
  let sent ← Dispatch.send conn (.notification
    { method := methods.subscriptionsAcknowledged
      params := some (.object
        [("_meta", .object [(Meta.keys.subscriptionId, subscriptionIdValue req.id)]),
          ("notifications", .object ack)]) })
  if sent then
    Dispatch.tell (.subscriptionInsert conn req.id agreed)
    if ← Dispatch.isCancelled (connectionId req.params) req.id then
      Dispatch.tell (.subscriptionRemove conn req.id)

/-- Whether the frame's connection can stream: it has one, with a writer. -/
def listenWriter (req : JsonRpcRequest) : Dispatch N Bool :=
  match connectionId req.params with
  | none => pure false
  | some conn => Dispatch.writer conn

/-- `handle_subscriptions_listen`: only failures are answered. -/
def handleSubscriptionsListen (d : VersionDispatcher N) (req : JsonRpcRequest) :
    Dispatch N (Option JsonRpcMessage) := do
  match classifyVersion req.params d.supported with
  | .legacy => pure (some (errorResponse req.id (.methodNotFound methods.subscriptionsListen)))
  | .unsupported requested => pure (some (unsupportedVersion d req.id requested))
  | .modern =>
      let conn := (connectionId req.params).getD ""
      if ← listenWriter req then
        match req.params.bind d.wire.decodeListen with
        | none =>
            pure (some (errorResponse req.id (.invalidParams
              "subscriptions/listen requires a `notifications` filter")))
        | some wanted =>
            let agreed := agreedFilter d.router wanted
            let raw := (req.params.bind (·.get "notifications")).getD .null
            match ← offerSubscription conn req.id raw (buildContext req) d.extensions
                agreed.toValue with
            | .error ext => pure (some (missingCapabilityResponse req.id ext))
            | .ok ack =>
                acknowledge conn req agreed ack
                pure none
      else
        pure (some (.response (.failure req.id
          { code := -32600
            message :=
              "subscriptions/listen requires a connection that can stream notifications"
            data := none })))

/-! ## Frames -/

/-- The `select!` against the request's token: it may fire before any effect,
and then the rest is dropped. -/
def untilCancelled (connection : Option String) (id : RequestId) {α : Type} :
    Dispatch N α → Dispatch N (Option α)
  | .ret a => .ret (some a)
  | .call e k => do
      if ← Dispatch.isCancelled connection id then pure none
      else .call e fun r => untilCancelled connection id (k r)

/-- Run `body` while the request is registered as in flight; frames without a
connection are not tracked. -/
def whileInFlight (req : JsonRpcRequest) {α : Type} (body : Dispatch N α) :
    Dispatch N α := do
  match connectionId req.params with
  | none => body
  | some conn =>
      Dispatch.tell (.inflightRegister conn req.id)
      let out ← body
      Dispatch.tell (.inflightRelease conn req.id)
      pure out

/-- `RawCancelledParams`; a malformed `reason` spoils the frame. -/
def cancelledId (params : Option Value) : Option RequestId := do
  let m ← params.bind (structFields ["requestId", "reason"])
  let id ← match m.get "requestId" with
    | some (.int n) => if -(2 ^ 63) ≤ n ∧ n < 2 ^ 63 then some (RequestId.number n) else none
    | some (.string s) => some (RequestId.string s)
    | _ => none
  let _ ← optionField m "reason" Value.asStr
  pure id

/-- `handle_notification`. -/
def handleNotification (n : JsonRpcNotification) : Dispatch N Unit := do
  if n.method = methods.cancelled then
    match connectionId n.params, cancelledId n.params with
    | some conn, some id =>
        Dispatch.tell (.inflightCancel conn id)
        Dispatch.tell (.subscriptionRemove conn id)
    | _, _ => pure ()

/-- The reply to one request. -/
def handleTracked (d : VersionDispatcher N) (req : JsonRpcRequest) :
    Dispatch N (Except ProtocolError (Option JsonRpcMessage)) := do
  if req.method = methods.subscriptionsListen then .ok <$> handleSubscriptionsListen d req
  else
    let stamp := d.serverInfoMeta ∧ classifyVersion req.params d.supported = .modern
    match ← untilCancelled (connectionId req.params) req.id (handleRequest d req) with
    | none => pure (.ok none)
    | some (.error e) => pure (.error e)
    | some (.ok reply) =>
        pure (.ok (some (if stamp then stampServerInfo reply d.serverInfo else reply)))

/-- `handle`: one frame in, at most one reply out. -/
def handle (d : VersionDispatcher N) (msg : JsonRpcMessage) :
    Dispatch N (Except ProtocolError (Option JsonRpcMessage)) := do
  if msg.hasValidVersion then
    match msg with
    | .request req => whileInFlight req (handleTracked d req)
    | .notification n => do
        handleNotification n
        pure (.ok none)
    | .response resp => do
        Dispatch.tell (.pendingComplete resp)
        pure (.ok none)
  else
    match msg with
    | .request req =>
        pure (.ok (some (.response (.failure req.id
          { code := -32600, message := "invalid jsonrpc version (expected \"2.0\")",
            data := none }))))
    | _ => pure (.ok none)

end TurboMcp.Server
