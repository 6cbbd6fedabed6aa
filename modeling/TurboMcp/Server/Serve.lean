import TurboMcp.Server.Dispatcher

/-!
# Serving a frame

`serve` is `handle` for what it does to its surroundings: the reply is left to
the driver.  A request's future is raced against its cancellation token, which
can win only where the future is not running: before it starts, and wherever it
is suspended.
-/

namespace TurboMcp.Server

open TurboMcp.Core TurboMcp.Lib

variable {N : Type}

/-- Whether performing the effect can suspend the task: the bundled stores
answer at once, handlers and extensions may not. -/
def suspends : Effect → Bool
  | .capability _ | .extensionDispatch _ _ | .augmentCall _ _ | .taskWaitResult _ _
  | .send _ _ => true
  | _ => false

/-- The `select!` against the request's token: it can win before the request
starts and wherever the request is suspended. -/
def untilDropped (connection : Option String) (id : RequestId) {α : Type} :
    Dispatch N α → Dispatch N (Option α)
  | .ret a => .ret (some a)
  | .call e k =>
      if suspends e then
        .call e fun r => do
          let cancelled ← Dispatch.isCancelled connection id
          if cancelled then pure none else untilDropped connection id (k r)
      else .call e fun r => untilDropped connection id (k r)

/-- A request's program, for what it does. -/
def serveRequest (d : VersionDispatcher N) (req : JsonRpcRequest) : Dispatch N Unit := do
  let cancelled ← Dispatch.isCancelled (connectionId req.params) req.id
  if cancelled then pure ()
  else do
    let _ ← untilDropped (connectionId req.params) req.id (handleRequest d req)
    pure ()

/-- `subscriptions/listen`: not raced against its token. -/
def serveListen (d : VersionDispatcher N) (req : JsonRpcRequest) : Dispatch N Unit := do
  let _ ← handleSubscriptionsListen d req
  pure ()

/-- `handle`, for what it does. -/
def serve (d : VersionDispatcher N) (msg : JsonRpcMessage) : Dispatch N Unit :=
  if msg.hasValidVersion then
    match msg with
    | .request req =>
        whileInFlight req
          (if req.method = methods.subscriptionsListen then serveListen d req
            else serveRequest d req)
    | .notification n => handleNotification n
    | .response resp => Dispatch.tell (.pendingComplete resp)
  else pure ()

end TurboMcp.Server
