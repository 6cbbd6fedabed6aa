import TurboMcp.Lib.Protocol
import TurboMcp.Server.Replies

/-!
# What a request touches

Most of what a request asks of its surroundings concerns neither the session
store, nor the delivery routes, nor the listen streams: those effects are
`Plain`.  What is left is little: the session gate looks the session up and the
arm behind it may touch the session's route, and `initialize` sweeps, tears
down, mints and touches.
-/

namespace TurboMcp.Server

open TurboMcp.Core TurboMcp.Lib

variable {N : Type} {d : VersionDispatcher N} {req : JsonRpcRequest}

/-- Effects on no session's life, no route's existence and no listen stream. -/
def Effect.Plain : Effect → Prop
  | .sessionSetLogLevel _ _ | .legacyUnsubscribe _ _ | .pendingComplete _ | .stateVerify _ _ _
  | .stateSign _ _ _ | .capability _ | .extensionDispatch _ _ | .augmentCall _ _
  | .taskCreate _ _ | .taskSpawn _ _ | .taskList _ _ _ | .taskGet _ _ | .taskCancel _ _
  | .taskWaitResult _ _ => True
  | _ => False

/-- Whatever the surroundings answer, `p` performs plain effects only. -/
abbrev PlainOnly {α : Type} (p : Dispatch N α) : Prop :=
  Program.wp Effect.Plain (fun _ _ => True) p fun _ => True

/-! ## The plain arms -/

theorem PlainOnly.seq {α β : Type} {p : Dispatch N α} {f : α → Dispatch N β}
    (hp : PlainOnly p) (hf : ∀ a, PlainOnly (f a)) : PlainOnly (p >>= f) :=
  Program.wp_seq hp fun a _ => hf a

theorem plainOnly_callHandler (call : CapabilityCall) :
    PlainOnly (callHandler (N := N) d.router call) := by
  unfold callHandler
  split
  · exact ⟨trivial, fun _ _ => trivial⟩
  · trivial

theorem plainOnly_finishMrtr (family : WireFamily) (c : Capability) (id : RequestId)
    (subject : Option String) (out : Option (HandlerOutcome N)) :
    PlainOnly (finishMrtr d family c id subject out) := by
  unfold finishMrtr
  rcases out with _ | ⟨result, collected, stateOut⟩
  · trivial
  · cases result with
    | ok result => trivial
    | error e =>
        simp only
        split
        · split
          · trivial
          · cases stateOut with
            | none => trivial
            | some data =>
                refine ⟨trivial, fun signed _ => ?_⟩
                cases signed <;> trivial
        · trivial

theorem plainOnly_mrtrHandle (strictKeys : Bool) (family : WireFamily) (ctx : RequestContext) :
    PlainOnly (mrtrHandle (N := N) strictKeys family req ctx) := by
  unfold mrtrHandle
  split
  · split <;> trivial
  · simp only
    split
    · trivial
    · refine ⟨trivial, fun verified _ => ?_⟩
      cases verified <;> trivial

theorem plainOnly_dispatchCapability (family : WireFamily) (c : Capability)
    (ctx : RequestContext) : PlainOnly (dispatchCapability d family c req ctx req.id) := by
  unfold dispatchCapability
  split
  · trivial
  · split
    · refine (plainOnly_mrtrHandle _ _ _).seq fun handle => ?_
      cases handle with
      | error e => trivial
      | ok handle =>
          exact (plainOnly_callHandler _).seq fun out => plainOnly_finishMrtr _ _ _ _ out
    · exact (plainOnly_callHandler _).seq fun _ => trivial

theorem plainOnly_tryAugmentCall (ctx : RequestContext) (extensions : List Extension) :
    PlainOnly (tryAugmentCall d req ctx extensions) := by
  induction extensions with
  | nil => trivial
  | cons ext extensions ih =>
      unfold tryAugmentCall
      split
      · split
        · trivial
        · refine ⟨trivial, fun reply _ => ?_⟩
          cases reply with
          | some resp => trivial
          | none => exact ih
      · exact ih

theorem plainOnly_handleModern (c : Capability) : PlainOnly (handleModern d c req) := by
  unfold handleModern
  split
  · trivial
  · refine PlainOnly.seq ?_ fun reply => ?_
    · unfold offerAugmentation
      split
      · exact plainOnly_tryAugmentCall _ _
      · trivial
    · cases reply with
      | some resp => trivial
      | none => exact plainOnly_dispatchCapability _ _ _

theorem plainOnly_taskById (poll : Int)
    {op : String → Dispatch N (Except TaskError TaskSnapshot)} (hop : ∀ tid, PlainOnly (op tid)) :
    PlainOnly (taskById d poll req op) := by
  unfold taskById
  split
  · trivial
  · refine (hop _).seq fun out => ?_
    cases out <;> trivial

theorem plainOnly_handleTasksMethod (poll : Int) (sid : String) :
    PlainOnly (handleTasksMethod d poll sid req) := by
  unfold handleTasksMethod
  split
  · refine ⟨trivial, fun page _ => ?_⟩
    rcases page with e | ⟨page, next⟩ <;> trivial
  · split
    · exact plainOnly_taskById _ fun _ => ⟨trivial, fun _ _ => trivial⟩
    · split
      · exact plainOnly_taskById _ fun _ => ⟨trivial, fun _ _ => trivial⟩
      · split
        · trivial
        · refine ⟨trivial, fun result _ => ?_⟩
          rcases result with e | e | v <;> trivial

theorem plainOnly_legacyCall (c : Capability) (ctx : RequestContext) :
    PlainOnly (legacyCall d c req ctx) := by
  unfold legacyCall
  split
  · exact plainOnly_dispatchCapability _ _ _
  · split
    · unfold taskAugmentedCall
      split
      · trivial
      · split
        · trivial
        · split
          · refine ⟨trivial, fun snap _ => ?_⟩
            cases snap with
            | error e => trivial
            | ok snap => exact ⟨trivial, fun _ _ => trivial⟩
          · trivial
    · split
      · unfold legacyListToolsWithTaskSupport
        refine (plainOnly_callHandler _).seq fun out => ?_
        rcases out with _ | ⟨result, collected, stateOut⟩
        · trivial
        · cases result <;> trivial
      · exact plainOnly_dispatchCapability _ _ _

theorem plainOnly_handleSetLevel : PlainOnly (handleSetLevel d req) := by
  unfold handleSetLevel
  split
  · split
    · trivial
    · exact ⟨trivial, fun _ _ => trivial⟩
  · trivial

theorem plainOnly_handleExtension (ext : Extension) : PlainOnly (handleExtension (N := N) ext req) := by
  unfold handleExtension
  simp only
  split
  · exact ⟨trivial, fun _ _ => trivial⟩
  · trivial

/-! ## The shape of a request -/

/-- **The arms of a request**: a request is answered outside any session, shakes
hands, or passes the session gate to an arm that is plain, touches the session's
route, or subscribes to a resource. -/
theorem handleRequest_arms
    {Φ : Dispatch N (Except ProtocolError JsonRpcMessage) → Prop}
    (hplain : ∀ p : Dispatch N JsonRpcMessage, PlainOnly p → Φ (.ok <$> p))
    (hinit : Φ (.ok <$> handleInitializeRequest d req))
    (hsession : ∀ modern legacy, PlainOnly modern → (∀ ctx, PlainOnly (legacy ctx)) →
      Φ (withSession d req modern legacy))
    (htouch : ∀ c, Φ (withSession d req (handleModern d c req) (handleLegacy d c req)))
    (hsubscribe : Φ (withSession d req (pure (methodNotFound req))
      fun _ => handleResourceSubscription d req)) :
    Φ (handleRequest d req) := by
  unfold handleRequest
  split
  · exact hplain _ (plainOnly_handleExtension _)
  · split
    · exact hplain (pure _) trivial
    · split
      · exact hplain (pure _) trivial
      · split
        · exact hinit
        · split
          · exact htouch _
          · split
            · exact hsubscribe
            · split
              · exact hsession _ _ trivial fun _ => plainOnly_handleSetLevel
              · split
                · refine hsession _ _ trivial fun _ => ?_
                  split
                  · trivial
                  · exact plainOnly_handleTasksMethod _ _
                · exact hplain (pure _) trivial

end TurboMcp.Server
