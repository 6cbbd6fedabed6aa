import TurboMcp.Server.Replies

/-!
# The session adapter

On a byte pipe the connection is the session.  The adapter mints a session id
for `initialize`, keeps it once the handshake succeeds, and from then on stamps
it, with the negotiated version, into every frame that declares no version of
its own.
-/

namespace TurboMcp.Server

open TurboMcp.Core TurboMcp.Lib

variable {N : Type}

namespace LegacySessionAdapter

def isInitialize : JsonRpcMessage → Bool
  | .request r => r.method = methods.initializeRequest
  | _ => false

/-- Attach a freshly minted session. -/
def attachSession (candidate : String) (msg : JsonRpcMessage) : JsonRpcMessage :=
  Meta.setRequestMeta msg Meta.internal.sessionId (.string candidate)

/-- Under a live session, stamp a version-less frame with the legacy version and
the session. -/
def stampSession (session : Option String) (msg : JsonRpcMessage) : JsonRpcMessage :=
  match session with
  | none => msg
  | some sid =>
      if (Meta.requestProtocolVersion msg.params).isNone then
        Meta.setRequestMeta
          (Meta.setRequestMeta msg Meta.keys.protocolVersion
            (.string ProtocolVersion.v2025_11_25.asStr))
          Meta.internal.sessionId (.string sid)
      else msg

/-- Mark the connection legacy once its `initialize` was answered without an
error. -/
def commit (candidate : String) : Except ProtocolError (Option JsonRpcMessage) → Dispatch N Unit
  | .ok (some (.response resp)) =>
      if resp.error.isNone then Dispatch.tell (.commitSession candidate) else pure ()
  | _ => pure ()

/-- `LegacySessionAdapter::call`. -/
def call (inner : JsonRpcMessage → Dispatch N (Except ProtocolError (Option JsonRpcMessage)))
    (msg : JsonRpcMessage) : Dispatch N (Except ProtocolError (Option JsonRpcMessage)) := do
  if isInitialize msg then
    let candidate ← Dispatch.mintSession
    let out ← inner (attachSession candidate msg)
    commit candidate out
    pure out
  else
    let session ← Dispatch.adapterSession
    inner (stampSession session msg)

end LegacySessionAdapter

/-- The service under a driver: the dispatcher, bare or under the adapter. -/
inductive Stack
  | bare
  | adapted
  deriving DecidableEq

def Stack.call (stack : Stack) (d : VersionDispatcher N) (msg : JsonRpcMessage) :
    Dispatch N (Except ProtocolError (Option JsonRpcMessage)) :=
  match stack with
  | bare => handle d msg
  | adapted => LegacySessionAdapter.call (handle d) msg

/-! ## Replies through the adapter -/

namespace LegacySessionAdapter

/-- The adapter rewrites parameters and nothing else. -/
theorem stampSession_request (session : Option String) (req : JsonRpcRequest) :
    ∃ params, stampSession session (.request req) = .request { req with params } := by
  unfold stampSession
  split
  · exact ⟨req.params, rfl⟩
  · split
    · exact ⟨_, rfl⟩
    · exact ⟨req.params, rfl⟩

theorem stampSession_ne_request {session : Option String} {msg : JsonRpcMessage}
    (h : ∀ req, msg ≠ .request req) (req : JsonRpcRequest) :
    stampSession session msg ≠ .request req := by
  unfold stampSession
  split
  · exact h req
  · cases msg with
    | request r => exact absurd rfl (h r)
    | notification n => split <;> exact JsonRpcMessage.noConfusion
    | response r => split <;> exact JsonRpcMessage.noConfusion

theorem wp_commit {C : Effect → Prop} {A : (e : Effect) → Answer N e → Prop}
    (candidate : String) (out : Except ProtocolError (Option JsonRpcMessage))
    (hC : C (.commitSession candidate)) :
    Program.wp C A (commit (N := N) candidate out) fun _ => True := by
  unfold commit
  split
  · split
    · exact ⟨hC, fun _ _ => trivial⟩
    · trivial
  · trivial

end LegacySessionAdapter

variable {d : VersionDispatcher N}

/-- **The service answers**: `returns_handle`, whatever the adapter stamps. -/
theorem returns_call (stack : Stack) (req : JsonRpcRequest) :
    Returns req (stack.call d (.request req)) fun out =>
      ∃ reply, out = .ok (some reply) ∧ IsReply req.id reply := by
  have hinner : ∀ params, Returns req (handle d (.request { req with params })) fun out =>
      ∃ reply, out = .ok (some reply) ∧ IsReply req.id reply :=
    fun params => returns_handle { req with params }
  cases stack with
  | bare => exact hinner req.params
  | adapted =>
      unfold Stack.call LegacySessionAdapter.call
      simp only
      split
      · refine (Program.wp_bind _ _).mpr ⟨trivial, fun candidate _ => ?_⟩
        refine Program.wp_seq (hinner _) fun out hout => ?_
        refine Program.wp_seq (LegacySessionAdapter.wp_commit candidate out trivial) fun _ _ => ?_
        exact hout
      · have hsession : Returns req (Dispatch.adapterSession (N := N)) fun _ => True :=
          ⟨trivial, fun _ _ => trivial⟩
        refine Program.wp_seq hsession fun session _ => ?_
        obtain ⟨params, hparams⟩ := LegacySessionAdapter.stampSession_request session req
        rw [hparams]
        exact hinner params

theorem call_silent {C : Effect → Prop} {A : (e : Effect) → Answer N e → Prop}
    (stack : Stack) {msg : JsonRpcMessage} (hmsg : ∀ req, msg ≠ .request req)
    (hC : ∀ e, C e) : Program.wp C A (stack.call d msg) fun out => out = .ok none := by
  cases stack with
  | bare => exact handle_silent hmsg hC
  | adapted =>
      have hinit : LegacySessionAdapter.isInitialize msg = false := by
        cases msg with
        | request r => exact absurd rfl (hmsg r)
        | notification n => rfl
        | response r => rfl
      unfold Stack.call LegacySessionAdapter.call
      simp only [hinit, Bool.false_eq_true, if_false]
      exact ⟨hC _, fun session _ =>
        handle_silent (LegacySessionAdapter.stampSession_ne_request hmsg) hC⟩

end TurboMcp.Server
