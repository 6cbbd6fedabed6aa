import TurboMcp.Lib.Protocol
import TurboMcp.Server.Contexts
import TurboMcp.Server.Session
import TurboMcp.Server.TrustBoundary
import TurboMcp.System.Capabilities
import TurboMcp.System.Negotiation
import TurboMcp.Transport.Http

/-!
# Session ids that are handed out

The adapter and the HTTP endpoint mint an id for `initialize`, attach it to the
request's `_meta`, and keep it, or hand it to the client, once the answer is no
error.  The session is stored two layers below, under the id that is found in
`_meta`.  What carries the id from one to the other is the shape of `params`.
-/

namespace TurboMcp.System

open TurboMcp.Core TurboMcp.Lib TurboMcp.Server TurboMcp.Transport

variable {N : Type}

/-! ## The HTTP endpoint -/

/-- The `Mcp-Session-Id` of the response: on a successful `initialize` only. -/
def sessionHeader (minted : String) : Except ProtocolError (Option JsonRpcMessage) → Option String
  | .ok (some (.response resp)) => if resp.error.isNone then some minted else none
  | _ => none

/-- `mcp_post` on an `initialize`, for the session header it answers with. -/
def initializePost (d : VersionDispatcher N) (post : Http.Post) (msg : JsonRpcMessage) :
    Dispatch N (Option String) :=
  match post.accept msg with
  | none => pure none
  | some dispatched => do
      let out ← handle d dispatched
      pure (sessionHeader post.minted out)

/-! ## Running against a session store -/

/-- The session store, and the ids committed for the connection, latest first. -/
structure Backend where
  sessions : SessionStore
  committed : List String

namespace Backend

/-- What the backend answers; everything else may answer anything. A minted id
is no live session's, and no session expires under the lookup. -/
def answers (B : Backend) (now : Nat) : (e : Effect) → Answer N e → Prop
  | .sessionGet sid, (r : Option SessionState) =>
      r = (B.sessions.get now sid).2 ∧ (B.sessions.contains sid = true → r.isSome = true)
  | .adapterSession, (r : Option String) => r = B.committed.head?
  | .sweepExpired, (r : List String) => r = (B.sessions.sweepExpired now).2
  | .mintSession, (r : String) => B.sessions.contains r = false
  | _, _ => True

def after (B : Backend) (now : Nat) (pick : String) : Effect → Backend
  | .sessionGet sid => { B with sessions := (B.sessions.get now sid).1 }
  | .sessionInsert sid state => { B with sessions := B.sessions.insert now pick sid state }
  | .sessionSetLogLevel sid level =>
      { B with sessions := (B.sessions.setLogLevel now sid level).1 }
  | .sweepExpired => { B with sessions := (B.sessions.sweepExpired now).1 }
  | .commitSession sid => { B with committed := sid :: B.committed }
  | _ => B

/-- Other tasks at work: no session is evicted, expires or is terminated. -/
def Goes (B B' : Backend) : Prop :=
  B'.committed = B.committed ∧
    ∀ sid, B.sessions.contains sid = true → B'.sessions.contains sid = true

/-- No session at all. -/
def fresh : Backend := ⟨SessionStore.withCapacity SessionStore.defaultCapacity, []⟩

end Backend

/-- A program runs to its end against the backend, with other tasks in between. -/
inductive Served {α : Type} : Backend → Dispatch N α → Backend → α → Prop
  | ret (B : Backend) (a : α) : Served B (.ret a) B a
  | call {B B' : Backend} {e : Effect} {k : Answer N e → Dispatch N α} {r : Answer N e} {a : α}
      (now : Nat) (pick : String) (hr : B.answers now e r)
      (h : Served (B.after now pick e) (k r) B' a) : Served B (.call e k) B' a
  | meanwhile {B B₁ B' : Backend} {p : Dispatch N α} {a : α} (hgoes : B.Goes B₁)
      (h : Served B₁ p B' a) : Served B p B' a

theorem Served.seq {α β : Type} {p : Dispatch N α} {f : α → Dispatch N β} {B B' B'' : Backend}
    {a : α} {b : β} (hp : Served B p B' a) (hf : Served B' (f a) B'' b) :
    Served B (p >>= f) B'' b := by
  induction hp with
  | ret => exact hf
  | call now pick hr _ ih => exact .call now pick hr (ih hf)
  | meanwhile hgoes _ ih => exact .meanwhile hgoes (ih hf)

theorem Served.of_ret {α : Type} {B B' : Backend} {a b : α}
    (h : Served B (.ret a : Dispatch N α) B' b) : b = a := by
  generalize hp : (.ret a : Dispatch N α) = p at h
  induction h with
  | ret => exact (Program.ret.inj hp).symm
  | call => cases hp
  | meanwhile _ _ ih => exact ih hp

/-- An effect on neither the store nor the connection's session. -/
theorem served_tell {B : Backend} {e : Effect} {r : Answer N e} (hr : B.answers 0 e r)
    (hafter : B.after 0 "" e = B) : Served B (Dispatch.tell (N := N) e) B () := by
  refine .call 0 "" hr ?_
  rw [hafter]
  exact .ret B ()

/-- A state is held under the id, and the next request under it finds the state. -/
def Backend.Knows (N : Type) (B : Backend) (sid : String) : Prop :=
  B.sessions.contains sid = true ∧
    ∀ next B' out, sessionId next.params = some sid →
      Served B (legacyContext (N := N) next) B' out → ∃ ctx, out = .ok (.ok ctx)

theorem served_legacyContext {B B' : Backend} {next : JsonRpcRequest} {sid : String}
    {out : Except ProtocolError (Except JsonRpcMessage RequestContext)}
    (hsid : sessionId next.params = some sid) (hlive : B.sessions.contains sid = true)
    (h : Served B (legacyContext (N := N) next) B' out) : ∃ ctx, out = .ok (.ok ctx) := by
  generalize hp : legacyContext (N := N) next = p at h
  induction h with
  | ret =>
      unfold legacyContext at hp
      simp only [hsid] at hp
      cases hp
  | call now pick hr h _ =>
      unfold legacyContext at hp
      simp only [hsid] at hp
      obtain ⟨rfl, hk⟩ := Program.call.inj hp
      cases eq_of_heq hk
      obtain ⟨state, hstate⟩ := Option.isSome_iff_exists.mp (hr.2 hlive)
      subst hstate
      exact ⟨_, h.of_ret⟩
  | meanwhile hgoes _ ih => exact ih (hgoes.2 sid hlive) hp

theorem Backend.knows_iff {B : Backend} {sid : String} :
    B.Knows N sid ↔ B.sessions.contains sid = true :=
  ⟨And.left, fun hlive => ⟨hlive, fun _ _ _ hsid h => served_legacyContext hsid hlive h⟩⟩

/-! ### What has been stored -/

/-- The ids known to be live, and those committed. -/
structure Handed where
  known : String → Prop
  committed : List String

/-- Only an id that is known to be live is committed, and none is put at risk
after. -/
def handoutProtocol (N : Type) : Protocol Effect (Answer N) Handed where
  allows := fun q e =>
    match e with
    | .commitSession sid => q.known sid
    | .sessionInsert _ _ | .sweepExpired | .sessionGet _ => q.committed = []
    | _ => True
  after := fun q e _ =>
    match e with
    | .sessionInsert sid _ => { q with known := (· = sid) }
    | .sweepExpired | .sessionGet _ => { q with known := fun _ => False }
    | .commitSession sid => { q with committed := sid :: q.committed }
    | _ => q

structure Tracks (q : Handed) (B : Backend) : Prop where
  known : ∀ sid, q.known sid → B.sessions.contains sid = true
  committed : B.committed = q.committed
  held : ∀ sid ∈ q.committed, q.known sid

theorem Tracks.goes {q : Handed} {B B' : Backend} (h : Tracks q B) (hgoes : B.Goes B') :
    Tracks q B' :=
  ⟨fun sid hsid => hgoes.2 sid (h.known sid hsid), hgoes.1.trans h.committed, h.held⟩

theorem Tracks.after {q : Handed} {B : Backend} (h : Tracks q B) (now : Nat) (pick : String)
    {e : Effect} (he : (handoutProtocol N).allows q e) (r : Answer N e) :
    Tracks ((handoutProtocol N).after q e r) (B.after now pick e) := by
  obtain ⟨hknown, hcommitted, hheld⟩ := h
  have hnone {known : String → Prop} (hq : q.committed = []) : ∀ sid ∈ q.committed, known sid := by
    rw [hq]
    exact nofun
  cases e
  case sessionGet | sweepExpired =>
    exact ⟨fun _ hsid => absurd hsid id, hcommitted, hnone he⟩
  case sessionInsert sid state =>
    refine ⟨fun sid' hsid' => ?_, hcommitted, hnone he⟩
    exact (SessionStore.contains_insert ..).mpr (Or.inl hsid')
  case sessionSetLogLevel sid level =>
    refine ⟨fun sid' hsid' => ?_, hcommitted, hheld⟩
    show (B.sessions.setLogLevel now sid level).1.contains sid' = true
    rw [SessionStore.contains_setLogLevel]
    exact hknown sid' hsid'
  case commitSession sid =>
    exact ⟨hknown, congrArg (sid :: ·) hcommitted, List.forall_mem_cons.mpr ⟨he, hheld⟩⟩
  all_goals exact ⟨hknown, hcommitted, hheld⟩

/-- **Knowledge holds of the backend** at the end of every run. -/
theorem Served.tracks {α : Type} {p : Dispatch N α} {B B' : Backend} {a : α}
    (h : Served B p B' a) {q : Handed} {Q : Handed → α → Prop}
    (hp : Program.Follows (handoutProtocol N) q p Q) (hq : Tracks q B) :
    ∃ q', Q q' a ∧ Tracks q' B' := by
  induction h generalizing q with
  | ret B a => exact ⟨q, hp, hq⟩
  | call now pick hr _ ih => exact ih (hp.2 _) (hq.after now pick hp.1 _)
  | meanwhile hgoes _ ih => exact ih hp (hq.goes hgoes)

/-! ## From the request to the answer -/

/-- The answer that lets an id be handed out. -/
def Succeeds (out : Except ProtocolError (Option JsonRpcMessage)) : Prop :=
  ∃ resp, out = .ok (some (.response resp)) ∧ resp.error.isNone = true

variable {d : VersionDispatcher N} {req : JsonRpcRequest} {sid : String}

/-- `req` carries the id to where the session is stored, or is answered with an
error. -/
def Ready (d : VersionDispatcher N) (sid : String) (req : JsonRpcRequest) : Prop :=
  match extensionFor d req with
  | some ext => contextDeclaresExtension (buildContext req) ext.id = false
  | none => sessionId req.params = some sid ∨ req.params.bind d.wire.decodeInitialize = none

/-- On success, the session is known to be stored. -/
abbrev KeepsStores {α : Type} (sid : String) (q : Handed) (p : Dispatch N α) (S : α → Prop) :
    Prop :=
  Program.Follows (handoutProtocol N) q p fun q a => S a → q.known sid

theorem stores_touchSession {q : Handed} :
    Program.Follows (handoutProtocol N) q (touchSession req) fun q' _ => q' = q := by
  unfold touchSession
  split
  · exact rfl
  · exact ⟨trivial, fun _ => rfl⟩

theorem stores_removeRoutes {q : Handed} (sids : List String) :
    Program.Follows (handoutProtocol N) q (removeRoutes sids) fun q' _ => q' = q := by
  induction sids with
  | nil => exact rfl
  | cons s sids ih => exact ⟨trivial, fun _ => ih⟩

/-- A reply that is no error. -/
def IsSuccess (reply : JsonRpcMessage) : Prop :=
  ∃ resp, reply = .response resp ∧ resp.error.isNone = true

theorem not_isSuccess_errorResponse (id : RequestId) (e : McpError) :
    ¬ IsSuccess (errorResponse id e) := by
  rintro ⟨resp, hresp, herr⟩
  cases hresp
  cases herr

theorem stores_handleInitialize (tasksEnabled : Bool) {q : Handed} (hq : q.committed = [])
    (h : sessionId req.params = some sid ∨ req.params.bind d.wire.decodeInitialize = none) :
    KeepsStores sid q (handleInitialize d tasksEnabled req) IsSuccess := by
  unfold handleInitialize
  cases hparams : req.params with
  | none => exact fun hs => absurd hs (not_isSuccess_errorResponse _ _)
  | some v =>
      cases hdecode : d.wire.decodeInitialize v with
      | none =>
          simp only [hdecode]
          exact fun hs => absurd hs (not_isSuccess_errorResponse _ _)
      | some params =>
          simp only [hdecode]
          rcases h with hsid | hnone
          · unfold storeSession
            simp only [hsid]
            exact ⟨hq, fun _ _ => rfl⟩
          · rw [hparams, Option.bind_some, hdecode] at hnone
            cases hnone

theorem stores_handleInitializeRequest {q : Handed} (hq : q.committed = [])
    (h : sessionId req.params = some sid ∨ req.params.bind d.wire.decodeInitialize = none) :
    KeepsStores sid q (handleInitializeRequest d req) IsSuccess := by
  unfold handleInitializeRequest
  refine ⟨hq, fun (swept : List String) => ?_⟩
  refine (stores_removeRoutes swept).seq fun q' _ hq' => ?_
  have hnone : q'.committed = [] := by
    rw [hq']
    exact hq
  refine (stores_handleInitialize _ hnone h).seq fun q reply hstores => ?_
  split
  · split
    · refine stores_touchSession.seq fun q' _ hq' => ?_
      rw [hq']
      exact hstores
    · exact hstores
  · exact hstores

theorem stores_handleRequest {q : Handed} (hq : q.committed = [])
    (hmethod : req.method = methods.initializeRequest) (h : Ready d sid req) :
    KeepsStores sid q (handleRequest d req) fun out => ∃ reply, out = .ok reply ∧ IsSuccess reply := by
  have hok {p : Dispatch N JsonRpcMessage} (hp : KeepsStores sid q p IsSuccess) :
      KeepsStores sid q (Except.ok <$> p : Dispatch N (Except ProtocolError JsonRpcMessage))
        fun out => ∃ reply, out = .ok reply ∧ IsSuccess reply := by
    refine hp.seq fun q reply hstores => ?_
    rintro ⟨reply', hreply, hsuccess⟩
    cases hreply
    exact hstores hsuccess
  unfold Ready at h
  unfold handleRequest
  cases hext : extensionFor d req with
  | some ext =>
      simp only [hext] at h ⊢
      refine hok ?_
      unfold handleExtension
      simp only [h]
      exact fun hs => absurd hs (not_isSuccess_errorResponse _ _)
  | none =>
      simp only [hext, hmethod] at h ⊢
      exact hok (stores_handleInitializeRequest hq h)

theorem stores_untilCancelled {α : Type} {S : α → Prop} (connection : Option String)
    (id : RequestId) {q : Handed} {p : Dispatch N α} (h : KeepsStores sid q p S) :
    KeepsStores sid q (untilCancelled connection id p) fun out => ∃ a, out = some a ∧ S a := by
  induction p generalizing q with
  | ret a =>
      rintro ⟨a', ha, hS⟩
      cases ha
      exact h hS
  | call e k ih =>
      refine ⟨trivial, fun (fired : Bool) => ?_⟩
      cases fired with
      | true =>
          rintro ⟨a, ha, -⟩
          cases ha
      | false => exact ⟨h.1, fun r => ih r (h.2 r)⟩

theorem isSuccess_stampServerInfo {reply : JsonRpcMessage} (info : Implementation) :
    IsSuccess (stampServerInfo reply info) ↔ IsSuccess reply := by
  cases reply with
  | response resp =>
      obtain ⟨resp', hstamped, herr⟩ := stampServerInfo_response resp info
      rw [hstamped]
      constructor
      · rintro ⟨_, ⟨⟩, h⟩
        exact ⟨resp, rfl, herr ▸ h⟩
      · rintro ⟨_, ⟨⟩, h⟩
        exact ⟨resp', rfl, herr.symm ▸ h⟩
  | request r => rfl
  | notification n => rfl

theorem stores_handleTracked {q : Handed} (hq : q.committed = [])
    (hmethod : req.method = methods.initializeRequest) (h : Ready d sid req) :
    KeepsStores sid q (handleTracked d req) Succeeds := by
  unfold handleTracked
  rw [if_neg (by rw [hmethod]; decide)]
  refine (stores_untilCancelled _ _ (stores_handleRequest hq hmethod h)).seq fun q out hstores => ?_
  rcases out with _ | e | reply
  · rintro ⟨resp, hout, -⟩
    cases hout
  · rintro ⟨resp, hout, -⟩
    cases hout
  · rintro ⟨resp, hout, herr⟩
    refine hstores ⟨_, rfl, reply, rfl, ?_⟩
    have hreply : (if d.serverInfoMeta ∧ classifyVersion req.params d.supported = .modern then
        stampServerInfo reply d.serverInfo else reply) = .response resp :=
      Option.some.inj (Except.ok.inj hout)
    split at hreply
    · exact (isSuccess_stampServerInfo d.serverInfo).mp ⟨resp, hreply, herr⟩
    · exact ⟨resp, hreply, herr⟩

/-- **Nothing is handed out that is not stored**, where the request is ready. -/
theorem stores_handle {q : Handed} (hq : q.committed = [])
    (hmethod : req.method = methods.initializeRequest) (h : Ready d sid req) :
    KeepsStores sid q (handle d (.request req)) Succeeds := by
  unfold handle
  split
  · have hbody := stores_handleTracked hq hmethod h
    show KeepsStores sid q (whileInFlight req (handleTracked d req)) Succeeds
    unfold whileInFlight
    split
    · exact hbody
    · rename_i conn _
      have hregister : Program.Follows (handoutProtocol N) q
          (Dispatch.tell (.inflightRegister conn req.id)) fun q' _ => q' = q :=
        ⟨trivial, fun _ => rfl⟩
      refine hregister.seq fun q' _ hq' => ?_
      subst hq'
      exact hbody.seq fun q out hstores => ⟨trivial, fun _ => hstores⟩
  · rintro ⟨resp, hout, herr⟩
    cases hout
    cases herr

/-! ### Runs that lose the id -/

theorem served_untilCancelled {α : Type} {p : Dispatch N α} {B B' : Backend} {a : α}
    (connection : Option String) (id : RequestId) (h : Served B p B' a) :
    Served B (untilCancelled connection id p) B' (some a) := by
  induction h with
  | ret B a => exact .ret B (some a)
  | call now pick hr _ ih =>
      refine .call (e := .isCancelled connection id) (r := false) now pick trivial ?_
      exact .call now pick hr ih
  | meanwhile hgoes _ ih => exact .meanwhile hgoes ih

theorem served_handle_of_tracked (hvalid : (JsonRpcMessage.request req).hasValidVersion = true)
    {B B' : Backend} {out : Except ProtocolError (Option JsonRpcMessage)}
    (h : Served B (handleTracked d req) B' out) : Served B (handle d (.request req)) B' out := by
  unfold handle
  rw [if_pos hvalid]
  show Served B (whileInFlight req (handleTracked d req)) B' _
  unfold whileInFlight
  split
  · exact h
  · refine Served.seq (served_tell (r := ()) trivial rfl) (h.seq ?_)
    exact Served.seq (served_tell (r := ()) trivial rfl) (.ret B' _)

/-- What `handle` makes of a successful answer. -/
theorem served_handle (hvalid : (JsonRpcMessage.request req).hasValidVersion = true)
    (hmethod : req.method = methods.initializeRequest) {B B' : Backend} {reply : JsonRpcMessage}
    (hreply : IsSuccess reply) (h : Served B (handleRequest d req) B' (.ok reply)) :
    ∃ out, Succeeds out ∧ Served B (handle d (.request req)) B' out := by
  have hstamped (stamp : Prop) [Decidable stamp] :
      IsSuccess (if stamp then stampServerInfo reply d.serverInfo else reply) := by
    split
    · exact (isSuccess_stampServerInfo d.serverInfo).mpr hreply
    · exact hreply
  obtain ⟨resp, hresp, herr⟩ := hstamped
    (d.serverInfoMeta ∧ classifyVersion req.params d.supported = .modern)
  refine ⟨.ok (some (.response resp)), ⟨resp, rfl, herr⟩, served_handle_of_tracked hvalid ?_⟩
  unfold handleTracked
  rw [if_neg (by rw [hmethod]; decide)]
  refine (served_untilCancelled _ _ h).seq ?_
  rw [← hresp]
  exact .ret B' _

theorem served_withSession_refused {modern : Dispatch N JsonRpcMessage}
    {legacy : RequestContext → Dispatch N JsonRpcMessage}
    (hlegacy : classifyVersion req.params d.supported = .legacy)
    (hsid : sessionId req.params = some sid) {B : Backend}
    (hgone : B.sessions.contains sid = false) :
    Served B (withSession d req modern legacy) (B.after 0 "" (.sessionGet sid))
      (.error (.unknownSession sid)) := by
  have hget : (B.sessions.get 0 sid).2 = none := by
    have hinner : B.sessions.inner.get sid = none := by
      rw [SessionStore.contains, Option.isSome_eq_false_iff, Option.isNone_iff_eq_none] at hgone
      exact hgone
    unfold SessionStore.get
    rw [hinner]
  have hanswer : B.answers (N := N) 0 (.sessionGet sid) (none : Option SessionState) := by
    refine ⟨hget.symm, fun hlive => ?_⟩
    rw [hgone] at hlive
    cases hlive
  unfold withSession legacyContext
  simp only [hlegacy, hsid]
  exact .call (e := .sessionGet sid) 0 "" hanswer (.ret _ _)

/-- A legacy request whose session is nowhere is refused. -/
theorem served_refused (hvalid : (JsonRpcMessage.request req).hasValidVersion = true)
    (hmethod : req.method = methods.toolsList)
    (hlegacy : classifyVersion req.params d.supported = .legacy)
    (hsid : sessionId req.params = some sid) {B : Backend}
    (hgone : B.sessions.contains sid = false) :
    ∃ B', Served B (handle d (.request req)) B' (.error (.unknownSession sid)) := by
  refine ⟨B.after 0 "" (.sessionGet sid), served_handle_of_tracked hvalid ?_⟩
  have hext : extensionFor d req = none := by
    unfold extensionFor
    rw [hlegacy]
    split <;> rfl
  have hrefused : Served B (handleRequest d req) (B.after 0 "" (.sessionGet sid))
      (.error (.unknownSession sid)) := by
    unfold handleRequest
    simp only [hext]
    rw [if_neg (by rw [hmethod]; decide), if_neg (by rw [hmethod]; decide),
      if_neg (by rw [hmethod]; decide)]
    rw [hmethod]
    exact served_withSession_refused hlegacy hsid hgone
  unfold handleTracked
  rw [if_neg (by rw [hmethod]; decide)]
  exact (served_untilCancelled _ _ hrefused).seq (.ret _ _)

/-- A handshake that finds no id shakes hands and stores nothing. -/
theorem handleInitialize_unstored (tasksEnabled : Bool) {v : Value} {params : InitializeParams}
    (hparams : req.params = some v) (hdecode : d.wire.decodeInitialize v = some params)
    (hsid : sessionId req.params = none) :
    handleInitialize d tasksEnabled req = .ret (okValue req.id (initializeResult d tasksEnabled
      (negotiateInitializeVersion params.protocolVersion d.supported))) := by
  unfold handleInitialize storeSession
  rw [hparams] at hsid
  simp only [hparams, hdecode, hsid]
  rfl

/-- No session at all. -/
def Backend.Empty (B : Backend) : Prop := B.sessions.inner = Dict.empty

theorem Backend.Empty.contains {B : Backend} (h : B.Empty) (sid : String) :
    B.sessions.contains sid = false := by
  unfold SessionStore.contains
  rw [show B.sessions.inner = Dict.empty from h]
  rfl

theorem Backend.Empty.sweep {B : Backend} (h : B.Empty) (now : Nat) (pick : String) :
    (B.after now pick .sweepExpired).Empty := by
  obtain ⟨⟨inner, capacity, timeout⟩, committed⟩ := B
  cases h
  rfl

theorem Backend.Empty.swept {B : Backend} (h : B.Empty) (now : Nat) :
    B.answers (N := N) now .sweepExpired ([] : List String) := by
  obtain ⟨⟨inner, capacity, timeout⟩, committed⟩ := B
  cases h
  rfl

/-- A request that is not ready can be answered with success and leave nothing
in the store. -/
theorem served_of_not_ready (hmethod : req.method = methods.initializeRequest)
    (h : ¬ Ready d sid req) (hroom : sessionId req.params ≠ some sid → sessionId req.params = none)
    {B : Backend} (hB : B.Empty) :
    ∃ reply, IsSuccess reply ∧ ∃ B', Served B (handleRequest d req) B' (.ok reply) ∧
      B'.committed = B.committed ∧ B'.Empty := by
  unfold Ready at h
  unfold handleRequest
  cases hext : extensionFor d req with
  | some ext =>
      simp only [hext, Bool.not_eq_false] at h ⊢
      refine ⟨okValue req.id .null, ⟨_, rfl, rfl⟩, B, ?_, rfl, hB⟩
      unfold handleExtension
      simp only [h, if_true]
      exact .call (e := .extensionDispatch ext.id _) (r := okValue req.id .null) 0 "" trivial
        (.ret B _)
  | none =>
      simp only [hext, hmethod, not_or] at h ⊢
      obtain ⟨hsid, hdecode⟩ := h
      have hnone := hroom hsid
      obtain ⟨params, hparams⟩ := Option.ne_none_iff_exists'.mp hdecode
      obtain ⟨v, hv, hdecode⟩ := Option.bind_eq_some_iff.mp hparams
      have hreply := handleInitialize_unstored (d.tasks.isSome && d.router.tools) hv hdecode hnone
      have hrun : Served B (handleInitializeRequest d req) (B.after 0 "" .sweepExpired)
          (okValue req.id (initializeResult d (d.tasks.isSome && d.router.tools)
            (negotiateInitializeVersion params.protocolVersion d.supported))) := by
        unfold handleInitializeRequest touchSession
        refine .call (e := .sweepExpired) (r := ([] : List String)) 0 "" (hB.swept 0) ?_
        show Served _ (handleInitialize d (d.tasks.isSome && d.router.tools) req >>= _) _ _
        rw [hreply, hnone]
        exact .ret _ _
      exact ⟨_, ⟨_, rfl, rfl⟩, _, hrun.seq (.ret _ _), rfl, hB.sweep 0 ""⟩

/-! ## Stamping -/

/-- `req'` is `req` with the id in `_meta`, where there is room for it. -/
structure Stamps (sid : String) (req req' : JsonRpcRequest) : Prop where
  jsonrpc : req'.jsonrpc = req.jsonrpc
  method : req'.method = req.method
  room : Meta.stampable req.params = true → sessionId req'.params = some sid
  full : Meta.stampable req.params = false → req'.params = req.params
  version : Meta.entry Meta.keys.protocolVersion req'.params =
    Meta.entry Meta.keys.protocolVersion req.params
  capabilities : Meta.entry Meta.keys.clientCapabilities req'.params =
    Meta.entry Meta.keys.clientCapabilities req.params

theorem sessionId_setMeta {params : Option Value} (h : Meta.stampable params = true) :
    sessionId (Meta.setMeta Meta.internal.sessionId (.string sid) params) = some sid := by
  show (Meta.entry _ _).bind Value.asStr = some sid
  rw [Meta.entry_setMeta_self _ _ h]
  rfl

theorem sessionId_of_not_stampable {params : Option Value} (h : Meta.stampable params = false) :
    sessionId params = none := by
  show (Meta.entry _ _).bind Value.asStr = none
  rw [Meta.entry_of_not_stampable h]
  rfl

theorem stamps_attachSession (sid : String) (req : JsonRpcRequest) :
    Stamps sid req
      { req with params := Meta.setMeta Meta.internal.sessionId (.string sid) req.params } where
  jsonrpc := rfl
  method := rfl
  room := sessionId_setMeta
  full := Meta.setMeta_of_not_stampable _ _
  version := Meta.entry_setMeta_of_ne (by decide) _ _
  capabilities := Meta.entry_setMeta_of_ne (by decide) _ _

theorem Stamps.classifyVersion {req' : JsonRpcRequest} (h : Stamps sid req req')
    (supported : List ProtocolVersion) :
    Server.classifyVersion req'.params supported = Server.classifyVersion req.params supported := by
  unfold Server.classifyVersion
  rw [Meta.requestProtocolVersion_eq, Meta.requestProtocolVersion_eq, h.version]

theorem Stamps.extensionFor {req' : JsonRpcRequest} (h : Stamps sid req req')
    (d : VersionDispatcher N) : Server.extensionFor d req' = Server.extensionFor d req := by
  unfold Server.extensionFor
  rw [h.method, h.classifyVersion]

/-- **What an `initialize` must look like**: its params have room for the id, or
are refused; and no extension that the request declares answers in the
dispatcher's place. -/
def Agreed (d : VersionDispatcher N) (req : JsonRpcRequest) : Prop :=
  (JsonRpcMessage.request req).hasValidVersion = true →
    match extensionFor d req with
    | some ext => contextDeclaresExtension (buildContext req) ext.id = false
    | none =>
        Meta.stampable req.params = true ∨ req.params.bind d.wire.decodeInitialize = none

theorem Stamps.hasValidVersion {req' : JsonRpcRequest} (h : Stamps sid req req') :
    (JsonRpcMessage.request req').hasValidVersion = (JsonRpcMessage.request req).hasValidVersion := by
  show decide (req'.jsonrpc = jsonrpcVersion) = decide (req.jsonrpc = jsonrpcVersion)
  rw [h.jsonrpc]

theorem Stamps.ready_iff {req' : JsonRpcRequest} (h : Stamps sid req req') :
    ((JsonRpcMessage.request req').hasValidVersion = true → Ready d sid req') ↔ Agreed d req := by
  have hdeclares (ext : String) : contextDeclaresExtension (buildContext req') ext =
      contextDeclaresExtension (buildContext req) ext := by
    unfold contextDeclaresExtension
    rw [buildContext_clientCapabilities, buildContext_clientCapabilities, h.capabilities]
  have hroom : (sessionId req'.params = some sid ∨
      req'.params.bind d.wire.decodeInitialize = none) ↔
        (Meta.stampable req.params = true ∨ req.params.bind d.wire.decodeInitialize = none) := by
    cases hstamp : Meta.stampable req.params with
    | true => exact iff_of_true (Or.inl (h.room hstamp)) (Or.inl rfl)
    | false =>
        rw [h.full hstamp, sessionId_of_not_stampable hstamp]
        simp
  unfold Ready Agreed
  rw [h.hasValidVersion, h.extensionFor]
  refine imp_congr_right fun _ => ?_
  cases Server.extensionFor d req with
  | some ext => simp only [hdeclares]
  | none => exact hroom

theorem Stamps.lost {req' : JsonRpcRequest} (h : Stamps sid req req')
    (hne : sessionId req'.params ≠ some sid) : sessionId req'.params = none := by
  cases hstamp : Meta.stampable req.params with
  | true => exact absurd (h.room hstamp) hne
  | false =>
      rw [h.full hstamp]
      exact sessionId_of_not_stampable hstamp

/-! ## Both endpoints -/

theorem stores_invalid {q : Handed} (h : (JsonRpcMessage.request req).hasValidVersion = false) :
    KeepsStores sid q (handle d (.request req)) Succeeds := by
  unfold handle
  rw [if_neg (by rw [h]; exact Bool.false_ne_true)]
  rintro ⟨resp, hout, herr⟩
  cases hout
  cases herr

/-- What was agreed on is kept, wherever the id was attached. -/
theorem stores_stamped {req' : JsonRpcRequest} (h : Stamps sid req req')
    (hmethod : req.method = methods.initializeRequest) (hagreed : Agreed d req) {q : Handed}
    (hq : q.committed = []) : KeepsStores sid q (handle d (.request req')) Succeeds := by
  cases hvalid : (JsonRpcMessage.request req').hasValidVersion with
  | false => exact stores_invalid hvalid
  | true =>
      exact stores_handle hq (h.method.trans hmethod) (h.ready_iff.mpr hagreed hvalid)

theorem served_stamped {req' : JsonRpcRequest} (h : Stamps sid req req')
    (hmethod : req.method = methods.initializeRequest) (hagreed : ¬ Agreed d req) {B : Backend}
    (hB : B.Empty) :
    ∃ out, Succeeds out ∧ ∃ B', Served B (handle d (.request req')) B' out ∧
      B'.committed = B.committed ∧ B'.Empty := by
  rw [← h.ready_iff, Classical.not_imp] at hagreed
  obtain ⟨hvalid, hready⟩ := hagreed
  have hmethod := h.method.trans hmethod
  obtain ⟨reply, hreply, B', hrun, hcommitted, hempty⟩ :=
    served_of_not_ready hmethod hready h.lost hB
  obtain ⟨out, hout, hrun⟩ := served_handle hvalid hmethod hreply hrun
  exact ⟨out, hout, B', hrun, hcommitted, hempty⟩

/-! ### The adapter -/

/-- Every id the adapter commits while it serves the request is known. -/
def AdapterHolds (d : VersionDispatcher N) (req : JsonRpcRequest) : Prop :=
  ∀ B B' out, Served B (LegacySessionAdapter.call (handle d) (.request req)) B' out →
    B.committed = [] → ∀ sid ∈ B'.committed, B'.Knows N sid

theorem tracks_start {B : Backend} (h : B.committed = []) : Tracks ⟨fun _ => False, []⟩ B :=
  ⟨fun _ hsid => absurd hsid id, h, nofun⟩

theorem follows_call (hmethod : req.method = methods.initializeRequest) (hagreed : Agreed d req) :
    Program.Follows (handoutProtocol N) ⟨fun _ => False, []⟩
      (LegacySessionAdapter.call (handle d) (.request req)) fun _ _ => True := by
  unfold LegacySessionAdapter.call
  rw [if_pos (by simpa [LegacySessionAdapter.isInitialize] using hmethod)]
  have hmint : Program.Follows (handoutProtocol N) ⟨fun _ => False, []⟩ Dispatch.mintSession
      fun q _ => q.committed = [] := ⟨trivial, fun _ => rfl⟩
  refine hmint.seq fun q candidate hq => ?_
  have hhandle := stores_stamped (stamps_attachSession candidate req) hmethod hagreed hq
  refine Program.Follows.seq hhandle fun q out hstores => ?_
  have hcommit : Program.Follows (handoutProtocol N) q
      (LegacySessionAdapter.commit candidate out) fun _ _ => True := by
    unfold LegacySessionAdapter.commit
    split
    · split
      · rename_i resp herr
        exact ⟨hstores ⟨resp, rfl, herr⟩, fun _ => trivial⟩
      · trivial
    · trivial
  exact hcommit.seq fun _ _ _ => trivial

theorem served_call (hmethod : req.method = methods.initializeRequest) (hagreed : ¬ Agreed d req) :
    ∃ B' out, Served Backend.fresh (LegacySessionAdapter.call (handle d) (.request req)) B' out ∧
      B'.committed = ["s"] ∧ B'.sessions.contains "s" = false := by
  obtain ⟨out, ⟨resp, rfl, herr⟩, B', hrun, hcommitted, hempty⟩ :=
    served_stamped (stamps_attachSession "s" req) hmethod hagreed (B := Backend.fresh) rfl
  refine ⟨B'.after 0 "" (.commitSession "s"), .ok (some (.response resp)), ?_,
    congrArg ("s" :: ·) hcommitted, hempty.contains "s"⟩
  unfold LegacySessionAdapter.call
  rw [if_pos (by simpa [LegacySessionAdapter.isInitialize] using hmethod)]
  refine Served.seq (.call (e := .mintSession) (r := "s") 0 "" rfl (.ret _ "s")) ?_
  refine Served.seq hrun ?_
  have hcommit : LegacySessionAdapter.commit (N := N) "s" (.ok (some (.response resp))) =
      Dispatch.tell (.commitSession "s") := if_pos herr
  show Served B' (LegacySessionAdapter.commit "s" (.ok (some (.response resp))) >>= _) _ _
  rw [hcommit]
  exact .call (e := .commitSession "s") (r := ()) 0 "" trivial (.ret _ _)

theorem adapterHolds_iff (hmethod : req.method = methods.initializeRequest) :
    AdapterHolds d req ↔ Agreed d req := by
  constructor
  · intro hholds
    by_contra hagreed
    obtain ⟨B', out, hrun, hcommitted, hgone⟩ := served_call hmethod hagreed
    have hmem : "s" ∈ B'.committed := by
      rw [hcommitted]
      exact List.mem_singleton_self _
    have hheld := (hholds Backend.fresh B' out hrun rfl "s" hmem).1
    rw [hgone] at hheld
    cases hheld
  · intro hagreed B B' out hrun hB sid hsid
    obtain ⟨q, -, htracks⟩ := hrun.tracks (follows_call hmethod hagreed) (tracks_start hB)
    exact Backend.knows_iff.mpr (htracks.known sid (htracks.held sid (htracks.committed ▸ hsid)))

/-! ### The HTTP endpoint -/

/-- Every id the endpoint answers the request with is known. -/
def HttpHolds (d : VersionDispatcher N) (post : Http.Post) (req : JsonRpcRequest) : Prop :=
  ∀ B B' sid, Served B (initializePost d post (.request req)) B' (some sid) →
    B.committed = [] → B'.Knows N sid

theorem retainMeta_of_not_stampable (p : String → Bool) {params : Option Value}
    (h : Meta.stampable params = false) : Meta.retainMeta p params = params := by
  unfold Meta.retainMeta
  split
  · rename_i obj
    split
    · rename_i m hm
      simp [Meta.stampable, hm] at h
    · rfl
  · rfl

/-- The request once forged entries are stripped and the principal is asserted. -/
def assertedRequest (post : Http.Post) (req : JsonRpcRequest) : JsonRpcRequest :=
  let sanitized := Meta.retainMeta (fun key => !Meta.internal.isInternalKey key) req.params
  { req with
    params := match post.principal with
      | none => sanitized
      | some principal => Meta.setMeta Meta.internal.identity principal sanitized }

theorem assertPrincipal_request (post : Http.Post) (req : JsonRpcRequest) :
    Http.assertPrincipal post.principal (Meta.sanitizeInbound (.request req)) =
      .request (assertedRequest post req) := by
  unfold Http.assertPrincipal assertedRequest
  cases post.principal <;> rfl

theorem stampable_assertedRequest (post : Http.Post) (req : JsonRpcRequest) :
    Meta.stampable (assertedRequest post req).params = Meta.stampable req.params := by
  unfold assertedRequest
  cases post.principal with
  | none => exact Meta.stampable_retainMeta _ _
  | some principal =>
      show Meta.stampable (Meta.setMeta _ _ _) = _
      rw [Meta.stampable_setMeta, Meta.stampable_retainMeta]

theorem assertedRequest_full (post : Http.Post) {req : JsonRpcRequest}
    (h : Meta.stampable req.params = false) : (assertedRequest post req).params = req.params := by
  unfold assertedRequest
  rw [retainMeta_of_not_stampable _ h]
  cases post.principal with
  | none => rfl
  | some principal => exact Meta.setMeta_of_not_stampable _ _ h

theorem entry_assertedRequest (post : Http.Post) (req : JsonRpcRequest) {key : String}
    (hkey : Meta.internal.isInternalKey key = false) (hne : key ≠ Meta.internal.identity) :
    Meta.entry key (assertedRequest post req).params = Meta.entry key req.params := by
  have hretain : Meta.entry key
      (Meta.retainMeta (fun key => !Meta.internal.isInternalKey key) req.params) =
        Meta.entry key req.params := by
    rw [Meta.entry_retainMeta, hkey]
    rfl
  unfold assertedRequest
  cases post.principal with
  | none => exact hretain
  | some principal => exact (Meta.entry_setMeta_of_ne hne _ _).trans hretain

/-- The request with the minted id attached. -/
def mintedRequest (post : Http.Post) (req : JsonRpcRequest) : JsonRpcRequest :=
  { req with
    params := Meta.setMeta Meta.internal.sessionId (.string post.minted)
      (assertedRequest post req).params }

theorem stamps_mintedRequest (post : Http.Post) (req : JsonRpcRequest) :
    Stamps post.minted req (mintedRequest post req) where
  jsonrpc := rfl
  method := rfl
  room := fun h => sessionId_setMeta ((stampable_assertedRequest post req).trans h)
  full := fun h => by
    have hfull := assertedRequest_full post h
    show Meta.setMeta _ _ (assertedRequest post req).params = _
    rw [hfull]
    exact Meta.setMeta_of_not_stampable _ _ h
  version := (Meta.entry_setMeta_of_ne (by decide) _ _).trans
    (entry_assertedRequest post req (by decide) (by decide))
  capabilities := (Meta.entry_setMeta_of_ne (by decide) _ _).trans
    (entry_assertedRequest post req (by decide) (by decide))

/-- The checks that only reject let the request pass. -/
def Passes (post : Http.Post) (req : JsonRpcRequest) : Prop :=
  post.passes (.request (assertedRequest post req)) = true

theorem accept_initialize (post : Http.Post) (hmethod : req.method = methods.initializeRequest) :
    (Passes post req → post.accept (.request req) = some (.request (mintedRequest post req))) ∧
      (¬ Passes post req → post.accept (.request req) = none) := by
  have hinit (params : Option Value) :
      Http.isInitialize (.request { req with params }) = true := by
    unfold Http.isInitialize
    rw [JsonRpcMessage.method, hmethod]
    decide
  have hstream (params : Option Value) :
      Http.opensStream (.request { req with params }) = false := by
    unfold Http.opensStream
    simp only [hinit]
    rw [JsonRpcMessage.method, hmethod]
    decide
  unfold Http.Post.accept Passes
  rw [assertPrincipal_request]
  refine ⟨fun hpasses => ?_, fun hpasses => if_neg hpasses⟩
  rw [if_pos hpasses]
  have hsession : Http.assertSession post (.request (assertedRequest post req)) =
      some (.request (mintedRequest post req)) := by
    unfold Http.assertSession
    exact if_pos (hinit _)
  rw [hsession, Option.map_some]
  unfold Http.assertConnection
  rw [if_neg]
  rw [show Http.opensStream (.request (mintedRequest post req)) = false from hstream _]
  exact Bool.false_ne_true

theorem httpHolds_iff (post : Http.Post) (hmethod : req.method = methods.initializeRequest) :
    HttpHolds d post req ↔ (Passes post req → Agreed d req) := by
  obtain ⟨haccepted, hrejected⟩ := accept_initialize post hmethod
  have hstamps := stamps_mintedRequest post req
  constructor
  · intro hholds hpasses
    by_contra hagreed
    obtain ⟨out, ⟨resp, rfl, herr⟩, B', hrun, hcommitted, hempty⟩ :=
      served_stamped hstamps hmethod hagreed (B := Backend.fresh) rfl
    have hpost : Served Backend.fresh (initializePost d post (.request req)) B'
        (some post.minted) := by
      unfold initializePost
      rw [haccepted hpasses]
      refine Served.seq hrun ?_
      show Served B' (.ret (if resp.error.isNone = true then some post.minted else none)) B' _
      rw [if_pos herr]
      exact .ret B' _
    have hheld := (hholds _ _ _ hpost rfl).1
    rw [hempty.contains] at hheld
    cases hheld
  · intro hagreed B B' sid hrun hB
    have hfollows : Program.Follows (handoutProtocol N) ⟨fun _ => False, []⟩
        (initializePost d post (.request req)) fun q header => ∀ sid ∈ header, q.known sid := by
      unfold initializePost
      by_cases hpasses : Passes post req
      · rw [haccepted hpasses]
        refine Program.Follows.seq
          (stores_stamped hstamps hmethod (hagreed hpasses) rfl) fun q out hstores => ?_
        intro sid hsid
        unfold sessionHeader at hsid
        split at hsid
        · rename_i resp
          split at hsid
          · rename_i herr
            cases hsid
            exact hstores ⟨resp, rfl, herr⟩
          · cases hsid
        · cases hsid
      · rw [hrejected hpasses]
        exact nofun
    obtain ⟨q, hknown, htracks⟩ := hrun.tracks hfollows (tracks_start hB)
    exact Backend.knows_iff.mpr (htracks.known sid (hknown sid rfl))

/-- **Initialize and session store agree**: whatever runs in between, every id
that is handed out by the adapter or by the HTTP endpoint is stored just when the
request can carry it there. -/
theorem handed_out_stored_iff (d : VersionDispatcher N) (req : JsonRpcRequest)
    (hmethod : req.method = methods.initializeRequest) :
    (AdapterHolds d req ↔ Agreed d req) ∧
      ∀ post, HttpHolds d post req ↔ (Passes post req → Agreed d req) :=
  ⟨adapterHolds_iff hmethod, fun post => httpHolds_iff post hmethod⟩

/-- An `initialize` for this version, with these optional entries. -/
def handshake (requested : String) (optional : Map) : JsonRpcRequest where
  id := .number 1
  method := "initialize"
  params := some (.object (optional ++
    [("capabilities", .object []),
      ("clientInfo", .object [("name", .string "client"), ("version", .string "1")]),
      ("protocolVersion", .string requested)]))

/-- What a client sends that writes its absent options as null. -/
def nullMetaHandshake : JsonRpcRequest := handshake "2025-11-25" [("_meta", .null)]

/-- A POST without authentication. -/
def plainPost : Http.Post where
  principal := none
  sessionHeader := none
  versionHeader := none
  minted := "s"
  stream := "c"
  passes := fun _ => true

theorem handed_out_stored_handshake :
    AdapterHolds declaringServer (handshake "2025-11-25" []) ∧
      HttpHolds declaringServer plainPost (handshake "2025-11-25" []) := by
  have hagreed : Agreed declaringServer (handshake "2025-11-25" []) := fun _ => Or.inl (by decide)
  obtain ⟨hadapter, hhttp⟩ := handed_out_stored_iff declaringServer (handshake "2025-11-25" []) rfl
  exact ⟨hadapter.mpr hagreed, (hhttp plainPost).mpr fun _ => hagreed⟩

theorem not_agreed_null_meta : ¬ Agreed declaringServer nullMetaHandshake := by
  intro hagreed
  have hroom : Meta.stampable nullMetaHandshake.params = true ∨
      nullMetaHandshake.params.bind decodeInitializeParams = none := hagreed rfl
  rcases hroom with hstampable | hrefused
  · exact absurd hstampable (by decide)
  · have hdecoded : (nullMetaHandshake.params.bind
        decodeInitializeParams).isSome = true := by
      decide +kernel
    rw [hrefused] at hdecoded
    cases hdecoded

/-- A request that states no version. -/
def listTools : JsonRpcRequest where
  id := .number 2
  method := "tools/list"
  params := none

/-- The request as the adapter stamps it. -/
def listToolsIn (sid : String) : JsonRpcRequest :=
  { listTools with
    params := some (.object [("_meta", .object
      [("io.modelcontextprotocol/protocolVersion", .string "2025-11-25"),
        ("io.turbomcp.internal/sessionId", .string sid)])]) }

/-- **An id for nothing**: with `_meta` null, the adapter commits an id and the
endpoint hands one out; no state is held under it, and the next request on the
connection is refused. -/
theorem handed_out_lost :
    (∃ B out, Served Backend.fresh (LegacySessionAdapter.call (handle declaringServer)
        (.request nullMetaHandshake)) B out ∧
      B.committed = ["s"] ∧ B.sessions.contains "s" = false ∧
        ∃ B', Served B (LegacySessionAdapter.call (handle declaringServer) (.request listTools)) B'
          (.error (.unknownSession "s"))) ∧
      ¬ HttpHolds declaringServer plainPost nullMetaHandshake := by
  constructor
  · obtain ⟨B, out, hrun, hcommitted, hgone⟩ :=
      served_call (d := declaringServer) rfl not_agreed_null_meta
    refine ⟨B, out, hrun, hcommitted, hgone, ?_⟩
    have hstamped : LegacySessionAdapter.stampSession (some "s") (.request listTools) =
        .request (listToolsIn "s") := by
      decide
    have hsid : sessionId (listToolsIn "s").params = some "s" := by decide
    obtain ⟨B', hrefused⟩ := served_refused (d := declaringServer) (by decide) (by decide)
      (by decide) hsid hgone
    refine ⟨B', ?_⟩
    unfold LegacySessionAdapter.call
    rw [if_neg (by decide)]
    refine Served.seq (.call (e := .adapterSession) (r := some "s") 0 "" ?_ (.ret _ (some "s"))) ?_
    · show some "s" = B.committed.head?
      rw [hcommitted]
      rfl
    · rw [hstamped]
      exact hrefused
  · intro hholds
    exact not_agreed_null_meta ((httpHolds_iff plainPost rfl).mp hholds rfl)

end TurboMcp.System
