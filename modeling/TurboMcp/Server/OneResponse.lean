import TurboMcp.Server.Adapter
import TurboMcp.Service.Delivery

/-!
# One response per request

The dispatcher, bare or under the session adapter, as the service of a driver.
A handler's future is its program with the answers the surroundings gave so far,
so what a run did to one request can be read off that log: whether its token
fired, whether its stream was acknowledged, whether its session was live.
-/

namespace TurboMcp.Server

open TurboMcp.Core TurboMcp.Lib TurboMcp.Service TurboMcp.Protocol

variable {N : Type}

/-- How the surroundings answer at one moment. -/
abbrev Surroundings (N : Type) := (e : Effect) → Answer N e

/-- A request being handled: the effects performed, with their answers, and what
is left to do. -/
structure Handling (N : Type) where
  log : List (Sigma (Answer N))
  rest : Dispatch N (Except ProtocolError (Option JsonRpcMessage))

/-- The dispatcher as a service. What its handlers write to the connection while
an effect runs is left to the surroundings. -/
def dispatcherService (stack : Stack) (d : VersionDispatcher N) :
    McpService Empty (Surroundings N) (Handling N) where
  call msg := { log := [], rest := stack.call d msg }
  poll h answers :=
    match h.rest with
    | .ret out => some (.ready out)
    | .call e k => some (.run { log := h.log ++ [⟨e, answers e⟩], rest := k (answers e) })

/-! ## Reading the log -/

/-- The request's token was seen to have fired. -/
def isFired : Sigma (Answer N) → Bool
  | ⟨.isCancelled _ _, (fired : Bool)⟩ => fired
  | _ => false

def isSend : Sigma (Answer N) → Bool
  | ⟨.send _ _, _⟩ => true
  | _ => false

def Handling.cancelled (h : Handling N) : Bool := h.log.any isFired

/-- An acknowledgement went to the connection's writer. -/
def Handling.acknowledged (h : Handling N) : Bool := h.log.any isSend

/-- What extensions promise: the response to the request they are given. -/
def ExtensionsReply : (e : Effect) → Answer N e → Prop
  | .extensionDispatch _ r, (reply : JsonRpcMessage) => IsReply r.request.id reply
  | .augmentCall _ r, (reply : Option JsonRpcMessage) =>
      ∀ m, reply = some m → IsReply r.request.id m
  | _, _ => True

/-- A session lookup finds the session live. -/
def SessionsLive : (e : Effect) → Answer N e → Prop
  | .sessionGet _, (state : Option SessionState) => state ≠ none
  | _, _ => True

/-- The effect a handling performs next is answered within `A`. -/
def Met (A : (e : Effect) → Answer N e → Prop) (h : Handling N) (answers : Surroundings N) :
    Prop :=
  ∀ e k, h.rest = .call e k → A e (answers e)

/-- **Following the program**: a handling whose log is within `A` is left with a
program that meets what the whole met, and its log is within what its polls
were. -/
theorem reaches_spec {stack : Stack} {d : VersionDispatcher N}
    {B : (e : Effect) → Answer N e → Prop} {h₀ h : Handling N}
    (hreach : (dispatcherService stack d).Reaches (Met B) h₀ h) (hlog : h₀.log = []) :
    (∀ x ∈ h.log, B x.1 x.2) ∧
      ∀ C A Q, (∀ x ∈ h.log, A x.1 x.2) → Program.wp C A h₀.rest Q →
        Program.wp C A h.rest Q := by
  induction hreach with
  | refl => exact ⟨by simp [hlog], fun _ _ _ _ hwp => hwp⟩
  | @tail g h answers p hfg hmet hp hnext ih =>
      obtain ⟨hgB, hg⟩ := ih
      simp only [dispatcherService] at hp
      split at hp
      · cases hp
        cases hnext
      · rename_i e k hrest
        cases hp
        cases hnext
        refine ⟨?_, fun C A Q hA hwp => ?_⟩
        · simp only [List.forall_mem_append, List.forall_mem_singleton]
          exact ⟨hgB, hmet e k hrest⟩
        · simp only [List.forall_mem_append, List.forall_mem_singleton] at hA
          have hwp' := hg C A Q hA.1 hwp
          rw [hrest, Program.wp_call] at hwp'
          exact hwp'.2 _ hA.2

/-- What the log of a request says when nothing out of the ordinary happened. -/
theorem regular_of_log {req : JsonRpcRequest} {h : Handling N}
    (hcancelled : h.cancelled = false)
    (hack : ¬ (req.method = methods.subscriptionsListen ∧ h.acknowledged = true))
    (hext : ∀ x ∈ h.log, ExtensionsReply x.1 x.2) (hlive : ∀ x ∈ h.log, SessionsLive x.1 x.2) :
    ∀ x ∈ h.log, Regular req x.1 x.2 := by
  rintro ⟨e, r⟩ hx
  have hfired : isFired ⟨e, r⟩ = false := by
    have := List.any_eq_false.mp hcancelled _ hx
    simpa using this
  have hsend : isSend ⟨e, r⟩ = true → h.acknowledged = true :=
    fun hs => List.any_eq_true.mpr ⟨_, hx, hs⟩
  have hextr := hext _ hx
  have hliver := hlive _ hx
  cases e
  case sessionGet sid => exact hliver
  case isCancelled conn id => exact hfired
  case send conn m => exact fun hm => hack ⟨hm, hsend rfl⟩
  case extensionDispatch ext request => exact hextr
  case augmentCall ext request => exact hextr
  all_goals trivial

/-! ## Stamped frames -/

theorem stampInbound_request (connection : String) (config : ServeConfig)
    (req : JsonRpcRequest) :
    ∃ params, stampInbound connection config (.request req) = .request { req with params } := by
  unfold stampInbound
  cases config.identity with
  | none => exact ⟨_, rfl⟩
  | some principal => exact ⟨_, rfl⟩

theorem stampInbound_ne_request (connection : String) (config : ServeConfig)
    {msg : JsonRpcMessage} (h : ∀ req, msg ≠ .request req) (req : JsonRpcRequest) :
    stampInbound connection config msg ≠ .request req := by
  unfold stampInbound
  cases msg with
  | request r => exact absurd rfl (h r)
  | notification n => cases config.identity <;> exact JsonRpcMessage.noConfusion
  | response r => cases config.identity <;> exact JsonRpcMessage.noConfusion

/-! ## Whole connections -/

variable {stack : Stack} {d : VersionDispatcher N} {connection : String} {config : ServeConfig}
  {G : Handling N → Surroundings N → Prop}

/-- What an ended handler returned for a request it was not cancelled out of. -/
theorem request_returns {req : JsonRpcRequest} {h : Handling N}
    {out : Except ProtocolError (Option JsonRpcMessage)}
    (hret : (dispatcherService stack d).Returns
      (Met fun e r => ExtensionsReply e r ∧ SessionsLive e r)
      ((dispatcherService stack d).call (stampInbound connection config (.request req))) h out)
    (hcancelled : h.cancelled = false)
    (hack : ¬ (req.method = methods.subscriptionsListen ∧ h.acknowledged = true)) :
    ∃ reply, out = .ok (some reply) ∧ IsReply req.id reply := by
  obtain ⟨hreach, answers, -, hready⟩ := hret
  obtain ⟨hlog, hspec⟩ := reaches_spec hreach rfl
  have hregular := regular_of_log hcancelled hack (fun x hx => (hlog x hx).1)
    fun x hx => (hlog x hx).2
  obtain ⟨params, hstamp⟩ := stampInbound_request connection config req
  have hcall := returns_call (d := d) stack { req with params }
  rw [← hstamp] at hcall
  have hrest := hspec _ (Regular req) _ hregular hcall
  simp only [dispatcherService] at hready
  split at hready
  · rename_i out' hout
    cases hready
    rw [hout] at hrest
    exact hrest
  · cases hready

/-- What an ended handler returned for a frame that asks for nothing. -/
theorem silent_returns {msg : JsonRpcMessage} (hmsg : ∀ req, msg ≠ .request req)
    {h : Handling N} {out : Except ProtocolError (Option JsonRpcMessage)}
    (hret : (dispatcherService stack d).Returns
      (Met fun e r => ExtensionsReply e r ∧ SessionsLive e r)
      ((dispatcherService stack d).call (stampInbound connection config msg)) h out) :
    out = .ok none := by
  obtain ⟨hreach, answers, -, hready⟩ := hret
  obtain ⟨-, hspec⟩ := reaches_spec hreach rfl
  have hstamped := stampInbound_ne_request connection config hmsg
  have hcall := call_silent (d := d) (C := fun _ => True) (A := fun _ _ => True) stack hstamped
    fun _ => trivial
  have hrest := hspec _ _ _ (fun _ _ => trivial) hcall
  simp only [dispatcherService] at hready
  split at hready
  · rename_i out' hout
    cases hready
    rw [hout] at hrest
    exact hrest
  · cases hready

/-- **One response per request**: over a working transport, as long as every
session a request looks up is live, each request that ends without being
cancelled or accepted as a stream has handed on exactly one response, under its
id; other frames none.  When the driver has closed, all of it is written. -/
theorem one_response_per_request
    {run : List (Label Empty (Surroundings N) × State Empty (Handling N))}
    (hrun : Run (Step (dispatcherService stack d) connection config) State.initial run)
    (hworks : ∀ x ∈ steps State.initial run, x.2.1 ≠ .sendFailed)
    (hext : ∀ x ∈ steps State.initial run, PollsWithin (Met ExtensionsReply) x.1 x.2.1)
    (hlive : ∀ x ∈ steps State.initial run, PollsWithin (Met SessionsLive) x.1 x.2.1) :
    ∀ s ∈ states State.initial run,
      (∀ r ∈ s.finished, ∀ req, r.frame = .request req → r.future.cancelled = false →
        ¬ (req.method = methods.subscriptionsListen ∧ r.future.acknowledged = true) →
          ∃ reply, s.replies r.num = [reply] ∧ IsReply req.id reply) ∧
      (∀ r ∈ s.finished, (∀ req, r.frame ≠ .request req) → s.replies r.num = []) ∧
      (s.phase = .closed → s.outgoing = s.written) := by
  have hboth : ∀ x ∈ steps State.initial run,
      PollsWithin (Met fun e r => ExtensionsReply e r ∧ SessionsLive e r) x.1 x.2.1 := by
    rintro ⟨s, a, t⟩ hx
    have he := hext _ hx
    have hl := hlive _ hx
    cases a with
    | poll i answers =>
        exact fun u f hu hf e k hrest => ⟨he u f hu hf e k hrest, hl u f hu hf e k hrest⟩
    | _ => trivial
  have hdelivers := delivers hrun hworks hboth
  refine fun s hs => ⟨fun r hr req hframe hcancelled hack => ?_, fun r hr hframe => ?_,
    closed_written hrun hworks s hs⟩
  · obtain ⟨hreplies, hret⟩ := hdelivers s hs r hr
    rw [hframe] at hret
    obtain ⟨reply, hout, hreply⟩ := request_returns hret hcancelled hack
    exact ⟨reply, by rw [hreplies, hout, replyOf], hreply⟩
  · obtain ⟨hreplies, hret⟩ := hdelivers s hs r hr
    rw [hreplies, silent_returns hframe hret]
    rfl

/-! ## A session that expires -/

/-- A server of the legacy version with tools. -/
def legacyServer : VersionDispatcher Unit :=
  { texts := { serdeError := fun _ _ => "", json := fun _ => "", debug := id }
    wire :=
      { result := fun _ _ _ => .null
        listToolsWithTaskSupport := fun _ => .null
        cacheDefault := fun _ n => n
        decodeInitialize := fun _ => some
          { protocolVersion := "2025-11-25", clientInfo := ⟨"client", none, "1"⟩,
            capabilities := .object [] }
        decodeListen := fun _ => none }
    router :=
      { tools := true, resources := false, prompts := false, completions := false,
        logging := false }
    supported := [.v2025_11_25]
    serverInfo := ⟨"server", none, "1"⟩
    instructions := none
    tasks := none
    extensions := []
    strictElicitationKeys := false
    serverInfoMeta := false
    cache :=
      let policy : CachePolicy := ⟨0, .isPrivate⟩
      ⟨policy, policy, policy, policy, policy, policy⟩ }

/-- Nothing is cancelled, and a session lookup answers `state`. -/
def sessionsAnswer (state : Option SessionState) : Surroundings Unit
  | .sessionGet _ => state
  | .sweepExpired => ([] : List String)
  | .isCancelled _ _ | .inflightCancel _ _ | .subscriptionRemove _ _ | .writer _
  | .send _ _ | .pendingComplete _ => false
  | .stateVerify _ _ _ => Except.ok Value.null
  | .stateSign _ _ _ => Except.ok ""
  | .capability _ => (⟨.ok (), Map.empty, none⟩ : HandlerOutcome Unit)
  | .extensionDispatch _ r => okValue r.request.id .null
  | .augmentCall _ _ => (none : Option JsonRpcMessage)
  | .onSubscribe _ _ _ _ _ => SubscribeOutcome.notApplicable
  | .taskCreate _ _ | .taskGet _ _ | .taskCancel _ _ | .taskList _ _ _
  | .taskWaitResult _ _ => Except.error TaskError.notFound
  | .mintSession => "s-1"
  | .adapterSession => some "s-1"
  | .sessionInsert _ _ | .sessionSetLogLevel _ _ | .inflightRegister _ _
  | .inflightRelease _ _ | .legacyTouch _ _ | .legacyRemove _ | .legacySubscribe _ _ _
  | .legacyUnsubscribe _ _ | .subscriptionInsert _ _ _ | .taskSpawn _ _
  | .commitSession _ => ()

theorem extensionsReply_sessionsAnswer (state : Option SessionState) (e : Effect) :
    ExtensionsReply e (sessionsAnswer state e) := by
  cases e
  case extensionDispatch ext r => exact isReply_okValue _ _
  case augmentCall ext r => exact fun m hm => nomatch hm
  all_goals trivial

def initializeFrame : JsonRpcRequest :=
  { id := .number 1, method := "initialize", params := some (.object []) }

def listToolsFrame : JsonRpcRequest :=
  { id := .number 2, method := "tools/list", params := none }

/-- The driver reads one frame and spawns its handler. -/
def readFrame (req : JsonRpcRequest) : List (Label Empty (Surroundings Unit)) :=
  [.pollOutbound, .pollShutdown, .frame (.request req), .acquired, .ready (.ok ())]

/-- A client shakes hands, and lists the tools once its session answers `state`;
the second handler is polled `n` times. -/
def sessionCalls (state : Option SessionState) (n : Nat) :
    List (Label Empty (Surroundings Unit)) :=
  readFrame initializeFrame ++ List.replicate 11 (.poll 0 (sessionsAnswer state)) ++
    [.resume 0, .pollOutbound, .sent] ++ readFrame listToolsFrame ++
    List.replicate n (.poll 0 (sessionsAnswer state))

/-- What became of each ended handler: its frame, whether it was cancelled, and
how many replies it handed on. -/
def fates (s : State Empty (Handling Unit)) : List (JsonRpcMessage × Bool × Nat) :=
  s.finished.map fun r => (r.frame, r.future.cancelled, (s.replies r.num).length)

def sessionConfig : ServeConfig := { maxInFlight := 4, identity := none }

theorem label_of_sessionCalls {state : Option SessionState} {n : Nat}
    {a : Label Empty (Surroundings Unit)} (ha : a ∈ sessionCalls state n) :
    a ≠ .sendFailed ∧ ∀ i answers, a = .poll i answers → answers = sessionsAnswer state := by
  simp only [sessionCalls, readFrame, List.mem_append, List.mem_cons, List.mem_replicate,
    List.not_mem_nil, or_false] at ha
  rcases ha with (((ha | ha) | ha) | ha) | ha
  · rcases ha with rfl | rfl | rfl | rfl | rfl <;> simp
  · obtain ⟨-, rfl⟩ := ha
    simp
  · rcases ha with rfl | rfl | rfl <;> simp
  · rcases ha with rfl | rfl | rfl | rfl | rfl <;> simp
  · obtain ⟨-, rfl⟩ := ha
    simp

/-- **A request into an expired session is never answered**: the session of a
shaken hand is gone when `tools/list` arrives, its handler ends uncancelled,
and it handed on nothing. -/
theorem expired_session_unanswered :
    ∃ run : List (Label Empty (Surroundings Unit) × State Empty (Handling Unit)),
      Run (Step (dispatcherService .adapted legacyServer) "conn-1" sessionConfig)
        State.initial run ∧
      (∀ x ∈ steps State.initial run, x.2.1 ≠ .sendFailed) ∧
      (∀ x ∈ steps State.initial run, PollsWithin (Met ExtensionsReply) x.1 x.2.1) ∧
      ∃ s ∈ states State.initial run, ∃ r ∈ s.finished,
        r.frame = .request listToolsFrame ∧ r.future.cancelled = false ∧
        s.replies r.num = [] := by
  have hfates : (reach (step (dispatcherService .adapted legacyServer) "conn-1" sessionConfig)
      State.initial (sessionCalls none 6)).map fates =
        some [(.request initializeFrame, false, 1), (.request listToolsFrame, false, 0)] := by
    decide +kernel
  obtain ⟨s, hreach, hs⟩ := Option.map_eq_some_iff.mp hfates
  obtain ⟨run, hrun, hmem, hlabels⟩ := exists_run_of_reach hreach
  refine ⟨run, hrun, fun x hx => (label_of_sessionCalls (hlabels x hx)).1, ?_, s, hmem, ?_⟩
  · rintro ⟨t, a, u⟩ hx
    have hl := (label_of_sessionCalls (hlabels _ hx)).2
    cases a with
    | poll i answers =>
        obtain rfl := hl i answers rfl
        exact fun v f _ _ e k _ => extensionsReply_sessionsAnswer none e
    | _ => trivial
  · have hlast : (JsonRpcMessage.request listToolsFrame, false, 0) ∈ fates s := by
      rw [hs]
      simp
    obtain ⟨r, hr, heq⟩ := List.mem_map.mp hlast
    simp only [Prod.mk.injEq] at heq
    exact ⟨r, hr, heq.1, heq.2.1, List.length_eq_zero_iff.mp heq.2.2⟩

/-- The same client, whose session stays live. -/
theorem one_response_per_request_live :
    ∃ run : List (Label Empty (Surroundings Unit) × State Empty (Handling Unit)),
      Run (Step (dispatcherService .adapted legacyServer) "conn-1" sessionConfig)
        State.initial run ∧
      ∃ s ∈ states State.initial run, ∃ r ∈ s.finished,
        r.frame = .request listToolsFrame ∧
        ∃ reply, s.replies r.num = [reply] ∧ IsReply (.number 2) reply := by
  let session : SessionState :=
    { version := .v2025_11_25, clientInfo := ⟨"client", none, "1"⟩,
      clientCapabilities := .object [], logLevel := none }
  have hfates : (reach (step (dispatcherService .adapted legacyServer) "conn-1" sessionConfig)
      State.initial (sessionCalls (some session) 10 ++ [.resume 0])).map
        (fun s => s.finished.map fun r => (r.frame, r.future.cancelled)) =
        some [(.request initializeFrame, false), (.request listToolsFrame, false)] := by
    decide +kernel
  obtain ⟨s, hreach, hs⟩ := Option.map_eq_some_iff.mp hfates
  obtain ⟨run, hrun, hmem, hlabels⟩ := exists_run_of_reach hreach
  have hlabel : ∀ x ∈ steps State.initial run, x.2.1 ≠ .sendFailed ∧
      ∀ i answers, x.2.1 = .poll i answers → answers = sessionsAnswer (some session) := by
    intro x hx
    rcases List.mem_append.mp (hlabels x hx) with hl | hl
    · exact label_of_sessionCalls hl
    · rw [List.mem_singleton.mp hl]
      simp
  have hpolls {A : (e : Effect) → Answer Unit e → Prop}
      (hA : ∀ e, A e (sessionsAnswer (some session) e)) :
      ∀ x ∈ steps State.initial run, PollsWithin (Met A) x.1 x.2.1 := by
    rintro ⟨t, a, u⟩ hx
    have hl := (hlabel _ hx).2
    cases a with
    | poll i answers =>
        obtain rfl := hl i answers rfl
        exact fun v f _ _ e k _ => hA e
    | _ => trivial
  have hlive : ∀ e, SessionsLive e (sessionsAnswer (some session) e) := by
    intro e
    cases e
    case sessionGet sid => exact Option.some_ne_none session
    all_goals trivial
  have hlast : (JsonRpcMessage.request listToolsFrame, false) ∈
      s.finished.map fun r => (r.frame, r.future.cancelled) := by
    rw [hs]
    simp
  obtain ⟨r, hr, heq⟩ := List.mem_map.mp hlast
  simp only [Prod.mk.injEq] at heq
  have hone := one_response_per_request hrun (fun x hx => (hlabel x hx).1)
    (hpolls (extensionsReply_sessionsAnswer _)) (hpolls hlive) s hmem
  exact ⟨run, hrun, s, hmem, r, hr, heq.1,
    hone.1 r hr listToolsFrame heq.1 heq.2 fun hlisten => absurd hlisten.1 (by decide)⟩

end TurboMcp.Server
