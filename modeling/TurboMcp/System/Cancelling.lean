import TurboMcp.Server.OneResponse
import TurboMcp.Server.TrustBoundary
import TurboMcp.System.Roles

/-!
# Cancellations that arrive in time

A request is registered by the task that handles it, and a cancellation looks
its token up in a task of its own.  Which of the two runs first is up to the
scheduler: the token is fired when the lookup falls between the request's
registration and its end, and no other request uses the id meanwhile.
-/

namespace TurboMcp.System

open TurboMcp.Core TurboMcp.Lib TurboMcp.Server TurboMcp.Service

variable {N : Type}

/-! ## Tracked requests

Where a request's task is, as far as its registration goes. -/

inductive Phase
  | waiting
  | tracked
  | finished
  deriving DecidableEq

def trackAllows (key : SubscriptionKey) : Phase → Effect → Prop
  | .waiting, e => e = .inflightRegister key.1 key.2
  | .tracked, .inflightRegister _ _ => False
  | .tracked, .inflightRelease connection id => (connection, id) = key
  | .tracked, _ => True
  | .finished, _ => False

def phaseAfter : Phase → Effect → Phase
  | _, .inflightRegister _ _ => .tracked
  | _, .inflightRelease _ _ => .finished
  | q, _ => q

/-- Register, do anything else, release. -/
def trackProtocol (N : Type) (key : SubscriptionKey) : Protocol Effect (Answer N) Phase where
  allows := trackAllows key
  after q e _ := phaseAfter q e

/-- The same, section by section. -/
def trackSections (N : Type) (key : SubscriptionKey) : Protocol Section (Reply N) Phase where
  allows q a :=
    match a with
    | .effect e => trackAllows key q e
    | _ => q = .tracked
  after q a _ :=
    match a with
    | .effect e => phaseAfter q e
    | _ => q

/-- The effect neither registers nor releases a request. -/
def Effect.Untracking : Effect → Prop
  | .inflightRegister _ _ | .inflightRelease _ _ => False
  | _ => True

variable {d : VersionDispatcher N} {req : JsonRpcRequest} {key : SubscriptionKey}

theorem untracking_serveListen :
    Program.wp Effect.Untracking (fun _ _ => True) (serveListen (N := N) d req) fun _ => True := by
  have hrole : KeepsRole ⟨none, requestKey req, none⟩ Opening.none (serveListen (N := N) d req) :=
    keepsRole_serveListen rfl
  apply hrole.wp
  intro q e he
  cases e
  case inflightRegister | inflightRelease => cases he.2
  all_goals trivial

theorem untracking_serveRequest :
    Program.wp Effect.Untracking (fun _ _ => True) (serveRequest (N := N) d req) fun _ => True := by
  refine Program.wp_weaken untabledOnly_serveRequest ?_ fun _ _ _ => trivial
  intro e he
  cases e <;> first | exact absurd he id | trivial

/-- What neither registers nor releases stays tracked. -/
theorem tracked_of_untracking {α : Type} {p : Dispatch N α}
    (h : Program.wp Effect.Untracking (fun _ _ => True) p fun _ => True) :
    Program.Follows (trackProtocol N key) .tracked p fun q _ => q = .tracked := by
  refine (Program.follows_of_wp h ?_ ?_).mono fun _ _ hq => hq.1
  · intro e he
    cases e <;> first | exact absurd he id | trivial
  · intro e r he
    cases e <;> first | exact absurd he id | rfl

theorem tracked_whileInFlight {body : Dispatch N Unit} (hkey : requestKey req = some key)
    (h : Program.wp Effect.Untracking (fun _ _ => True) body fun _ => True) :
    Program.Follows (trackProtocol N key) .waiting (whileInFlight req body)
      fun q _ => q ≠ .tracked := by
  obtain ⟨conn, hconn, rfl⟩ := Option.map_eq_some_iff.mp hkey
  unfold whileInFlight
  simp only [hconn]
  refine ⟨rfl, fun _ => ?_⟩
  refine (tracked_of_untracking h).seq fun q _ hq => ?_
  subst hq
  exact ⟨rfl, fun _ => nofun⟩

/-- **A request registers first and releases last.** -/
theorem tracked_serve (d : VersionDispatcher N) (hkey : requestKey req = some key) :
    Program.Follows (trackProtocol N key) .waiting (serve d (.request req))
      fun q _ => q ≠ .tracked := by
  unfold serve
  split
  · apply tracked_whileInFlight hkey
    split
    · exact untracking_serveListen
    · exact untracking_serveRequest
  · exact nofun

theorem tracked_sections {q : Phase} {e : Effect} (he : trackAllows key q e) :
    Program.Follows (trackSections N key) q (Proc.sections e) fun q' _ => q' = phaseAfter q e := by
  cases e
  case legacySubscribe session connection uri =>
    cases q with
    | waiting => cases he
    | tracked => exact ⟨trivial, fun _ => ⟨rfl, fun _ => rfl⟩⟩
    | finished => exact absurd he id
  case inflightCancel connection request =>
    cases q with
    | waiting => cases he
    | tracked =>
        refine ⟨rfl, fun (found : Option Nat) => ?_⟩
        cases found with
        | none => exact rfl
        | some token => exact ⟨rfl, fun _ => rfl⟩
    | finished => exact absurd he id
  all_goals exact ⟨he, fun _ => rfl⟩

theorem tracked_startFrame (d : VersionDispatcher N) (rfc3339 : Nat → String) {f : Frame}
    (hkey : f.role.tracks = some key) :
    Program.Follows (trackSections N key) .waiting (startFrame d rfc3339 f)
      fun q _ => q ≠ .tracked := by
  cases f with
  | message msg =>
      cases msg with
      | request req =>
          have himpl (q q' : Phase) (e : Effect) (hq : q' = q) (he : trackAllows key q e) :
              Program.Follows (trackSections N key) q' (Proc.sections e)
                fun q' _ => q' = phaseAfter q e := by
            subst hq
            exact tracked_sections he
          have h := (tracked_serve d hkey).expand (r := fun q q' => q' = q) himpl rfl
          refine h.mono ?_
          rintro q' _ ⟨q, rfl, hq⟩
          exact hq
      | notification n => cases hkey
      | response r => cases hkey
  | _ => cases hkey

/-! ### Registered while tracked -/

/-- The task of a request under `key` is somewhere on its way, and registered
from its registration to its release. -/
def OnItsWay (key : SubscriptionKey) (s : Shared) (n : Nat) (f : Frame) (p : Proc N Unit) : Prop :=
  f.role.tracks = some key →
    ∃ q, Program.Follows (trackSections N key) q p (fun q _ => q ≠ .tracked) ∧
      (q = .tracked → s.inflight.get key = some n)

/-- No two unfinished requests share the key. -/
def Apart (key : SubscriptionKey) (P : Server N) : Prop :=
  ∀ n m f g, (P.threads.get n).isSome = true → (P.threads.get m).isSome = true →
    P.born[n]? = some f → P.born[m]? = some g →
      f.role.tracks = some key → g.role.tracks = some key → n = m

variable {rfc3339 : Nat → String} {P P' : Server N} {a : Act Frame (Choice N)}

/-- A task registers and releases nothing but its own request. -/
theorem tracks_of_inRole (hrole : InRole P) {n : Nat} {e : Section} {k : Reply N e → Proc N Unit}
    (hget : P.threads.get n = some (.call e k)) {connection : String} {id : RequestId}
    (he : e = .effect (.inflightRegister connection id) ∨
      e = .effect (.inflightRelease connection id)) :
    ∃ f, P.born[n]? = some f ∧ f.role.tracks = some (connection, id) := by
  obtain ⟨f, hf, q, hallows, -⟩ := hrole n _ hget
  refine ⟨f, hf, ?_⟩
  rcases he with rfl | rfl
  · exact hallows.2
  · exact hallows.2

/-- Another task leaves the registration alone. -/
theorem inflight_unshared (hrole : InRole P) (hapart : Apart key P) {n m : Nat} (hne : m ≠ n)
    {c : Choice N} {e : Section} {k : Reply N e → Proc N Unit}
    (hget : P.threads.get n = some (.call e k)) {p : Proc N Unit} {f : Frame}
    (hm : P.threads.get m = some p) (hf : P.born[m]? = some f) (hkey : f.role.tracks = some key)
    {r : Reply N e} {s : Shared} (hx : runSection n c P.shared e = .answer r s) :
    s.inflight.get key = P.shared.inflight.get key := by
  have hother {connection : String} {id : RequestId}
      (he : e = .effect (.inflightRegister connection id) ∨
        e = .effect (.inflightRelease connection id)) : (connection, id) ≠ key := by
    rintro rfl
    obtain ⟨g, hg, htracks⟩ := tracks_of_inRole hrole hget he
    exact hne (hapart m n f g (by rw [hm]; rfl) (by rw [hget]; rfl) hf hg hkey htracks)
  rw [(ran_of_answer hx).inflight]
  unfold Section.inflightAfter
  split
  · rw [Dict.get_insert, if_neg (hother (Or.inl rfl))]
  · rw [Dict.get_remove, if_neg (hother (Or.inr rfl))]
  · rfl

/-- The request's own task: the step is its registration, or it was registered and
stays so. -/
theorem registered_after_own {n : Nat} {q : Phase} {s : Shared} {e : Section} {r : Reply N e}
    (hallows : (trackSections N key).allows q e)
    (hregistered : q = .tracked → s.inflight.get key = some n)
    (htracked : (trackSections N key).after q e r = .tracked) :
    (e.inflightAfter n s).get key = some n := by
  cases e
  case effect e =>
    cases e
    case inflightRegister connection request =>
      cases q with
      | waiting =>
          obtain ⟨rfl, rfl⟩ := Effect.inflightRegister.inj hallows
          exact (Dict.get_insert ..).trans (if_pos rfl)
      | tracked => exact absurd hallows id
      | finished => exact absurd hallows id
    case inflightRelease connection id => cases htracked
    all_goals exact hregistered htracked
  all_goals exact hregistered htracked

theorem onItsWay_step (h : (server d rfc3339).Step P a P') (hrole : InRole P)
    (hapart : Apart key P) (hP : Threads (OnItsWay key) P) : Threads (OnItsWay key) P' := by
  refine threads_step h hP ?_ ?_ ?_ ?_
  · intro f _ hkey
    exact ⟨.waiting, tracked_startFrame d rfc3339 hkey, nofun⟩
  · intro s b n f p hJ
    exact hJ
  · intro n f c e k r s _ hget _ hJ hx hkey
    obtain ⟨q, ⟨hallows, hk⟩, hregistered⟩ := hJ hkey
    refine ⟨_, hk r, fun htracked => ?_⟩
    rw [(ran_of_answer hx).inflight]
    exact registered_after_own hallows hregistered htracked
  · intro n c e k r s m f p _ hget hx hne hm hf hJ hkey
    obtain ⟨q, hq, hregistered⟩ := hJ hkey
    refine ⟨q, hq, fun htracked => ?_⟩
    rw [inflight_unshared hrole hapart hne hget hm hf hkey hx]
    exact hregistered htracked

/-- The request's task is past its registration, and not at its end. -/
def Underway (key : SubscriptionKey) (P : Server N) (n : Nat) : Prop :=
  ∃ e k, P.threads.get n = some (.call e k) ∧ e ≠ .effect (.inflightRegister key.1 key.2)

/-- **A request that is underway is found.** -/
theorem registered_of_underway (hP : Threads (OnItsWay key) P) {n : Nat} (h : Underway key P n)
    (hkey : ∀ f, P.born[n]? = some f → f.role.tracks = some key) :
    P.shared.inflight.get key = some n := by
  obtain ⟨e, k, hget, hpast⟩ := h
  obtain ⟨f, hf, hJ⟩ := hP n _ hget
  obtain ⟨q, ⟨hallows, -⟩, hregistered⟩ := hJ (hkey f hf)
  cases q with
  | tracked => exact hregistered rfl
  | waiting =>
      cases e
      case effect e => exact absurd (congrArg Section.effect hallows) hpast
      all_goals cases hallows
  | finished =>
      cases e
      case effect e => exact absurd hallows id
      all_goals cases hallows

/-! ## Cancellations -/

/-- The program looks the key up and then fires what it found. -/
def LooksUp (key : SubscriptionKey) (p : Proc N Unit) : Prop :=
  ∃ k, p = .call (.inflightToken key.1 key.2) k ∧ ∀ t, ∃ k', k (some t) = .call (.fireToken t) k'

/-- A cancellation's task has yet to look up, has found the request, or has fired
its token. -/
def Firing (key : SubscriptionKey) (n m : Nat) (P : Server N) : Prop :=
  (∃ p, P.threads.get m = some p ∧ LooksUp key p) ∨
    (∃ k, P.threads.get m = some (.call (.fireToken n) k)) ∨ n ∈ P.shared.fired

theorem looksUp_startFrame (d : VersionDispatcher N) (rfc3339 : Nat → String)
    {note : JsonRpcNotification} (hvalid : (JsonRpcMessage.notification note).hasValidVersion = true)
    (hmethod : note.method = methods.cancelled) {connection : String} {id : RequestId}
    (hconn : connectionId note.params = some connection) (hid : cancelledId note.params = some id) :
    LooksUp (connection, id) (startFrame d rfc3339 (.message (.notification note))) := by
  have hserve : serve d (.notification note) =
      .call (.inflightCancel connection id) fun _ =>
        .call (.subscriptionRemove connection id) fun _ => .ret () := by
    unfold serve handleNotification
    rw [if_pos hvalid]
    simp only [hmethod, if_true, hconn, hid]
    rfl
  have hstart : startFrame d rfc3339 (.message (.notification note)) =
      (serve d (.notification note)).expand Proc.sections := rfl
  rw [hstart, hserve]
  exact ⟨_, rfl, fun t => ⟨_, rfl⟩⟩

/-- The cancellation looks its request up while that is underway. -/
def InTime (key : SubscriptionKey) (n m : Nat) (P : Server N) (a : Act Frame (Choice N)) : Prop :=
  ∀ c k, a = .run m c → P.threads.get m = some (.call (.inflightToken key.1 key.2) k) →
    Underway key P n

/-- **One step of a cancellation**: it finds the request, fires its token, or is
left alone. -/
theorem firing_step {n m : Nat} (h : (server d rfc3339).Step P a P')
    (hlookup : ∀ c k, a = .run m c → P.threads.get m = some (.call (.inflightToken key.1 key.2) k) →
      P.shared.inflight.get key = some n)
    (hnum : Machine.Numbered P) (hP : Firing key n m P) : Firing key n m P' := by
  -- a task that does not move goes on as it was
  have hkept (hget : P'.threads.get m = P.threads.get m)
      (hfired : n ∈ P.shared.fired → n ∈ P'.shared.fired) : Firing key n m P' := by
    unfold Firing
    rw [hget]
    exact hP.imp_right (Or.imp_right hfired)
  cases h.stepped with
  | spawn =>
      by_cases hne : P.next = m
      · -- its number has been handed out
        rcases hP with ⟨p, hget, -⟩ | ⟨k, hget⟩ | hfired
        · exact absurd (hnum m _ hget) (by omega)
        · exact absurd (hnum m _ hget) (by omega)
        · exact Or.inr (Or.inr hfired)
      · exact hkept ((Pool.get_spawned ..).trans (if_neg hne)) id
  | @finish n' c hget' =>
      by_cases hne : n' = m
      · subst hne
        rcases hP with ⟨p, hget, k, rfl, -⟩ | ⟨k, hget⟩ | hfired
        · rw [hget'] at hget
          cases hget
        · rw [hget'] at hget
          cases hget
        · exact Or.inr (Or.inr hfired)
      · exact hkept ((Pool.get_ended ..).trans (if_neg hne)) id
  | @answer n' c e k r s hget' hx =>
      by_cases hne : n' = m
      · subst hne
        rcases hP with ⟨p, hget, k₀, rfl, hfire⟩ | ⟨k₀, hget⟩ | hfired
        · have hfound := hlookup c k₀ rfl hget
          rw [hget'] at hget
          cases hget
          cases hx
          obtain ⟨k', hk'⟩ := hfire n
          refine Or.inr (Or.inl ⟨k', ?_⟩)
          rw [Pool.get_resumed, if_pos rfl, hfound, hk']
        · rw [hget'] at hget
          cases hget
          cases hx
          exact Or.inr (Or.inr List.mem_insert_self)
        · exact Or.inr (Or.inr (fired_mono hx hfired))
      · exact hkept ((Pool.get_resumed ..).trans (if_neg hne)) (fired_mono hx)
  | @panic n' c e k s hget' hx =>
      have hfired : P.shared.fired = s.fired := by
        rw [eq_of_panic hx]
      by_cases hne : n' = m
      · subst hne
        rcases hP with ⟨p, hget, k₀, rfl, -⟩ | ⟨k₀, hget⟩ | hmem
        · rw [hget'] at hget
          cases hget
          cases hx
        · rw [hget'] at hget
          cases hget
          cases hx
        · exact Or.inr (Or.inr (show n ∈ s.fired from hfired ▸ hmem))
      · refine hkept ((Pool.get_ended ..).trans (if_neg hne)) fun hmem => ?_
        show n ∈ s.fired
        exact hfired ▸ hmem

/-! ## Frames off a connection -/

/-- A driver's end of the connection, with an adapter or without. -/
def Endpoint.Drives (connection : String) : Endpoint → Prop
  | .pipe conn _ | .adapted conn _ _ _ => conn = connection
  | .http _ => False

/-- The frame as the dispatcher gets it. -/
def Reads (connection : String) (msg : JsonRpcMessage) (f : Frame) : Prop :=
  ∃ ep dispatched, Endpoint.Drives connection ep ∧ ep.accept msg = some dispatched ∧
    f = .message dispatched

/-- The notification cancels the request of this id. -/
def Names (note : JsonRpcNotification) (id : RequestId) : Prop :=
  note.method = methods.cancelled ∧ cancelledId note.params = some id

theorem cancelledId_insert_meta (m : Map) (v : Value) :
    cancelledId (some (.object (Map.insert m "_meta" v))) = cancelledId (some (.object m)) := by
  have hget (name : String) (hname : "_meta" ≠ name) :
      Map.get (Map.insert m "_meta" v) name = Map.get m name := by
    rw [Map.get_insert, if_neg hname]
  simp only [cancelledId, Option.bind_some, structFields, optionField, Option.bind_eq_bind,
    hget "requestId" (by decide), hget "reason" (by decide)]

theorem cancelledId_setMeta (key : String) (v : Value) (params : Option Value) :
    cancelledId (Meta.setMeta key v params) = cancelledId params := by
  unfold Meta.setMeta
  split
  · rfl
  · split
    · exact cancelledId_insert_meta _ _
    · exact cancelledId_insert_meta _ _
    · rfl
  · rfl

theorem cancelledId_retainMeta (p : String → Bool) (params : Option Value) :
    cancelledId (Meta.retainMeta p params) = cancelledId params := by
  unfold Meta.retainMeta
  split
  · split
    · exact cancelledId_insert_meta _ _
    · rfl
  · rfl

/-- Only params are rewritten, and what they cancel stays. -/
def Rewrites (msg dispatched : JsonRpcMessage) : Prop :=
  ∃ g, dispatched = msg.mapParams g ∧ ∀ params, cancelledId (g params) = cancelledId params

theorem Rewrites.setRequestMeta {msg dispatched : JsonRpcMessage} (h : Rewrites msg dispatched)
    (key : String) (v : Value) : Rewrites msg (Meta.setRequestMeta dispatched key v) := by
  obtain ⟨g, rfl, hg⟩ := h
  refine ⟨fun params => Meta.setMeta key v (g params), JsonRpcMessage.mapParams_mapParams .., ?_⟩
  exact fun params => (cancelledId_setMeta ..).trans (hg params)

theorem rewrites_stampInbound (connection : String) (config : ServeConfig) (msg : JsonRpcMessage) :
    Rewrites msg (stampInbound connection config msg) := by
  have hsanitized : Rewrites msg (Meta.sanitizeInbound msg) :=
    ⟨_, rfl, cancelledId_retainMeta _⟩
  have hconnection := hsanitized.setRequestMeta Meta.internal.connectionId (.string connection)
  unfold stampInbound
  cases config.identity with
  | none => exact hconnection
  | some principal => exact hconnection.setRequestMeta _ _

theorem rewrites_accept {connection : String} {ep : Endpoint} (hep : Endpoint.Drives connection ep)
    {msg dispatched : JsonRpcMessage} (h : ep.accept msg = some dispatched) :
    Rewrites msg dispatched := by
  cases ep with
  | pipe conn config =>
      cases h
      exact rewrites_stampInbound conn config msg
  | adapted conn config candidate session =>
      have hstamped := rewrites_stampInbound conn config msg
      simp only [Endpoint.accept] at h
      split at h
      · cases h
        exact hstamped.setRequestMeta _ _
      · cases h
        unfold LegacySessionAdapter.stampSession
        split
        · exact hstamped
        · split
          · exact (hstamped.setRequestMeta _ _).setRequestMeta _ _
          · exact hstamped
  | http post => exact absurd hep id

/-- Where there is room, the frame carries its connection. -/
theorem connectionId_accept {connection : String} {ep : Endpoint}
    (hep : Endpoint.Drives connection ep) {msg dispatched : JsonRpcMessage}
    (h : ep.accept msg = some dispatched) (hroom : hasRoom msg = true) :
    connectionId dispatched.params = some connection := by
  have hcarries := (stamped_accept ep h).carries.connection
  rw [Facts.seenIn, if_pos ((hasRoom_accept h).trans hroom)] at hcarries
  rw [hcarries]
  cases ep with
  | pipe conn config => exact congrArg some hep
  | adapted conn config candidate session => exact congrArg some hep
  | http post => exact absurd hep id

theorem tracks_of_reads {connection : String} {req : JsonRpcRequest} {f : Frame}
    (h : Reads connection (.request req) f) (hroom : Meta.stampable req.params = true) :
    f.role.tracks = some (connection, req.id) := by
  obtain ⟨ep, dispatched, hep, haccept, rfl⟩ := h
  have hconn := connectionId_accept hep haccept hroom
  obtain ⟨g, rfl, -⟩ := rewrites_accept hep haccept
  show (connectionId (g req.params)).map _ = _
  rw [show connectionId (g req.params) = some connection from hconn]
  rfl

theorem looksUp_of_reads (d : VersionDispatcher N) (rfc3339 : Nat → String) {connection : String}
    {note : JsonRpcNotification} {id : RequestId} {g : Frame}
    (h : Reads connection (.notification note) g) (hnames : Names note id)
    (hroom : Meta.stampable note.params = true)
    (hvalid : (JsonRpcMessage.notification note).hasValidVersion = true) :
    LooksUp (connection, id) (startFrame d rfc3339 g) := by
  obtain ⟨ep, dispatched, hep, haccept, rfl⟩ := h
  have hconn := connectionId_accept hep haccept hroom
  obtain ⟨g, rfl, hg⟩ := rewrites_accept hep haccept
  have hid : cancelledId (g note.params) = some id := (hg note.params).trans hnames.2
  have hconn : connectionId (g note.params) = some connection := hconn
  let handed : JsonRpcNotification := { note with params := g note.params }
  have hvalid : (JsonRpcMessage.notification handed).hasValidVersion = true := hvalid
  exact looksUp_startFrame d rfc3339 hvalid hnames.1 hconn hid

/-! ## Runs -/

/-- The task has come to its end. -/
def Ended (P : Server N) (m : Nat) : Prop :=
  P.threads.get m = none ∨ P.threads.get m = some (.ret ())

theorem mem_fired_of_ended {n m : Nat} (h : Firing key n m P) (hended : Ended P m) :
    n ∈ P.shared.fired := by
  rcases h with ⟨p, hget, k, rfl, -⟩ | ⟨k, hget⟩ | hfired
  · rcases hended with hnone | hret
    · rw [hnone] at hget
      cases hget
    · rw [hret] at hget
      cases hget
  · rcases hended with hnone | hret
    · rw [hnone] at hget
      cases hget
    · rw [hret] at hget
      cases hget
  · exact hfired

theorem heard_unique {n : Nat} {f f' : Frame} {born born' : List Frame} (h : born <+: born')
    (hf : born[n]? = some f) (hf' : born'[n]? = some f') : f = f' := by
  obtain ⟨rest, rfl⟩ := h
  rw [List.getElem?_append_left (List.getElem?_eq_some_iff.mp hf).1, hf] at hf'
  exact Option.some.inj hf'

/-- A frame that has just been read is about to look its request up. -/
theorem firing_of_spawned {n m : Nat} {g : Frame} (hlooks : LooksUp key (startFrame d rfc3339 g))
    (h : (server d rfc3339).Step P a P') (hg : ∀ g', P'.born[m]? = some g' → g' = g)
    (hold : P.next ≤ m) (hnew : m < P'.next) : Firing key n m P' := by
  cases h.stepped with
  | @spawn g' =>
      have hnext : m = P.next := by
        simp only [Pool.next, Pool.spawned, List.length_append, List.length_cons,
          List.length_nil] at hold hnew ⊢
        omega
      subst hnext
      obtain rfl := hg g' List.getElem?_concat_length
      exact Or.inl ⟨_, (Pool.get_spawned ..).trans (if_pos rfl), hlooks⟩
  | finish | answer | panic => exact absurd hnew (Nat.not_lt.mpr hold)

/-- **No cancellation is lost** in a run in which unfinished requests have ids of
their own and each cancellation is looked up while its request is underway: once
its task is at its end, the request's token has fired. -/
theorem cancellation_fires (d : VersionDispatcher N) (rfc3339 : Nat → String)
    (sessions : SessionStore) (taskCapacity : Nat) {connection : String} {req : JsonRpcRequest}
    {note : JsonRpcNotification} {f g : Frame} (hf : Reads connection (.request req) f)
    (hg : Reads connection (.notification note) g) (hnames : Names note req.id)
    (htracked : Meta.stampable req.params = true) (hheard : Meta.stampable note.params = true)
    (hvalid : (JsonRpcMessage.notification note).hasValidVersion = true)
    {tr : List (Act Frame (Choice N) × Server N)}
    (hrun : Run (server d rfc3339).Step (Pool.init (Shared.init sessions taskCapacity)) tr)
    {n m : Nat}
    (hn : (final (Pool.init (Shared.init sessions taskCapacity)) tr).born[n]? = some f)
    (hm : (final (Pool.init (Shared.init sessions taskCapacity)) tr).born[m]? = some g)
    (hintime : ∀ x ∈ steps (Pool.init (Shared.init sessions taskCapacity)) tr,
      Apart (connection, req.id) x.1 ∧ InTime (connection, req.id) n m x.1 x.2.1)
    (hended : Ended (final (Pool.init (Shared.init sessions taskCapacity)) tr) m) :
    n ∈ (final (Pool.init (Shared.init sessions taskCapacity)) tr).shared.fired := by
  have htracks := tracks_of_reads hf htracked
  have hlooks := looksUp_of_reads d rfc3339 hg hnames hheard hvalid
  have hinv : ∀ P ∈ states (Pool.init (Shared.init sessions taskCapacity)) tr,
      InRole P ∧ Threads (OnItsWay (connection, req.id)) P ∧
        (m < P.next → Firing (connection, req.id) n m P) := invariant_of_steps
    ⟨nofun, nofun, nofun⟩ fun x hx ⟨hrole, hway, hfiring⟩ => ?_
  · obtain ⟨-, -, hfiring⟩ := hinv _ (final_mem_states _ tr)
    exact mem_fired_of_ended (hfiring (List.getElem?_eq_some_iff.mp hm).1) hended
  · have hstep := hrun x hx
    obtain ⟨hapart, hlookup⟩ := hintime x hx
    have hborn := Machine.born_of_mem_steps hrun x hx
    refine ⟨inRole_step hstep hrole, onItsWay_step hstep hrole hapart hway, fun hnew => ?_⟩
    by_cases hold : m < x.1.next
    · apply firing_step hstep _ hrole.numbered (hfiring hold)
      intro c k ha hget
      apply registered_of_underway hway (hlookup c k ha hget)
      intro f' hf'
      rw [heard_unique ((Machine.born_step hstep).trans hborn) hf' hn]
      exact htracks
    · apply firing_of_spawned hlooks hstep _ (Nat.not_lt.mp hold) hnew
      exact fun g' hg' => heard_unique hborn hg' hm

/-! ## A ping and its cancellation -/

def ping : JsonRpcRequest := { id := .number 1, method := "ping", params := none }

def cancelPing : JsonRpcNotification :=
  { method := "notifications/cancelled", params := some (.object [("requestId", .int 1)]) }

/-- The two as they arrive on connection "c". -/
def pingFrame : Frame :=
  .message (stampInbound "c" { maxInFlight := 2, identity := none } (.request ping))

def cancelFrame : Frame :=
  .message (stampInbound "c" { maxInFlight := 2, identity := none } (.notification cancelPing))

theorem reads_ping : Reads "c" (.request ping) pingFrame := ⟨.pipe "c" _, _, rfl, rfl, rfl⟩

theorem reads_cancelPing : Reads "c" (.notification cancelPing) cancelFrame :=
  ⟨.pipe "c" _, _, rfl, rfl, rfl⟩

theorem names_ping : Names cancelPing ping.id := by
  constructor <;> decide

/-- The request's task registers before the cancellation is read. -/
def registeredFirst : List (Act Frame (Choice Unit)) :=
  .spawn pingFrame :: .run 0 (.declined "") :: .spawn cancelFrame ::
    List.replicate 3 (.run 1 (.declined ""))

/-- A run of one request and its cancellation, in which the lookup comes in time. -/
def heedful (P : Server Unit) : Act Frame (Choice Unit) → Bool
  | .run 1 _ =>
      (P.born.drop 1).all (·.role.tracks.isNone) &&
        match P.threads.get 1, P.threads.get 0 with
        | some (.call (.inflightToken _ _) _), some (.call e _) =>
            match e with
            | .effect (.inflightRegister _ _) => false
            | _ => true
        | some (.call (.inflightToken _ _) _), _ => false
        | _, _ => true
  | _ => (P.born.drop 1).all (·.role.tracks.isNone)

theorem apart_of_drop {P : Server Unit} (h : (P.born.drop 1).all (·.role.tracks.isNone) = true) :
    Apart key P := by
  have hzero (n : Nat) (f : Frame) (hf : P.born[n]? = some f) (hkey : f.role.tracks = some key) :
      n = 0 := by
    cases n with
    | zero => rfl
    | succ n =>
        have hmem : f ∈ P.born.drop 1 := by
          refine List.mem_of_getElem? (i := n) ?_
          rw [List.getElem?_drop, Nat.add_comm]
          exact hf
        have hnone := List.all_eq_true.mp h f hmem
        rw [hkey] at hnone
        cases hnone
  intro n m f g _ _ hf hg hkey hkey'
  rw [hzero n f hf hkey, hzero m g hg hkey']

theorem inTime_of_heedful (P : Server Unit) (a : Act Frame (Choice Unit))
    (h : heedful P a = true) : Apart key P ∧ InTime key 0 1 P a := by
  unfold heedful at h
  split at h
  · obtain ⟨hdrop, h⟩ := Bool.and_eq_true_iff.mp h
    refine ⟨apart_of_drop hdrop, fun c k _ hget => ?_⟩
    rw [hget] at h
    cases hping : P.threads.get 0 with
    | none =>
        rw [hping] at h
        cases h
    | some p =>
        rw [hping] at h
        cases p with
        | ret a => cases h
        | call e k =>
            refine ⟨e, k, hping, ?_⟩
            rintro rfl
            cases h
  · rename_i hnot
    refine ⟨apart_of_drop h, fun c k ha _ => ?_⟩
    exact absurd ha (hnot c)

def isEnded (P : Server Unit) (m : Nat) : Bool :=
  match P.threads.get m with
  | some (.call _ _) => false
  | _ => true

theorem ended_of_isEnded {P : Server Unit} {m : Nat} (h : isEnded P m = true) : Ended P m := by
  unfold isEnded at h
  cases hget : P.threads.get m with
  | none => exact Or.inl hget
  | some p =>
      rw [hget] at h
      cases p with
      | ret a => exact Or.inr hget
      | call e k => cases h

theorem cancellation_fires_ping :
    ∃ tr, Run (server legacyServer fun _ => "").Step
        (Pool.init (Shared.init (SessionStore.withCapacity 8) 8)) tr ∧
      Ended (final (Pool.init (Shared.init (SessionStore.withCapacity 8) 8)) tr) 1 ∧
      0 ∈ (final (Pool.init (Shared.init (SessionStore.withCapacity 8) 8)) tr).shared.fired := by
  have hend : (reach (fun P a => if heedful P a then (server legacyServer fun _ => "").step P a
      else none) (Pool.init (Shared.init (SessionStore.withCapacity 8) 8)) registeredFirst).map
        (fun P => (P.born, isEnded P 1)) = some ([pingFrame, cancelFrame], true) := by
    decide +kernel
  obtain ⟨P, hreach, hP⟩ := Option.map_eq_some_iff.mp hend
  obtain ⟨hborn, hended⟩ := Prod.mk.inj hP
  obtain ⟨tr, hrun, rfl, hintime⟩ := exists_run_of_guarded_reach inTime_of_heedful hreach
  refine ⟨tr, hrun, ended_of_isEnded hended, ?_⟩
  have hzero : (final (Pool.init (Shared.init (SessionStore.withCapacity 8) 8)) tr).born[0]? =
      some pingFrame := by
    rw [hborn]
    rfl
  have hone : (final (Pool.init (Shared.init (SessionStore.withCapacity 8) 8)) tr).born[1]? =
      some cancelFrame := by
    rw [hborn]
    rfl
  exact cancellation_fires legacyServer (fun _ => "") (SessionStore.withCapacity 8) 8 reads_ping
    reads_cancelPing names_ping rfl rfl rfl hrun hzero hone hintime (ended_of_isEnded hended)

/-- The scheduler runs the cancellation's task first. -/
def overtaken : List (Act Frame (Choice Unit)) :=
  [.spawn pingFrame, .spawn cancelFrame, .run 1 (.declined ""), .run 1 (.declined "")]

/-- **A cancellation that is lost**: the request is read and then its
cancellation, whose task runs first.  It finds nothing and is at its end, with the
request unanswered and its token unfired. -/
theorem cancellation_lost :
    Reads "c" (.request ping) pingFrame ∧ Reads "c" (.notification cancelPing) cancelFrame ∧
      Names cancelPing ping.id ∧
      ∃ P : Server Unit, reach (server legacyServer fun _ => "").step
          (Pool.init (Shared.init (SessionStore.withCapacity 8) 8)) overtaken = some P ∧
        P.born = [pingFrame, cancelFrame] ∧ Ended P 1 ∧ ¬ Ended P 0 ∧ 0 ∉ P.shared.fired := by
  refine ⟨reads_ping, reads_cancelPing, names_ping, ?_⟩
  have hend : (reach (server legacyServer fun _ => "").step
      (Pool.init (Shared.init (SessionStore.withCapacity 8) 8)) overtaken).map
        (fun P => (P.born, isEnded P 1, isEnded P 0, P.shared.fired)) =
          some ([pingFrame, cancelFrame], true, false, []) := by
    decide +kernel
  obtain ⟨P, hreach, hP⟩ := Option.map_eq_some_iff.mp hend
  obtain ⟨hborn, hrest⟩ := Prod.mk.inj hP
  obtain ⟨hended, hrest⟩ := Prod.mk.inj hrest
  obtain ⟨hlive, hfired⟩ := Prod.mk.inj hrest
  refine ⟨P, hreach, hborn, ended_of_isEnded hended, ?_, ?_⟩
  · intro hended
    unfold isEnded at hlive
    rcases hended with hnone | hret
    · rw [hnone] at hlive
      cases hlive
    · rw [hret] at hlive
      cases hlive
  · rw [hfired]
    exact List.not_mem_nil

end TurboMcp.System
