import TurboMcp.Client.HttpReply
import TurboMcp.System.HeaderMirrors
import TurboMcp.Lib.Runs

/-!
# The version header

Every message is a POST on a task of its own.  When the task runs, it takes the
version from the message, or else from what the last task left behind; so what
a message without one carries depends on the order of the tasks.
-/

namespace TurboMcp.System.VersionHeader

open TurboMcp.Core TurboMcp.Lib TurboMcp.Service TurboMcp.Transport TurboMcp.Client
  TurboMcp.Client.Http

/-! ## The client over HTTP -/

abbrev Handshaking := Conversation (Except ClientError Handshake)

/-- The version a handshake has settled on, once nothing is left to ask. -/
def settledOn : Handshaking → Option ProtocolVersion
  | .ret result => result.toOption.map (·.version)
  | .call (.notify _ _) k => settledOn (k (.ok ()))
  | .call (.request _ _) _ => none

/-- One task's POST; `settled` says what had been settled on when the task ran. -/
structure Posted where
  settled : Option ProtocolVersion
  msg : JsonRpcMessage
  version : Option String
  post : Post

structure State where
  /-- What is left of the handshake. -/
  conv : Handshaking
  asked : Bool
  nextId : Int
  settled : Option ProtocolVersion
  /-- The tasks that have not run yet. -/
  tasks : List JsonRpcMessage
  shared : Http.Shared
  posts : List Posted

def State.initial (b : ClientBuilder) : State :=
  { conv := b.handshake, asked := false, nextId := 1, settled := none, tasks := [],
    shared := Http.Shared.initial, posts := [] }

inductive Label
  /-- The handshake's next request is sent. -/
  | ask
  | reply (r : Except ClientError Value)
  | tell (r : Except ClientError Unit)
  /-- The actor or a handler answers the server. -/
  | answer (resp : JsonRpcResponse)
  /-- Whatever the connected client sends, through the raw connection too. -/
  | submit (msg : JsonRpcMessage)
  | run (i : Nat)
  /-- A response's headers arrive. -/
  | arrived (resp : HttpResponse)

/-- What comes from the server comes after a POST; a request may also time out,
or its connection close. -/
def arrives (s : State) : Except ClientError Value → Bool
  | .ok _ | .error (.rpc _) => !s.posts.isEmpty
  | .error .timeout | .error .closed => true
  | .error _ => false

/-- The task of `msg` runs. -/
def State.posted (s : State) (msg : JsonRpcMessage) (tasks : List JsonRpcMessage) : State :=
  let (shared, post) := prepare s.shared msg
  { s with
    shared, tasks
    posts := s.posts ++ [{ settled := s.settled, msg, version := shared.version, post }] }

def step (s : State) : Label → Option State
  | .ask =>
      match s.conv with
      | .call (.request method params) _ =>
          if s.asked then none
          else
            some { s with
              asked := true
              nextId := s.nextId + 1
              tasks := s.tasks ++ [.request { id := .number s.nextId, method, params }] }
      | _ => none
  | .reply r =>
      match s.conv with
      | .call (.request _ _) k =>
          if s.asked && arrives s r then
            let conv := k r
            some { s with conv, asked := false, settled := s.settled.or (settledOn conv) }
          else none
      | _ => none
  | .tell r =>
      match s.conv with
      | .call (.notify method params) k =>
          let sent := match r with
            | .ok () => [.notification { method, params }]
            | .error _ => []
          some { s with conv := k r, tasks := s.tasks ++ sent }
      | _ => none
  | .answer resp =>
      if s.posts.isEmpty then none else some { s with tasks := s.tasks ++ [.response resp] }
  | .submit msg =>
      match s.conv with
      | .ret (.ok _) => some { s with tasks := s.tasks ++ [msg] }
      | _ => none
  | .run i => (s.tasks[i]?).map fun msg => s.posted msg (s.tasks.eraseIdx i)
  | .arrived resp => some { s with shared := s.shared.capture resp }

/-- The POSTs made since the handshake settled. -/
def State.late (s : State) : List Posted := s.posts.filter (·.settled.isSome)

def Carried (v : ProtocolVersion) (posts : List Posted) : Prop :=
  ∀ post ∈ posts, post.version = some v.asStr

/-- No POST states another version, and on a dated version the first states its
own. -/
def Undisturbed (v : ProtocolVersion) (posts : List Posted) : Prop :=
  (∀ post ∈ posts, ∀ w, statedVersion post.msg = some w → w = v.asStr) ∧
    (v = .draft ∨ ∀ post, posts.head? = some post → statedVersion post.msg = some v.asStr)

/-! ## The header of one POST -/

theorem prepare_version (shared : Http.Shared) (msg : JsonRpcMessage) :
    (prepare shared msg).1.version = (statedVersion msg).or shared.version := by
  have hkeys : decide (negotiatedVersionKey ≠ headerParamsKey) = true ∧
      decide (Meta.keys.protocolVersion ≠ headerParamsKey) = true := by decide
  have hstated : statedVersion (extractHeaderParams msg).1 = statedVersion msg := by
    cases msg with
    | request req =>
        show ((Meta.entry _ (Meta.retainMeta _ _)).bind _).or
          ((Meta.entry _ (Meta.retainMeta _ _)).bind _) = _
        rw [Meta.entry_retainMeta, if_pos hkeys.1, Meta.entry_retainMeta, if_pos hkeys.2]
        rfl
    | notification n => rfl
    | response r => rfl
  show (statedVersion (extractHeaderParams msg).1).or shared.version = _
  rw [hstated]

theorem prepare_headers (shared : Http.Shared) (msg : JsonRpcMessage) :
    ∃ msg' mirrors, (prepare shared msg).2.headers =
      (headerLines shared (prepare shared msg).1.version msg' mirrors).mapM toLine :=
  ⟨_, _, rfl⟩

theorem find_version_headerLines (shared : Http.Shared) (version : Option String) (msg : JsonRpcMessage)
    (mirrors : List (String × String)) :
    (headerLines shared version msg mirrors).find? (fun line =>
        McpHeaders.asciiLower line.1 = headerNames.protocolVersion) =
      version.map fun v => (headerNames.protocolVersion, v) := by
  have hconst : ∀ n ∈ ["accept", "content-type", headerNames.sessionId, headerNames.mcpMethod,
      headerNames.mcpName], McpHeaders.asciiLower n ≠ headerNames.protocolVersion := by decide
  have hself : McpHeaders.asciiLower headerNames.protocolVersion = headerNames.protocolVersion := by
    decide
  have hmirrors : (mirrors.map fun e => ("Mcp-Param-" ++ e.1, e.2)).find? (fun line =>
      McpHeaders.asciiLower line.1 = headerNames.protocolVersion) = none := by
    rw [List.find?_eq_none]
    intro line hline
    obtain ⟨e, -, rfl⟩ := List.mem_map.mp hline
    rw [asciiLower_paramName]
    simpa using paramName_ne (by decide)
  have hsession : (shared.session.map fun sid => (headerNames.sessionId, sid)).toList.find?
      (fun line => McpHeaders.asciiLower line.1 = headerNames.protocolVersion) = none := by
    cases shared.session with
    | none => rfl
    | some sid => simpa using hconst headerNames.sessionId (by simp)
  unfold headerLines
  rw [List.find?_append, List.find?_append, List.find?_append, List.find?_append, hsession,
    hmirrors]
  have hfixed : [("accept", "application/json, text/event-stream"),
      ("content-type", "application/json")].find? (fun line =>
        McpHeaders.asciiLower line.1 = headerNames.protocolVersion) = none := by decide
  rw [hfixed]
  cases version with
  | none =>
      have hnone : standardLines none msg = [] := by
        unfold standardLines
        cases msg with
        | request r => rfl
        | notification n => rfl
        | response r => rfl
      rw [hnone]
      rfl
  | some v => simp [hself]

/-- The header an intermediary reads is the resolved version. -/
theorem header_eq_version {shared : Http.Shared} {msg : JsonRpcMessage} {headers : HeaderMap}
    (h : (prepare shared msg).2.headers = some headers) :
    headers.get headerNames.protocolVersion =
      (prepare shared msg).1.version.bind HeaderValue.fromStr := by
  obtain ⟨msg', mirrors, hprepared⟩ := prepare_headers shared msg
  rw [hprepared] at h
  have hfind := find_version_headerLines shared (prepare shared msg).1.version msg' mirrors
  obtain rfl := eq_of_mapM_toLine h
  rw [get_map_lineOf, hfind, Option.map_map]
  cases hversion : (prepare shared msg).1.version with
  | none => rfl
  | some v =>
      have hmem : (headerNames.protocolVersion, v) ∈
          headerLines shared (prepare shared msg).1.version msg' mirrors := by
        rw [hversion] at hfind ⊢
        exact List.mem_of_find?_eq_some hfind
      exact (fromStr_of_mapM_toLine h hmem).symm

/-! ## Handshakes -/

variable {b : ClientBuilder}

/-- A message that states no version but the draft's. -/
def Modest (msg : JsonRpcMessage) : Prop :=
  ∀ w, statedVersion msg = some w → w = ProtocolVersion.draft.asStr

/-- The versions a client in this mode can settle on. -/
def Reachable (b : ClientBuilder) (v : ProtocolVersion) : Prop :=
  (v = .draft ∧ b.connectMode ≠ .legacy) ∨ v = .v2025_11_25

/-- A handshake asks modestly, and notifies last. -/
def Proper (b : ClientBuilder) : Handshaking → Prop
  | .ret result => ∀ h, result = .ok h → Reachable b h.version
  | .call (.request method params) k =>
      (∀ id, Modest (.request { id, method, params })) ∧ ∀ r, Proper b (k r)
  | .call (.notify _ _) k => ∃ h, k (.ok ()) = .ret (.ok h) ∧ Reachable b h.version

theorem stated_discover (b : ClientBuilder) (id : RequestId) :
    statedVersion (.request { id, method := "server/discover", params := some b.discoverParams }) =
      some ProtocolVersion.draft.asStr := rfl

theorem proper_legacy (b : ClientBuilder) : Proper b b.legacyHandshake := by
  refine ⟨?_, ?_⟩
  · intro id w hw
    cases hw
  · intro r
    cases r with
    | error e => exact nofun
    | ok result => exact ⟨_, rfl, Or.inr rfl⟩

/-- Falling back starts over; any other error ends the handshake. -/
theorem proper_handshake (b : ClientBuilder) : Proper b b.handshake := by
  have hprobe : ∀ id, Modest (.request
      { id, method := "server/discover", params := some b.discoverParams }) := by
    intro id w hw
    rw [stated_discover] at hw
    exact (Option.some.inj hw).symm
  unfold ClientBuilder.handshake
  cases hmode : b.connectMode with
  | modern =>
      refine ⟨hprobe, ?_⟩
      intro r
      cases r with
      | error e => exact nofun
      | ok result =>
          rintro h ⟨⟩
          exact Or.inl ⟨rfl, by rw [hmode]; decide⟩
  | legacy => exact proper_legacy b
  | auto =>
      refine ⟨hprobe, ?_⟩
      intro r
      cases r with
      | error e =>
          show Proper b (if _ then _ else _)
          split
          · exact proper_legacy b
          · exact nofun
      | ok result =>
          rintro h ⟨⟩
          exact Or.inl ⟨rfl, by rw [hmode]; decide⟩

/-- The first request; a modern client's states the draft, and without an answer
the handshake fails. -/
theorem handshake_first (b : ClientBuilder) :
    ∃ method params k, b.handshake = .call (.request method params) k ∧
      (b.connectMode ≠ .legacy → ∀ id,
        statedVersion (.request { id, method, params }) = some ProtocolVersion.draft.asStr) ∧
      ∀ e, ClientBuilder.fallsBack e = false → k (.error e) = .ret (.error e) := by
  unfold ClientBuilder.handshake
  cases hmode : b.connectMode with
  | modern => exact ⟨_, _, _, rfl, fun _ id => stated_discover b id, fun _ _ => rfl⟩
  | legacy => exact ⟨_, _, _, rfl, fun h => absurd rfl h, fun _ _ => rfl⟩
  | auto =>
      refine ⟨_, _, _, rfl, fun _ id => stated_discover b id, ?_⟩
      intro e he
      show (if ClientBuilder.fallsBack e = true then _ else _) = _
      rw [he]
      rfl

theorem reachable_of_settledOn {p : Handshaking} (hp : Proper b p) {v : ProtocolVersion}
    (h : settledOn p = some v) : Reachable b v := by
  cases p with
  | ret result =>
      obtain ⟨hs, hresult, rfl⟩ := Option.map_eq_some_iff.mp h
      cases result with
      | error e => cases hresult
      | ok hs' =>
          cases hresult
          exact hp _ rfl
  | call e k =>
      cases e with
      | request method params => cases h
      | notify method params =>
          obtain ⟨hs, hk, hreach⟩ := hp
          change settledOn (k (.ok ())) = some v at h
          rw [hk] at h
          cases h
          exact hreach

/-! ## What is inherited -/

/-- Each POST has the version it states, or else the one before it. -/
def Inherits : Option String → List Posted → Prop
  | _, [] => True
  | memory, post :: posts =>
      post.version = (statedVersion post.msg).or memory ∧ Inherits post.version posts

def lastVersion (memory : Option String) (posts : List Posted) : Option String :=
  posts.foldl (fun _ post => post.version) memory

theorem Inherits.snoc {memory : Option String} {posts : List Posted} {post : Posted}
    (h : Inherits memory posts)
    (hpost : post.version = (statedVersion post.msg).or (lastVersion memory posts)) :
    Inherits memory (posts ++ [post]) := by
  induction posts generalizing memory with
  | nil => exact ⟨hpost, trivial⟩
  | cons first posts ih => exact ⟨h.1, ih h.2 hpost⟩

theorem lastVersion_snoc (memory : Option String) (posts : List Posted) (post : Posted) :
    lastVersion memory (posts ++ [post]) = post.version := by
  rw [lastVersion, List.foldl_append]
  rfl

/-- All POSTs carry `w` iff none states anything else, and `w` is there from the
start or stated first. -/
theorem Inherits.forall_iff {memory : Option String} {posts : List Posted}
    (h : Inherits memory posts) (w : String) :
    (∀ post ∈ posts, post.version = some w) ↔
      (∀ post ∈ posts, ∀ u, statedVersion post.msg = some u → u = w) ∧
        (memory = some w ∨ ∀ post, posts.head? = some post → statedVersion post.msg = some w) := by
  induction posts generalizing memory with
  | nil => simp
  | cons post posts ih =>
      obtain ⟨hpost, hposts⟩ := h
      have ih := ih hposts
      rw [List.forall_mem_cons, List.forall_mem_cons]
      simp only [List.head?_cons, Option.some.injEq, forall_eq']
      cases hstated : statedVersion post.msg with
      | none =>
          rw [hstated, Option.none_or] at hpost
          rw [hpost] at ih ⊢
          constructor
          · rintro ⟨hmemory, hall⟩
            exact ⟨⟨nofun, (ih.mp hall).1⟩, Or.inl hmemory⟩
          · rintro ⟨⟨-, hstates⟩, hmemory | hfirst⟩
            · exact ⟨hmemory, ih.mpr ⟨hstates, Or.inl hmemory⟩⟩
            · cases hfirst
      | some u =>
          rw [hstated, Option.some_or] at hpost
          rw [hpost] at ih ⊢
          constructor
          · rintro ⟨hu, hall⟩
            refine ⟨⟨?_, (ih.mp hall).1⟩, Or.inr hu⟩
            rintro u' ⟨⟩
            exact Option.some.inj hu
          · rintro ⟨⟨hu, hstates⟩, -⟩
            have hu : some u = some w := congrArg some (hu u rfl)
            exact ⟨hu, ih.mpr ⟨hstates, Or.inl hu⟩⟩

/-! ## What a step does -/

section

variable {s t : State} {v : ProtocolVersion}

theorem step_ask (h : step s .ask = some t) :
    ∃ method params k, s.conv = .call (.request method params) k ∧
      t = { s with
        asked := true, nextId := s.nextId + 1
        tasks := s.tasks ++ [.request { id := .number s.nextId, method, params }] } := by
  simp only [step] at h
  split at h
  · rename_i method params k hconv
    split at h
    · cases h
    · exact ⟨method, params, k, hconv, (Option.some.inj h).symm⟩
  · cases h

theorem step_reply {r : Except ClientError Value} (h : step s (.reply r) = some t) :
    ∃ method params k, s.conv = .call (.request method params) k ∧ arrives s r = true ∧
      t = { s with
        conv := k r, asked := false, settled := s.settled.or (settledOn (k r)) } := by
  simp only [step] at h
  split at h
  · rename_i method params k hconv
    split at h
    · rename_i harrives
      rw [Bool.and_eq_true] at harrives
      exact ⟨method, params, k, hconv, harrives.2, (Option.some.inj h).symm⟩
    · cases h
  · cases h

theorem step_tell {r : Except ClientError Unit} (h : step s (.tell r) = some t) :
    ∃ method params k sent, s.conv = .call (.notify method params) k ∧
      t = { s with conv := k r, tasks := s.tasks ++ sent } := by
  simp only [step] at h
  split at h
  · rename_i method params k hconv
    exact ⟨method, params, k, _, hconv, (Option.some.inj h).symm⟩
  · cases h

theorem step_answer {resp : JsonRpcResponse} (h : step s (.answer resp) = some t) :
    s.posts ≠ [] ∧ t = { s with tasks := s.tasks ++ [.response resp] } := by
  simp only [step] at h
  split at h
  · cases h
  · rename_i hposts
    exact ⟨fun hnil => hposts (by rw [hnil]; rfl), (Option.some.inj h).symm⟩

theorem step_submit {msg : JsonRpcMessage} (h : step s (.submit msg) = some t) :
    ∃ hs, s.conv = .ret (.ok hs) ∧ t = { s with tasks := s.tasks ++ [msg] } := by
  simp only [step] at h
  split at h
  · rename_i hs hconv
    exact ⟨hs, hconv, (Option.some.inj h).symm⟩
  · cases h

theorem step_run {i : Nat} (h : step s (.run i) = some t) :
    ∃ msg ∈ s.tasks, t = s.posted msg (s.tasks.eraseIdx i) := by
  obtain ⟨msg, hmsg, rfl⟩ := Option.map_eq_some_iff.mp h
  exact ⟨msg, List.mem_of_getElem? hmsg, rfl⟩

/-- Whatever is settled on stays, and only a task's run makes a POST. -/
theorem step_cases {a : Label} (h : step s a = some t) :
    (∀ v, s.settled = some v → t.settled = some v) ∧
      ((t.posts = s.posts ∧ t.shared.version = s.shared.version) ∨
        ∃ msg tasks, t = s.posted msg tasks) := by
  cases a with
  | ask =>
      obtain ⟨method, params, k, -, rfl⟩ := step_ask h
      exact ⟨fun v hv => hv, Or.inl ⟨rfl, rfl⟩⟩
  | reply r =>
      obtain ⟨method, params, k, -, -, rfl⟩ := step_reply h
      exact ⟨fun v hv => by simp [hv], Or.inl ⟨rfl, rfl⟩⟩
  | tell r =>
      obtain ⟨method, params, k, sent, -, rfl⟩ := step_tell h
      exact ⟨fun v hv => hv, Or.inl ⟨rfl, rfl⟩⟩
  | answer resp =>
      obtain ⟨-, rfl⟩ := step_answer h
      exact ⟨fun v hv => hv, Or.inl ⟨rfl, rfl⟩⟩
  | submit msg =>
      obtain ⟨hs, -, rfl⟩ := step_submit h
      exact ⟨fun v hv => hv, Or.inl ⟨rfl, rfl⟩⟩
  | run i =>
      obtain ⟨msg, -, rfl⟩ := step_run h
      exact ⟨fun v hv => hv, Or.inr ⟨msg, _, rfl⟩⟩
  | arrived resp =>
      obtain rfl := Option.some.inj h
      exact ⟨fun v hv => hv, Or.inl ⟨rfl, rfl⟩⟩

/-! ### Posting -/

theorem posted_version (s : State) (msg : JsonRpcMessage) (tasks : List JsonRpcMessage) :
    (s.posted msg tasks).shared.version = (statedVersion msg).or s.shared.version :=
  prepare_version s.shared msg

theorem late_posted_of_none (h : s.settled = none) (msg : JsonRpcMessage)
    (tasks : List JsonRpcMessage) : (s.posted msg tasks).late = s.late := by
  unfold State.late State.posted
  simp [h]

theorem late_posted (h : s.settled = some v) (msg : JsonRpcMessage)
    (tasks : List JsonRpcMessage) :
    ∃ post, (s.posted msg tasks).late = s.late ++ [post] ∧ post.msg = msg ∧
      post.version = (s.posted msg tasks).shared.version := by
  refine ⟨⟨s.settled, msg, (prepare s.shared msg).1.version, (prepare s.shared msg).2⟩, ?_, rfl,
    rfl⟩
  unfold State.late State.posted
  simp [h]

/-! ## The invariant -/

/-- Until it settles, a client has asked with the draft's version or with none;
unless it is a legacy client, its first POST has been the draft's probe. -/
structure Before (b : ClientBuilder) (s : State) : Prop where
  proper : Proper b s.conv
  unsettled : settledOn s.conv = none
  tasks : ∀ msg ∈ s.tasks, Modest msg
  memory : ∀ w, s.shared.version = some w → w = ProtocolVersion.draft.asStr
  quiet : s.posts = [] → (s.conv = b.handshake ∨ ∃ e, s.conv = .ret (.error e)) ∧
    (b.connectMode ≠ .legacy →
      ∀ msg ∈ s.tasks, statedVersion msg = some ProtocolVersion.draft.asStr)
  probed : s.posts ≠ [] → b.connectMode ≠ .legacy →
    s.shared.version = some ProtocolVersion.draft.asStr
  early : s.late = []

/-- From then on each POST inherits, from a version that is right for the draft
only. -/
def After (v : ProtocolVersion) (s : State) : Prop :=
  ∃ memory, (memory = some v.asStr ↔ v = .draft) ∧ Inherits memory s.late ∧
    s.shared.version = lastVersion memory s.late

def Inv (b : ClientBuilder) (s : State) : Prop :=
  match s.settled with
  | none => Before b s
  | some v => After v s

theorem inv_of_none (h : s.settled = none) : Inv b s ↔ Before b s := by
  unfold Inv
  rw [h]

theorem Before.inv (h : Before b s) (hnone : s.settled = none) : Inv b s :=
  (inv_of_none hnone).mpr h

theorem inv_of_some (h : s.settled = some v) : Inv b s ↔ After v s := by
  unfold Inv
  rw [h]

theorem before_initial (b : ClientBuilder) : Before b (State.initial b) := by
  obtain ⟨method, params, k, hfirst, -, -⟩ := handshake_first b
  refine ⟨proper_handshake b, ?_, nofun, nofun, fun _ => ⟨Or.inl rfl, nofun⟩, nofun, rfl⟩
  show settledOn b.handshake = none
  rw [hfirst]
  rfl

theorem After.step {a : Label} (h : step s a = some t) (hinv : After v s)
    (hv : s.settled = some v) : After v t := by
  obtain ⟨memory, hmemory, hinherits, hlast⟩ := hinv
  rcases (step_cases h).2 with ⟨hposts, hversion⟩ | ⟨msg, tasks, rfl⟩
  · have hlate : t.late = s.late := by
      unfold State.late
      rw [hposts]
    exact ⟨memory, hmemory, hlate ▸ hinherits, by rw [hversion, hlate, hlast]⟩
  · obtain ⟨post, hlate, rfl, hpost⟩ := late_posted hv msg tasks
    refine ⟨memory, hmemory, ?_, ?_⟩
    · rw [hlate]
      refine hinherits.snoc ?_
      rw [hpost, posted_version, hlast]
    · rw [hlate, lastVersion_snoc, hpost]

/-- A client that has not settled still asks, or has failed. -/
theorem Before.conv_cases (h : Before b s) :
    (∃ method params k, s.conv = .call (.request method params) k) ∨
      ∃ e, s.conv = .ret (.error e) := by
  have hproper := h.proper
  have hunsettled := h.unsettled
  cases hconv : s.conv with
  | ret result =>
      rw [hconv] at hunsettled
      cases result with
      | error e => exact Or.inr ⟨e, rfl⟩
      | ok hs => cases hunsettled
  | call e k =>
      rw [hconv] at hproper hunsettled
      cases e with
      | request method params => exact Or.inl ⟨method, params, k, rfl⟩
      | notify method params =>
          obtain ⟨hs, hk, -⟩ := hproper
          change settledOn (k (.ok ())) = none at hunsettled
          rw [hk] at hunsettled
          cases hunsettled

theorem Before.ask {method : String} {params : Option Value}
    {k : Except ClientError Value → Handshaking} (h : Before b s)
    (hconv : s.conv = .call (.request method params) k) :
    Before b { s with
      asked := true, nextId := s.nextId + 1
      tasks := s.tasks ++ [.request { id := .number s.nextId, method, params }] } := by
  have hproper := h.proper
  rw [hconv] at hproper
  refine ⟨h.proper, h.unsettled, ?_, h.memory, ?_, h.probed, h.early⟩
  · intro msg hmsg
    rcases List.mem_append.mp hmsg with hmsg | hmsg
    · exact h.tasks msg hmsg
    · rw [List.mem_singleton] at hmsg
      rw [hmsg]
      exact hproper.1 _
  · intro hposts
    obtain ⟨hstill, hprobes⟩ := h.quiet hposts
    refine ⟨hstill, ?_⟩
    intro hmode msg hmsg
    rcases List.mem_append.mp hmsg with hmsg | hmsg
    · exact hprobes hmode msg hmsg
    · rw [List.mem_singleton] at hmsg
      rw [hmsg]
      -- nothing was POSTed, so this is the handshake's first request
      obtain ⟨method', params', k', hfirst, hstates, -⟩ := handshake_first b
      rcases hstill with hstill | ⟨e, hfailed⟩
      · rw [hconv, hfirst] at hstill
        cases hstill
        exact hstates hmode _
      · rw [hconv] at hfailed
        cases hfailed

/-- Without a POST no answer comes, and what else ends the wait ends the
handshake. -/
theorem Before.failed {method : String} {params : Option Value}
    {k : Except ClientError Value → Handshaking} (h : Before b s)
    (hconv : s.conv = .call (.request method params) k) (hposts : s.posts = [])
    {r : Except ClientError Value} (harrives : arrives s r = true) :
    ∃ e, k r = .ret (.error e) := by
  obtain ⟨method', params', k', hfirst, -, hfails⟩ := handshake_first b
  have hk : k = k' := by
    rcases (h.quiet hposts).1 with hstill | ⟨e, hfailed⟩
    · rw [hconv, hfirst] at hstill
      cases hstill
      rfl
    · rw [hconv] at hfailed
      cases hfailed
  subst hk
  cases r with
  | ok result =>
      simp [arrives, hposts] at harrives
  | error e =>
      cases e with
      | rpc error => simp [arrives, hposts] at harrives
      | closed => exact ⟨_, hfails _ rfl⟩
      | timeout => exact ⟨_, hfails _ rfl⟩
      | decode msg => cases harrives
      | protocol msg => cases harrives

theorem Inv.reply {method : String} {params : Option Value}
    {k : Except ClientError Value → Handshaking} (h : Before b s) (hnone : s.settled = none)
    (hconv : s.conv = .call (.request method params) k) {r : Except ClientError Value}
    (harrives : arrives s r = true) :
    Inv b { s with conv := k r, asked := false, settled := s.settled.or (settledOn (k r)) } := by
  have hproper := h.proper
  rw [hconv] at hproper
  cases hsettled : settledOn (k r) with
  | none =>
      rw [inv_of_none (by rw [hnone]; rfl)]
      refine ⟨hproper.2 r, hsettled, h.tasks, h.memory, ?_, h.probed, h.early⟩
      intro hposts
      obtain ⟨e, he⟩ := h.failed hconv hposts harrives
      exact ⟨Or.inr ⟨e, he⟩, (h.quiet hposts).2⟩
  | some v =>
      rw [inv_of_some (show s.settled.or (some v) = some v by rw [hnone]; rfl)]
      have hposts : s.posts ≠ [] := by
        intro hposts
        obtain ⟨e, he⟩ := h.failed hconv hposts harrives
        rw [he] at hsettled
        cases hsettled
      have hlate : s.late = [] := h.early
      refine ⟨s.shared.version, ?_, ?_, ?_⟩
      · constructor
        · intro hmemory
          have hdraft := h.memory _ hmemory
          rcases reachable_of_settledOn (hproper.2 r) hsettled with ⟨rfl, -⟩ | rfl
          · rfl
          · exact absurd hdraft (by decide)
        · rintro rfl
          rcases reachable_of_settledOn (hproper.2 r) hsettled with ⟨-, hmode⟩ | hdated
          · exact h.probed hposts hmode
          · cases hdated
      · show Inherits _ s.late
        rw [hlate]
        trivial
      · show _ = lastVersion _ s.late
        rw [hlate]
        rfl

theorem Before.answer (h : Before b s) (hposts : s.posts ≠ []) (resp : JsonRpcResponse) :
    Before b { s with tasks := s.tasks ++ [.response resp] } := by
  refine ⟨h.proper, h.unsettled, ?_, h.memory, fun hnil => absurd hnil hposts, h.probed, h.early⟩
  intro msg hmsg
  rcases List.mem_append.mp hmsg with hmsg | hmsg
  · exact h.tasks msg hmsg
  · rw [List.mem_singleton] at hmsg
    rw [hmsg]
    exact nofun

theorem Before.posted (h : Before b s) (hnone : s.settled = none) {msg : JsonRpcMessage}
    (hmsg : msg ∈ s.tasks) {tasks : List JsonRpcMessage} (htasks : tasks ⊆ s.tasks) :
    Before b (s.posted msg tasks) := by
  have hposts : (s.posted msg tasks).posts ≠ [] := by
    unfold State.posted
    simp
  have hversion := posted_version s msg tasks
  refine ⟨h.proper, h.unsettled, fun m hm => h.tasks m (htasks hm), ?_,
    fun hnil => absurd hnil hposts, ?_, ?_⟩
  · intro w hw
    rw [hversion] at hw
    cases hstated : statedVersion msg with
    | none =>
        rw [hstated, Option.none_or] at hw
        exact h.memory w hw
    | some u =>
        rw [hstated, Option.some_or] at hw
        exact h.tasks msg hmsg w (hstated.trans hw)
  · intro _ hmode
    rw [hversion]
    by_cases hempty : s.posts = []
    · rw [(h.quiet hempty).2 hmode msg hmsg]
      rfl
    · rw [h.probed hempty hmode]
      cases hstated : statedVersion msg with
      | none => rfl
      | some u => rw [h.tasks msg hmsg u hstated, Option.some_or]
  · rw [late_posted_of_none hnone, h.early]

/-- **Step lemma**. -/
theorem Inv.step {a : Label} (h : step s a = some t) (hinv : Inv b s) : Inv b t := by
  cases hsettled : s.settled with
  | some v =>
      rw [inv_of_some hsettled] at hinv
      rw [inv_of_some ((step_cases h).1 v hsettled)]
      exact hinv.step h hsettled
  | none =>
      rw [inv_of_none hsettled] at hinv
      cases a with
      | ask =>
          obtain ⟨method, params, k, hconv, rfl⟩ := step_ask h
          exact (hinv.ask hconv).inv hsettled
      | reply r =>
          obtain ⟨method, params, k, hconv, harrives, rfl⟩ := step_reply h
          exact Inv.reply hinv hsettled hconv harrives
      | tell r =>
          obtain ⟨method, params, k, sent, hconv, -⟩ := step_tell h
          rcases hinv.conv_cases with ⟨method', params', k', hasks⟩ | ⟨e, hfailed⟩
          · rw [hconv] at hasks
            cases hasks
          · rw [hconv] at hfailed
            cases hfailed
      | answer resp =>
          obtain ⟨hposts, rfl⟩ := step_answer h
          exact (hinv.answer hposts resp).inv hsettled
      | submit msg =>
          obtain ⟨hs, hconv, -⟩ := step_submit h
          rcases hinv.conv_cases with ⟨method', params', k', hasks⟩ | ⟨e, hfailed⟩
          · rw [hconv] at hasks
            cases hasks
          · rw [hconv] at hfailed
            cases hfailed
      | run i =>
          obtain ⟨msg, hmsg, rfl⟩ := step_run h
          exact (hinv.posted hsettled hmsg List.eraseIdx_subset).inv hsettled
      | arrived resp =>
          obtain rfl := Option.some.inj h
          have hbefore : Before b { s with shared := s.shared.capture resp } :=
            ⟨hinv.proper, hinv.unsettled, hinv.tasks, hinv.memory, hinv.quiet, hinv.probed,
              hinv.early⟩
          exact hbefore.inv hsettled

/-- The POST goes out with its version as the header, or without one. -/
def Shown (post : Posted) : Prop :=
  ∀ headers, post.post.headers = some headers →
    headers.get headerNames.protocolVersion = post.version.bind HeaderValue.fromStr

theorem shown_step {a : Label} (h : step s a = some t) (hshown : ∀ post ∈ s.posts, Shown post) :
    ∀ post ∈ t.posts, Shown post := by
  rcases (step_cases h).2 with ⟨hposts, -⟩ | ⟨msg, tasks, rfl⟩
  · rw [hposts]
    exact hshown
  · intro post hpost
    rcases List.mem_append.mp hpost with hpost | hpost
    · exact hshown post hpost
    · rw [List.mem_singleton] at hpost
      subst hpost
      intro headers hheaders
      exact header_eq_version hheaders

end

/-- **The version header**: from the settling on, every POST carries the settled
version as its header iff no message states another one, and the version is the
draft's or stated by the first message to be POSTed. -/
theorem version_header_iff {tr : List (Label × State)}
    (hrun : Run (fun s a t => step s a = some t) (State.initial b) tr) {s : State}
    (hs : s ∈ states (State.initial b) tr) {v : ProtocolVersion} (hv : s.settled = some v) :
    (Carried v s.late ↔ Undisturbed v s.late) ∧ ∀ post ∈ s.late, Shown post := by
  have hstart : Inv b (State.initial b) := (before_initial b).inv rfl
  have hempty : ∀ post ∈ (State.initial b).posts, Shown post := by
    intro post hpost
    cases hpost
  have hinv : Inv b s := hrun.invariant hstart (fun _ _ _ h hi => Inv.step h hi) s hs
  have hshown : ∀ post ∈ s.posts, Shown post :=
    hrun.invariant hempty (fun _ _ _ h hi => shown_step h hi) s hs
  rw [inv_of_some hv] at hinv
  obtain ⟨memory, hmemory, hinherits, -⟩ := hinv
  refine ⟨?_, fun post hpost => hshown post (List.mem_of_mem_filter hpost)⟩
  unfold Carried Undisturbed
  rw [hinherits.forall_iff, hmemory]

/-! ### A probe that succeeds, and one that is abandoned -/

def autoClient : ClientBuilder :=
  { clientInfo := { name := "client", title := none, version := "1" }, capabilities := .object []
    connectMode := .auto }

def ping : JsonRpcMessage :=
  .request
    { id := .number 2, method := "ping"
      params := some (.object (versionedParams autoClient .draft [])) }

def discovered : List Label := [.ask, .run 0, .reply (.ok (.object [])), .submit ping, .run 0]

theorem ping_carried :
    ∃ s, reach step (State.initial autoClient) discovered = some s ∧ s.settled = some .draft ∧
      Carried .draft s.late := by
  refine ⟨_, rfl, rfl, ?_⟩
  have hreach : reach step (State.initial autoClient) discovered = some _ := rfl
  obtain ⟨tr, hrun, hmem, -⟩ := exists_run_of_reach hreach
  refine (version_header_iff hrun hmem rfl).1.mpr ⟨?_, Or.inl rfl⟩
  intro post hpost w hw
  obtain rfl := List.mem_singleton.mp hpost
  cases hw
  rfl

/-- The server knows no `server/discover`. -/
def abandoned : List Label :=
  [.ask, .run 0, .reply (.error (.rpc unknownMethod)), .ask, .run 0, .reply (.ok (.object [])),
    .tell (.ok ()), .run 0]

/-- **The probe's version stays behind**: a client that falls back confirms the
dated session under the draft's header. -/
theorem abandoned_probe :
    ∃ s, reach step (State.initial autoClient) abandoned = some s ∧
      s.settled = some .v2025_11_25 ∧
      s.late.map (fun post => (post.msg.method, post.version)) =
        [(some "notifications/initialized", some "2026-07-28")] ∧
      ¬ Carried .v2025_11_25 s.late := by
  refine ⟨_, rfl, rfl, rfl, ?_⟩
  intro h
  have hversion := h _ List.mem_cons_self
  exact absurd hversion (by decide)

end TurboMcp.System.VersionHeader
