import TurboMcp.Lib.Resume
import TurboMcp.Server.OneResponse
import TurboMcp.Server.TaskIsolation

/-!
# A task's result is the call's answer

A `tools/call` with a `task` field is answered at once, and its handler runs
detached: what it returns is recorded in the task store, and `tasks/result`
hands it out.  The same call without the field is answered with what its
handler returns.  The two paths are written apart and come to the same answer,
for every handler that looks at its parameters and context only.
-/

namespace TurboMcp.Server

open TurboMcp.Core TurboMcp.Lib

variable {N : Type}

namespace TaskRoom

open TaskStore

variable {rfc3339 : Nat → String} {s t : TaskRoom} {c : TaskCall}

/-! ## A task that stays -/

theorem get_purged_of_unexpired {st : TaskStore} {now : Nat} {id : String} {e : TaskEntry}
    (he : st.inner.get id = some e) (hexp : e.expired now = false) :
    (st.purgeExpired now).inner.get id = some e :=
  (get_purged_iff st now id e).mpr ⟨he, hexp⟩

theorem get_setEntry_send (st : TaskStore) (id id' : String) (e : TaskEntry) (notify : Nat) :
    ((st.setEntry id e).send notify).inner.get id' =
      if id = id' then some e else st.inner.get id' :=
  Dict.get_insert ..

/-- **Persistence**: a task that has not expired is there after a step as it
was, or has ended in it. -/
theorem persists (h : Step rfc3339 s c t) {id : String} {e : TaskEntry} (hmint : id ∈ s.minted)
    (he : s.store.inner.get id = some e) (hexp : e.expired c.now = false) :
    t.store.inner.get id = some e ∨ ∃ e' r, t.store.inner.get id = some e' ∧ Finishes e e' r ∧
      e.sessionId = c.session ∧
      (c.act = .complete id r ∨ c.act = .cancel id ∧ r = .error taskCancelled) := by
  obtain ⟨hadm, rfl⟩ := h
  obtain ⟨now, nowWall, caller, act⟩ := c
  have hpurged := get_purged_of_unexpired he hexp
  cases act with
  | create ttl cancel id' notify =>
      left
      show (s.store.create rfc3339 now nowWall id' notify caller ttl cancel).1.inner.get id = some e
      unfold TaskStore.create
      dsimp only
      split
      · exact hpurged
      · unfold setEntry
        dsimp only
        rw [Dict.get_insert, if_neg]
        · exact hpurged
        · rintro rfl
          exact hadm.1 hmint
  | complete id' outcome =>
      show (s.store.complete nowWall id' outcome).inner.get id = some e ∨ ∃ e' r,
        (s.store.complete nowWall id' outcome).inner.get id = some e' ∧ _
      rcases complete_cases s.store nowWall id' outcome with hsame | ⟨e₀, e₁, h₀, hfin, hst⟩
      · rw [hsame]
        exact Or.inl he
      · rw [hst, get_setEntry_send]
        split
        · rename_i heq
          subst heq
          obtain rfl := Option.some.inj (he.symm.trans h₀)
          exact Or.inr ⟨e₁, outcome, rfl, hfin, hadm e h₀, Or.inl rfl⟩
        · exact Or.inl he
  | cancel id' =>
      show (s.store.cancel rfc3339 now nowWall caller id').1.inner.get id = some e ∨ ∃ e' r,
        (s.store.cancel rfc3339 now nowWall caller id').1.inner.get id = some e' ∧ _
      rcases cancel_cases s.store rfc3339 now nowWall caller id' with
        hsame | ⟨e₀, e₁, hown, hfin, hst⟩
      · rw [hsame]
        exact Or.inl hpurged
      · rw [hst, get_setEntry_send]
        split
        · rename_i heq
          subst heq
          obtain ⟨h₀, hsession⟩ := own_eq_some.mp hown
          obtain rfl := Option.some.inj (he.symm.trans (get_of_purged h₀))
          exact Or.inr ⟨e₁, _, rfl, hfin, hsession, Or.inr ⟨rfl, rfl⟩⟩
        · exact Or.inl hpurged
  | get id' =>
      left
      show (s.store.get rfc3339 now caller id').1.inner.get id = some e
      rw [get_fst]
      exact hpurged
  | list cursor pageSize order =>
      left
      show (s.store.list rfc3339 now order caller cursor pageSize).1.inner.get id = some e
      unfold TaskStore.list
      split
      · exact he
      · exact hpurged
  | wait w id' => exact Or.inl he
  | resume w =>
      left
      rcases hw : s.waiters.get w with _ | waiter
      · rw [act_resume_none hw]
        exact he
      · rw [act_resume hw]
        show (s.store.resume now w waiter).1.inner.get id = some e
        rcases resume_inner s.store now w waiter with heq | heq
        · rw [heq]
          exact he
        · rw [heq]
          exact hpurged
  | abandon w =>
      left
      show (s.unsubscribed w).inner.get id = some e
      unfold unsubscribed
      split
      · exact he
      · exact he

/-- A waiter on a stored task of its session returns the task's outcome, and
nothing else. -/
theorem returned_of_stored (hs : s.Kept) {now w : Nat} {waiter : Waiter} {e : TaskEntry}
    (hw : s.waiters.get w = some waiter) (he : s.store.inner.get waiter.id = some e)
    (hsession : e.sessionId = waiter.sessionId) (hexp : e.expired now = false)
    {res : Except TaskError TaskResult}
    (h : (s.store.resume now w waiter).2 = .returned res) :
    waiter.phase = .returned res ∨
      e.status.isTerminal = true ∧ res = .ok (e.outcome.getD (.error withoutOutcome)) := by
  unfold TaskStore.resume at h
  rcases hphase : waiter.phase with _ | ⟨notify, seen⟩ | result
  · right
    rw [hphase] at h
    have hown : (s.store.purgeExpired now).own waiter.sessionId waiter.id = some e :=
      own_eq_some.mpr ⟨get_purged_of_unexpired he hexp, hsession⟩
    unfold TaskStore.check at h
    dsimp only at h
    rw [hown] at h
    dsimp only at h
    split at h
    · rename_i hterm
      exact ⟨hterm, (WaitPhase.returned.inj h).symm⟩
    · cases h
  · rw [hphase] at h
    dsimp only at h
    split at h
    · cases h
    · -- the entry holds the sender of the channel
      have hopen : s.store.closed notify = false := by
        unfold TaskStore.closed
        rw [List.all_eq_false]
        refine ⟨(waiter.id, e), (Dict.get_eq_some_iff ..).mp he, ?_⟩
        rw [((hs.placed w waiter notify seen hw hphase).2 e he).1]
        simp
      rw [hopen, if_neg (by decide)] at h
      cases h
  · rw [hphase] at h
    exact Or.inl h

/-- The task is stored, with the outcome `r` once it has ended, and who waits
for it as `w` has returned that outcome or nothing yet. -/
structure Holds (id session : String) (w : Nat) (r : TaskResult) (s : TaskRoom) : Prop where
  kept : s.Kept
  minted : id ∈ s.minted
  stored : ∃ e, s.store.inner.get id = some e ∧ e.sessionId = session ∧
    (e.status.isTerminal = true → e.outcome = some r)
  waiting : ∀ waiter res, s.waiters.get w = some waiter → waiter.id = id →
    waiter.sessionId = session → waiter.phase = .returned res → res = .ok r

theorem holds_step {id session : String} {w : Nat} {r : TaskResult} (h : Step rfc3339 s c t)
    (hs : Holds id session w r s)
    (hexp : ∀ e, s.store.inner.get id = some e → e.expired c.now = false)
    (hcomplete : ∀ r', c.act = .complete id r' → r' = r)
    (hcancel : c.act = .cancel id → ∀ e, s.store.inner.get id = some e →
      e.sessionId = c.session → e.status.isTerminal = true) : Holds id session w r t where
  kept := kept_step h hs.kept
  minted := minted_mono h hs.minted
  stored := by
    obtain ⟨e, he, hsession, hrecorded⟩ := hs.stored
    rcases persists h hs.minted he (hexp e he) with
      hsame | ⟨e', r', he', hfin, hcaller, hact | ⟨hact, -⟩⟩
    · exact ⟨e, hsame, hsession, hrecorded⟩
    · refine ⟨e', he', hfin.session.trans hsession, fun _ => ?_⟩
      rw [hfin.outcome, hcomplete r' hact]
    · have hlive := hfin.live
      rw [hcancel hact e he hcaller] at hlive
      cases hlive
  waiting := by
    obtain ⟨e, he, hsession, hrecorded⟩ := hs.stored
    intro waiter' res hw hid hcaller hphase
    rcases waiter_cases h hw with ⟨hold, -⟩ | ⟨_, -, rfl⟩ | ⟨waiter, -, hold, rfl, -⟩
    · exact hs.waiting waiter' res hold hid hcaller hphase
    · cases hphase
    · replace hid : waiter.id = id := hid
      replace hcaller : waiter.sessionId = session := hcaller
      subst hid
      rcases returned_of_stored hs.kept hold he (hsession.trans hcaller.symm) (hexp e he) hphase with
        hbefore | ⟨hterm, rfl⟩
      · exact hs.waiting waiter res hold rfl hcaller hbefore
      · rw [hrecorded hterm]
        rfl

end TaskRoom

/-! ## The server -/

/-- What the spawned handler's result is recorded as.  A `CallToolResult` always
serializes, so the error for one that does not is never recorded. -/
def recordedAs (toValue : N → Except String Value) : Except McpError N → TaskResult
  | .ok result =>
      match toValue result with
      | .ok v => .ok v
      | .error e =>
          .error { code := -32603, message := "serialize result: " ++ e, data := none }
  | .error e => .error (mcpToJsonrpcError e)

def VersionDispatcher.recordedAs (d : VersionDispatcher N) : Except McpError N → TaskResult :=
  Server.recordedAs fun result => .ok (d.wire.result .legacy .callTool result)

/-- The task store with its waiters, and the handlers that were spawned. -/
structure TaskServer where
  room : TaskRoom
  /-- The calls whose handlers still run, by their task. -/
  bodies : Dict String CapabilityCall

/-- The server's parts: its dispatcher and poll interval, its handler, and what
comes from outside. -/
structure TaskSetting (N : Type) where
  d : VersionDispatcher N
  poll : Int
  handler : CapabilityCall → HandlerOutcome N
  rfc3339 : Nat → String
  env : Surroundings N

/-- A step of the server.  `other` is any call that is made on the store
elsewhere: none of them creates a task or completes one. -/
inductive ServerAct
  | augment (req : JsonRpcRequest) (ctx : RequestContext) (cancel : Nat) (id : String)
      (notify : Nat)
  /-- The spawned handler returns. -/
  | finish (id : String)
  /-- The token of the task has fired, and its handler is dropped. -/
  | drop (id : String)
  | other (session : String) (act : TaskAct)
  deriving DecidableEq

structure ServerCall where
  now : Nat
  nowWall : Nat
  act : ServerAct
  deriving DecidableEq

namespace TaskServer

def initial (capacity : Nat) : TaskServer := { room := .initial capacity, bodies := Dict.empty }

/-- The session a request was made in. -/
def caller (req : JsonRpcRequest) : String := (sessionId req.params).getD ""

/-- How the effects of an augmented call are answered: the store creates the
task under the minted `id`, and the handler is spawned. -/
def answer (g : TaskSetting N) (now nowWall : Nat) (cancel : Nat) (id : String) (notify : Nat)
    (st : TaskServer) : (e : Effect) → Answer N e × TaskServer
  | .taskCreate sid ttl =>
      let (store, r) := st.room.store.create g.rfc3339 now nowWall id notify sid ttl cancel
      (r, { st with room := { st.room with store, minted := id :: st.room.minted } })
  | .taskSpawn tid call => ((), { st with bodies := st.bodies.insert tid call })
  | e => (g.env e, st)

/-- The reply to an augmented call, and the server after it. -/
def augment (g : TaskSetting N) (now nowWall : Nat) (req : JsonRpcRequest) (ctx : RequestContext)
    (cancel : Nat) (id : String) (notify : Nat) (st : TaskServer) : JsonRpcMessage × TaskServer :=
  (taskAugmentedCall g.d g.poll ctx req).exec (answer g now nowWall cancel id notify) st

/-- The session of a task, if it is still stored. -/
def owner (st : TaskServer) (id : String) : String :=
  ((st.room.store.inner.get id).map TaskEntry.sessionId).getD ""

/-- A spawned handler completes its own task; any other call is made on the
store as it is. -/
def act (g : TaskSetting N) (st : TaskServer) (c : ServerCall) : TaskServer :=
  match c.act with
  | .augment req ctx cancel id notify => (st.augment g c.now c.nowWall req ctx cancel id notify).2
  | .finish id =>
      match st.bodies.get id with
      | none => st
      | some call =>
          { room := (st.room.act g.rfc3339 ⟨c.now, c.nowWall, st.owner id,
              .complete id (g.d.recordedAs (g.handler call).result)⟩).1
            bodies := st.bodies.remove id }
  | .drop id => { st with bodies := st.bodies.remove id }
  | .other session act =>
      { st with room := (st.room.act g.rfc3339 ⟨c.now, c.nowWall, session, act⟩).1 }

/-- Whether an act of the store is one that is made elsewhere. -/
def isOther : TaskAct → Bool
  | .create _ _ _ _ | .complete _ _ => false
  | _ => true

def Admissible (st : TaskServer) (c : ServerCall) : Prop :=
  match c.act with
  | .augment _ _ _ id notify => id ∉ st.room.minted ∧ st.room.store.watches.get notify = none
  | .finish id => (st.bodies.get id).isSome = true
  | .drop _ => True
  | .other session act =>
      isOther act = true ∧ st.room.Admissible ⟨c.now, c.nowWall, session, act⟩

instance (st : TaskServer) (c : ServerCall) : Decidable (st.Admissible c) :=
  match c with
  | ⟨_, _, .augment _ _ _ _ _⟩ => inferInstanceAs (Decidable (_ ∧ _))
  | ⟨_, _, .finish _⟩ => inferInstanceAs (Decidable (_ = true))
  | ⟨_, _, .drop _⟩ => inferInstanceAs (Decidable True)
  | ⟨_, _, .other _ _⟩ => inferInstanceAs (Decidable (_ ∧ _))

def Step (g : TaskSetting N) (st : TaskServer) (c : ServerCall) (st' : TaskServer) : Prop :=
  st.Admissible c ∧ st.act g c = st'

variable {g : TaskSetting N} {st st' : TaskServer} {c : ServerCall} {now nowWall cancel notify : Nat}
  {req : JsonRpcRequest} {ctx : RequestContext} {id : String}

/-! ## One step -/

/-- The call a spawned handler is run with. -/
def spawned (ctx : RequestContext) (params : Params) : CapabilityCall :=
  { capability := .callTool, ctx, client := none, progress := none, log := none, params }

theorem finish_step (h : Step g st ⟨now, nowWall, .finish id⟩ st') : ∃ call,
    st.bodies.get id = some call ∧
    TaskRoom.Step g.rfc3339 st.room ⟨now, nowWall, st.owner id,
      .complete id (g.d.recordedAs (g.handler call).result)⟩ st'.room ∧
    st'.bodies = st.bodies.remove id := by
  obtain ⟨hbody, rfl⟩ := h
  obtain ⟨call, hcall⟩ := Option.isSome_iff_exists.mp hbody
  unfold act
  dsimp only
  rw [hcall]
  refine ⟨call, rfl, ⟨?_, rfl⟩, rfl⟩
  intro e he
  show e.sessionId = st.owner id
  unfold owner
  rw [he]
  rfl

theorem other_step {session : String} {a : TaskAct}
    (h : Step g st ⟨now, nowWall, .other session a⟩ st') :
    (∀ ttl cancel id notify, a ≠ .create ttl cancel id notify) ∧
    (∀ id outcome, a ≠ .complete id outcome) ∧
    TaskRoom.Step g.rfc3339 st.room ⟨now, nowWall, session, a⟩ st'.room ∧
    st'.bodies = st.bodies := by
  obtain ⟨⟨hother, hadm⟩, rfl⟩ := h
  refine ⟨?_, ?_, ⟨hadm, rfl⟩, rfl⟩
  · rintro ttl cancel id notify rfl
    cases hother
  · rintro id outcome rfl
    cases hother

/-- What creating a task does to the room. -/
def created (g : TaskSetting N) (now nowWall : Nat) (req : JsonRpcRequest) (cancel : Nat)
    (id : String) (notify : Nat) (st : TaskServer) (ttl : Option Int) : TaskRoom × TaskReply :=
  st.room.act g.rfc3339 ⟨now, nowWall, caller req, .create ttl cancel id notify⟩

/-- **Inversion** of an augmented call: it is refused, or a task is created for
it or not, and a created one has its handler spawned. -/
theorem augment_cases (g : TaskSetting N) (st : TaskServer) (now nowWall : Nat)
    (req : JsonRpcRequest) (ctx : RequestContext) (cancel : Nat) (id : String) (notify : Nat) :
    (st.augment g now nowWall req ctx cancel id notify).2 = st ∨
    ∃ ttl, (st.augment g now nowWall req ctx cancel id notify).2.room =
        (created g now nowWall req cancel id notify st ttl).1 ∧
      ((st.augment g now nowWall req ctx cancel id notify).2.bodies = st.bodies ∨
        ∃ params e, parseCallToolParams g.d.texts req.params = .ok params ∧
          g.d.router.tools = true ∧
          (st.augment g now nowWall req ctx cancel id notify).2.bodies =
            st.bodies.insert id (spawned ctx params) ∧
          (created g now nowWall req cancel id notify st ttl).1.store.inner.get id = some e ∧
          e.sessionId = caller req ∧ e.status = .working) := by
  unfold augment taskAugmentedCall
  rcases taskTtl req.params with _ | ttl
  · exact Or.inl rfl
  · dsimp only
    rcases hparams : parseCallToolParams g.d.texts req.params with e | params
    · exact Or.inl rfl
    · dsimp only
      by_cases htools : g.d.router.tools = true
      · right
        refine ⟨ttl, ?_⟩
        rw [if_pos htools, Program.exec_bind]
        rcases hcreate : st.room.store.create g.rfc3339 now nowWall id notify (caller req) ttl
          cancel with ⟨store, r⟩
        have hexec : Program.exec (answer g now nowWall cancel id notify)
            (Dispatch.taskCreate (caller req) ttl) st =
              (r, { st with room := { st.room with store, minted := id :: st.room.minted } }) := by
          show answer g now nowWall cancel id notify st (.taskCreate (caller req) ttl) = _
          unfold answer
          dsimp only
          rw [hcreate]
          rfl
        unfold caller at hexec
        rw [hexec]
        have hroom : (created g now nowWall req cancel id notify st ttl).1 =
            { st.room with store, minted := id :: st.room.minted } := by
          unfold created TaskRoom.act
          dsimp only
          rw [hcreate]
        rw [hroom]
        rcases r with e | snap
        · exact ⟨rfl, Or.inl rfl⟩
        · refine ⟨rfl, Or.inr ?_⟩
          unfold TaskStore.create at hcreate
          dsimp only at hcreate
          split at hcreate
          · cases hcreate
          · obtain ⟨rfl, hsnap⟩ := Prod.ext_iff.mp hcreate
            cases hsnap
            exact ⟨params, _, rfl, htools, rfl, Dict.get_insert_self .., rfl, rfl⟩
      · rw [if_neg htools]
        exact Or.inl rfl

theorem augment_step (h : Step g st ⟨now, nowWall, .augment req ctx cancel id notify⟩ st') :
    id ∉ st.room.minted ∧ (st' = st ∨
      (∃ ttl, TaskRoom.Step g.rfc3339 st.room
        ⟨now, nowWall, caller req, .create ttl cancel id notify⟩ st'.room) ∧
      id ∈ st'.room.minted ∧
      (st'.bodies = st.bodies ∨ ∃ params e, parseCallToolParams g.d.texts req.params = .ok params ∧
        g.d.router.tools = true ∧ st'.bodies = st.bodies.insert id (spawned ctx params) ∧
        st'.room.store.inner.get id = some e ∧ e.sessionId = caller req ∧ e.status = .working)) := by
  obtain ⟨hadm, rfl⟩ := h
  refine ⟨hadm.1, ?_⟩
  rcases augment_cases g st now nowWall req ctx cancel id notify with
    hsame | ⟨ttl, hroom, hbodies⟩
  · exact Or.inl hsame
  · refine Or.inr ⟨⟨ttl, hadm, hroom.symm⟩, ?_, ?_⟩
    · show id ∈ (st.augment g now nowWall req ctx cancel id notify).2.room.minted
      rw [hroom]
      exact List.mem_cons_self
    · rw [← hroom] at hbodies
      exact hbodies

/-- A tasks/cancel that reaches the running task. -/
def Cancels (id : String) (st : TaskServer) (c : ServerCall) : Prop :=
  ∃ session e, c.act = .other session (.cancel id) ∧ st.room.store.inner.get id = some e ∧
    e.sessionId = session ∧ e.status.isTerminal = false

/-- The task expires before the step. -/
def Expires (id : String) (st : TaskServer) (c : ServerCall) : Prop :=
  ∃ e, st.room.store.inner.get id = some e ∧ e.expired c.now = true

/-- The task of a spawned call, while the handler runs and after. -/
structure Follows (g : TaskSetting N) (id session : String) (call : CapabilityCall) (w : Nat)
    (st : TaskServer) : Prop where
  room : TaskRoom.Holds id session w (g.d.recordedAs (g.handler call).result) st.room
  body : ∀ call', st.bodies.get id = some call' → call' = call

theorem follows_step {session : String} {call : CapabilityCall} {w : Nat}
    (h : Step g st c st') (hs : Follows g id session call w st) (hcancel : ¬ Cancels id st c)
    (hexpire : ¬ Expires id st c) : Follows g id session call w st' := by
  have hexp : ∀ e, st.room.store.inner.get id = some e → e.expired c.now = false := by
    intro e he
    rw [← Bool.not_eq_true]
    exact fun hexp => hexpire ⟨e, he, hexp⟩
  obtain ⟨now, nowWall, act⟩ := c
  cases act with
  | augment req ctx cancel id' notify =>
      obtain ⟨hnew, hsame | ⟨⟨ttl, hstep⟩, -, hbodies⟩⟩ := augment_step h
      · rw [hsame]
        exact hs
      · have hne : id' ≠ id := by
          rintro rfl
          exact hnew hs.room.minted
        refine ⟨TaskRoom.holds_step hstep hs.room hexp nofun nofun, ?_⟩
        intro call' hcall'
        rcases hbodies with hbodies | ⟨params, _, -, -, hbodies, -⟩
        · rw [hbodies] at hcall'
          exact hs.body call' hcall'
        · rw [hbodies, Dict.get_insert, if_neg hne] at hcall'
          exact hs.body call' hcall'
  | finish id' =>
      obtain ⟨call', hbody, hstep, hbodies⟩ := finish_step h
      refine ⟨TaskRoom.holds_step hstep hs.room hexp ?_ nofun, ?_⟩
      · rintro r ⟨⟩
        rw [hs.body call' hbody]
      · intro call'' hcall''
        rw [hbodies, Dict.get_remove] at hcall''
        split at hcall''
        · cases hcall''
        · exact hs.body call'' hcall''
  | drop id' =>
      obtain ⟨-, rfl⟩ := h
      refine ⟨hs.room, ?_⟩
      intro call' hcall'
      replace hcall' : (st.bodies.remove id').get id = some call' := hcall'
      rw [Dict.get_remove] at hcall'
      split at hcall'
      · cases hcall'
      · exact hs.body call' hcall'
  | other session' act =>
      obtain ⟨-, hcomplete, hstep, hbodies⟩ := other_step h
      refine ⟨TaskRoom.holds_step hstep hs.room hexp ?_ ?_, ?_⟩
      · intro r hact
        exact absurd hact (hcomplete id r)
      · intro hact e he hsession
        rw [← Bool.not_eq_false]
        intro hlive
        replace hact : act = .cancel id := hact
        exact hcancel ⟨session', e, by rw [hact], he, hsession, hlive⟩
      · rw [hbodies]
        exact hs.body

/-! ## From the start -/

/-- The handlers that run were spawned under minted ids. -/
structure Ready (st : TaskServer) : Prop where
  kept : st.room.Kept
  bodies : ∀ id call, st.bodies.get id = some call → id ∈ st.room.minted

theorem ready_initial (capacity : Nat) : (initial capacity).Ready where
  kept := TaskRoom.kept_initial capacity
  bodies := by
    intro id call hcall
    cases hcall

theorem ready_step (h : Step g st c st') (hs : st.Ready) : st'.Ready := by
  obtain ⟨now, nowWall, act⟩ := c
  cases act with
  | augment req ctx cancel id notify =>
      obtain ⟨hnew, hsame | ⟨⟨ttl, hstep⟩, hmint, hbodies⟩⟩ := augment_step h
      · rw [hsame]
        exact hs
      · refine ⟨TaskRoom.kept_step hstep hs.kept, ?_⟩
        intro id' call hcall
        rcases hbodies with hbodies | ⟨params, _, -, -, hbodies, -⟩
        · rw [hbodies] at hcall
          exact TaskRoom.minted_mono hstep (hs.bodies id' call hcall)
        · rw [hbodies, Dict.get_insert] at hcall
          split at hcall
          · rename_i heq
            subst heq
            exact hmint
          · exact TaskRoom.minted_mono hstep (hs.bodies id' call hcall)
  | finish id =>
      obtain ⟨call', -, hstep, hbodies⟩ := finish_step h
      refine ⟨TaskRoom.kept_step hstep hs.kept, ?_⟩
      intro id' call hcall
      rw [hbodies, Dict.get_remove] at hcall
      split at hcall
      · cases hcall
      · exact TaskRoom.minted_mono hstep (hs.bodies id' call hcall)
  | drop id =>
      obtain ⟨-, rfl⟩ := h
      refine ⟨hs.kept, ?_⟩
      intro id' call hcall
      replace hcall : (st.bodies.remove id).get id' = some call := hcall
      rw [Dict.get_remove] at hcall
      split at hcall
      · cases hcall
      · exact hs.bodies id' call hcall
  | other session act =>
      obtain ⟨-, -, hstep, hbodies⟩ := other_step h
      refine ⟨TaskRoom.kept_step hstep hs.kept, ?_⟩
      intro id' call hcall
      rw [hbodies] at hcall
      exact TaskRoom.minted_mono hstep (hs.bodies id' call hcall)

/-- A task whose handler was just spawned is followed from there on, for whoever
has not asked for its result yet. -/
theorem follows_of_augment {call : CapabilityCall} {w : Nat}
    (h : Step g st ⟨now, nowWall, .augment req ctx cancel id notify⟩ st') (hs : st.Ready)
    (hspawned : st'.bodies.get id = some call) (hw : st'.room.waiters.get w = none) :
    (∃ params, parseCallToolParams g.d.texts req.params = .ok params ∧ g.d.router.tools = true ∧
      call = spawned ctx params) ∧ Follows g id (caller req) call w st' := by
  have hready := ready_step h hs
  obtain ⟨hnew, hcases⟩ := augment_step h
  have hnone {call : CapabilityCall} (hcall : st.bodies.get id = some call) : False :=
    hnew (hs.bodies id call hcall)
  rcases hcases with hsame | ⟨-, hmint, hbodies | ⟨params, e, hparams, htools, hbodies, he,
    hsession, hrunning⟩⟩
  · rw [hsame] at hspawned
    exact (hnone hspawned).elim
  · rw [hbodies] at hspawned
    exact (hnone hspawned).elim
  · have hinsert := hspawned
    rw [hbodies, Dict.get_insert_self] at hinsert
    refine ⟨⟨params, hparams, htools, (Option.some.inj hinsert).symm⟩, ?_, ?_⟩
    · refine ⟨hready.kept, hmint, ⟨e, he, hsession, ?_⟩, ?_⟩
      · intro hterm
        rw [hrunning] at hterm
        cases hterm
      · intro waiter res hwaiter
        cases hw.symm.trans hwaiter
    · intro call' hcall'
      exact Option.some.inj (hcall'.symm.trans hspawned)

end TaskServer

/-! ## The two answers -/

/-- Answer with a result or an error. -/
def respond (id : RequestId) : TaskResult → JsonRpcMessage
  | .ok value => okValue id value
  | .error err => .response (.failure id err)

def withoutKey (key : String) : Value → Value
  | .object m => .object (Map.retain m (· ≠ key))
  | v => v

/-- The same call without its `task` field. -/
def withoutTask (req : JsonRpcRequest) : JsonRpcRequest :=
  { req with params := req.params.map (withoutKey "task") }

/-- A handler that uses neither client input nor progress nor logging. -/
def Plain (handler : CapabilityCall → HandlerOutcome N) : Prop :=
  ∀ call call', call.capability = call'.capability → call.ctx = call'.ctx →
    call.params = call'.params → (handler call).result = (handler call').result

/-- The surroundings of a direct call. -/
def handledBy (env : Surroundings N) (handler : CapabilityCall → HandlerOutcome N) :
    Surroundings N
  | .capability call => handler call
  | e => env e

/-- The surroundings of a `tasks/result` whose wait is over. -/
def waited (env : Surroundings N) (res : Except TaskError TaskResult) : Surroundings N
  | .taskWaitResult _ _ => res
  | e => env e

/-! ### The request without the field -/

theorem get_withoutKey {key key' : String} (h : key' ≠ key) (v : Value) :
    (withoutKey key v).get key' = v.get key' := by
  cases v with
  | object m =>
      show Map.get (Map.retain m _) key' = Map.get m key'
      rw [Map.get_retain, if_pos (decide_eq_true h)]
  | _ => rfl

theorem metaObject_withoutTask (params : Option Value) :
    Meta.metaObject (params.map (withoutKey "task")) = Meta.metaObject params := by
  unfold Meta.metaObject
  rcases params with _ | v
  · rfl
  · rw [Option.map_some, Option.bind_some, Option.bind_some, get_withoutKey (by decide)]

theorem sessionContext_withoutTask (state : SessionState) (req : JsonRpcRequest) :
    sessionContext state (withoutTask req).params = sessionContext state req.params := by
  unfold sessionContext withoutTask
  dsimp only
  rw [metaObject_withoutTask]

theorem hasTaskField_withoutTask (req : JsonRpcRequest) :
    hasTaskField (withoutTask req).params = false := by
  unfold hasTaskField withoutTask
  dsimp only
  rcases req.params with _ | v
  · rfl
  · cases v with
    | object m =>
        show (Map.get (Map.retain m _) "task").isSome = false
        rw [Map.get_retain, if_neg (by decide)]
        rfl
    | _ => rfl

/-- Only the call's two fields are read. -/
theorem parseCallToolParams_object {texts : Texts} {m m' : Map} {params : Params}
    (hname : Map.get m' "name" = Map.get m "name")
    (harguments : Map.get m' "arguments" = Map.get m "arguments")
    (h : parseCallToolParams texts (some (.object m)) = .ok params) :
    parseCallToolParams texts (some (.object m')) = .ok params := by
  simp only [parseCallToolParams, structFields, stringField, Option.bind_eq_bind,
    Option.bind_some] at h ⊢
  rw [hname, harguments]
  split at h
  · exact h
  · cases h

theorem parseCallToolParams_withoutTask {texts : Texts} {req : JsonRpcRequest} {params : Params}
    (h : parseCallToolParams texts req.params = .ok params) :
    parseCallToolParams texts (withoutTask req).params = .ok params := by
  unfold withoutTask
  dsimp only
  rcases hparams : req.params with _ | v
  · rw [hparams] at h
    exact h
  · rw [hparams] at h
    cases v with
    | object m =>
        refine parseCallToolParams_object ?_ ?_ h
        · exact (Map.get_retain m _ "name").trans (if_pos (by decide))
        · exact (Map.get_retain m _ "arguments").trans (if_pos (by decide))
    | _ => exact h

/-! ### The direct call -/

/-- The call a handler is run with that is not spawned. -/
def directCall (d : VersionDispatcher N) (req : JsonRpcRequest) (ctx : RequestContext)
    (params : Params) (handle : ClientHandle) : CapabilityCall :=
  { capability := .callTool, ctx, client := some handle,
    progress := progressReporter .legacy req,
    log := logSender .legacy req ctx d.router.logging, params }

/-- What a call that is dispatched directly is answered with. -/
theorem run_legacyCall {d : VersionDispatcher N} {poll : Int} (htasks : d.tasks = some poll)
    (htools : d.router.tools = true) {req : JsonRpcRequest} {params : Params}
    (htask : hasTaskField req.params = false)
    (hparams : parseCallToolParams d.texts req.params = .ok params) (ctx : RequestContext)
    (env : Surroundings N) (handler : CapabilityCall → HandlerOutcome N) :
    ∃ handle, (legacyCall d .callTool req ctx).run (handledBy env handler) =
      respond req.id (d.recordedAs (handler (directCall d req ctx params handle)).result) := by
  have hcall : legacyCall d .callTool req ctx =
      dispatchCapability d .legacy .callTool req ctx req.id := by
    unfold legacyCall
    rw [htasks, htask]
    rfl
  obtain ⟨handle, hhandle⟩ : ∃ handle, mrtrHandle (N := N) d.strictElicitationKeys .legacy req ctx =
      pure (.ok handle) := by
    unfold mrtrHandle
    dsimp only
    split
    · exact ⟨_, rfl⟩
    · exact ⟨_, rfl⟩
  refine ⟨handle, ?_⟩
  rw [hcall]
  unfold dispatchCapability
  rw [show parseParams d.texts req.params .callTool = .ok params from hparams]
  dsimp only
  rw [if_pos (by decide), hhandle]
  unfold callHandler
  have hreg : d.router.registers .callTool = true := htools
  simp only [Program.pure_eq, Program.ret_bind, if_pos hreg]
  show Program.run _ (finishMrtr d .legacy .callTool req.id _
    (some (handler (directCall d req ctx params handle)))) = _
  unfold finishMrtr VersionDispatcher.recordedAs recordedAs
  dsimp only
  rcases (handler (directCall d req ctx params handle)).result with e | result
  · dsimp only
    rw [if_neg]
    · rfl
    · rintro ⟨-, hmrtr⟩
      cases hmrtr
  · rfl

/-- What `tasks/result` answers when its wait is over. -/
theorem run_tasksResult {d : VersionDispatcher N} {req : JsonRpcRequest} {id : String}
    (hmethod : req.method = methods.tasksResult) (hid : parseTaskId d.texts req.params = .ok id)
    (poll : Int) (session : String) (env : Surroundings N) (r : TaskResult) :
    (handleTasksMethod d poll session req).run (waited env (.ok r)) = respond req.id r := by
  unfold handleTasksMethod
  rw [if_neg (by rw [hmethod]; decide), if_neg (by rw [hmethod]; decide),
    if_neg (by rw [hmethod]; decide), hid]
  rcases r with e | value
  · rfl
  · rfl

namespace TaskServer

variable {g : TaskSetting N}

/-- A server whose only tool does not exist. -/
def sampleSetting : TaskSetting Unit where
  d := { legacyServer with tasks := some 500 }
  poll := 500
  handler _ := ⟨.error (.toolNotFound "pay"), [], none⟩
  rfc3339 _ := ""
  env := sessionsAnswer none

def sampleSession : SessionState :=
  { version := .v2025_11_25, clientInfo := ⟨"client", none, "1"⟩, clientCapabilities := .object []
    logLevel := none }

def taskCall : JsonRpcRequest :=
  { id := .number 1, method := methods.toolsCall
    params := some (.object [("name", .string "pay"), ("task", .object [])]) }

def taskResult : JsonRpcRequest :=
  { id := .number 2, method := methods.tasksResult
    params := some (.object [("taskId", .string "t")]) }

/-- The call becomes a task, and its result is asked for before it is there. -/
def creating : ServerCall :=
  ⟨0, 0, .augment taskCall (sessionContext sampleSession taskCall.params) 1 "t" 1⟩

def asking : List ServerCall :=
  [⟨1, 1, .other "" (.wait 7 "t")⟩, ⟨2, 2, .other "" (.resume 7)⟩, ⟨3, 3, .finish "t"⟩,
    ⟨4, 4, .other "" (.resume 7)⟩, ⟨5, 5, .other "" (.resume 7)⟩]

/-- The server when the task has been created. -/
def createdTask : TaskServer := act sampleSetting (initial 4) creating

/-- Whether the call cancels no task, and `t` is not due. -/
def leaves (st : TaskServer) (c : ServerCall) : Bool :=
  (match c.act with
    | .other _ (.cancel _) => false
    | _ => true) &&
  decide (∀ e ∈ st.room.store.inner.get "t", e.expired c.now = false)

theorem leaves_spec {st : TaskServer} {c : ServerCall} (h : leaves st c = true) :
    ¬ Cancels "t" st c ∧ ¬ Expires "t" st c := by
  obtain ⟨now, nowWall, act⟩ := c
  unfold leaves at h
  rw [Bool.and_eq_true, decide_eq_true_eq] at h
  constructor
  · rintro ⟨session, e, hact, -⟩
    obtain rfl : act = .other session (.cancel "t") := hact
    cases h.1
  · rintro ⟨e, he, hexp⟩
    rw [h.2 e he] at hexp
    cases hexp

/-- The error code of a response. -/
def errorCode : JsonRpcMessage → Option Int
  | .response resp => resp.error.map JsonRpcError.code
  | _ => none

end TaskServer

end TurboMcp.Server
