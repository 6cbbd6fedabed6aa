import TurboMcp.Service.Driver

/-!
# Parking on a permit

The select loop acquires the permit inside the arm that reads: while it is
parked there it neither drains the outbound channel nor reads the frame some
handler waits for.  A deadlock is a parked driver all of whose permit holders
wait for one of the two.  It cannot arise as long as a parked driver leaves a
place in the channel to replies and a holder that waits for no frame; and never
for handlers that only reply.
-/

namespace TurboMcp.Service

open TurboMcp.Core TurboMcp.Lib

variable {E C F : Type}

/-! ## Deadlock -/

/-- The handler awaits an inbound frame that no handler has routed yet. -/
def Task.waits (delivered : List E) (t : Task E F) : Prop :=
  match t.activity with
  | .waiting event _ => event ∉ delivered
  | _ => False

/-- The handler is suspended in a send on the outbound channel. -/
def Task.writes (t : Task E F) : Prop :=
  match t.activity with
  | .sending _ _ | .replying _ _ => True
  | _ => False

/-- The driver stands in `acquire_owned` and every permit is taken. -/
def State.parked (config : ServeConfig) (s : State E F) : Prop :=
  (∃ msg, s.pc = .acquiring msg) ∧ config.capacity ≤ s.tasks.length

/-- **Deadlock**: the driver is parked, and every permit holder waits for what
only the driver does: make room in the channel, or read a frame. -/
def State.deadlocked (config : ServeConfig) (s : State E F) : Prop :=
  s.parked config ∧ ∀ t ∈ s.tasks,
    t.waits s.delivered ∨ t.writes ∧ config.capacity ≤ s.queue.length

/-- What a step must observe, given the state it is taken in: the driver only
parks with a place free in the channel and a holder that waits for no frame;
while it is parked, the last free place is left to replies, and a holder starts
waiting for a frame only beside one that does not. -/
def LeavesRoom (svc : McpService E C F) (config : ServeConfig) (s : State E F) :
    Label E C → Prop
  | .frame _ =>
      config.capacity ≤ s.tasks.length →
        s.queue.length < config.capacity ∧ ∃ t ∈ s.tasks, ¬ t.waits s.delivered
  | .push _ => s.parked config → s.queue.length + 1 < config.capacity
  | .resume i =>
      s.parked config → ∀ t message f, s.tasks[i]? = some t →
        t.activity = .sending message f → s.queue.length + 1 < config.capacity
  | .poll i choice =>
      s.parked config → ∀ t f event f', s.tasks[i]? = some t → t.activity = .running f →
        svc.poll f choice = some (.wait event f') → event ∉ s.delivered →
          ∃ j u, j ≠ i ∧ s.tasks[j]? = some u ∧ ¬ u.waits s.delivered
  | _ => True

/-! ## The invariant -/

/-- The permits in use: one a handler, and the driver's own once acquired. -/
def State.permits (s : State E F) : Nat :=
  s.tasks.length + match s.pc with
    | .readying _ => 1
    | _ => 0

structure State.Safe (config : ServeConfig) (s : State E F) : Prop where
  permits_le : s.permits ≤ config.capacity
  room : s.parked config →
    s.queue.length < config.capacity ∧ ∃ t ∈ s.tasks, ¬ t.waits s.delivered

variable {svc : McpService E C F} {connection : String} {config : ServeConfig}

theorem State.Safe.not_deadlocked {s : State E F} (h : s.Safe config) :
    ¬ s.deadlocked config := by
  rintro ⟨hparked, hall⟩
  obtain ⟨hroom, t, ht, hwaits⟩ := h.room hparked
  rcases hall t ht with hw | ⟨-, hfull⟩
  · exact hwaits hw
  · exact Nat.not_le.mpr hroom hfull

theorem safe_initial : (State.initial : State E F).Safe config where
  permits_le := Nat.zero_le _
  room := by
    rintro ⟨⟨msg, hpc⟩, -⟩
    cases hpc

theorem tasks_le_permits (s : State E F) : s.tasks.length ≤ s.permits :=
  Nat.le_add_right _ _

/-- Away from `acquire_owned` only the count matters. -/
theorem safe_of_not_acquiring {s : State E F} (hpc : ∀ msg, s.pc ≠ .acquiring msg)
    (hle : s.permits ≤ config.capacity) : s.Safe config where
  permits_le := hle
  room := fun ⟨⟨msg, h⟩, _⟩ => absurd h (hpc msg)

theorem waits_mono {delivered delivered' : List E} (hsub : delivered ⊆ delivered')
    {t : Task E F} (h : t.waits delivered') : t.waits delivered := by
  unfold Task.waits at h ⊢
  split at h
  · exact fun hmem => h (hsub hmem)
  · exact h.elim

/-- A handler changes what it does: the count stands, and one that waits for no
frame is left. -/
theorem State.Safe.set {s t : State E F} (h : s.Safe config) {i : Nat} {u u' : Task E F}
    (hu : s.tasks[i]? = some u) (hpc : t.pc = s.pc) (htasks : t.tasks = s.tasks.set i u')
    (hsub : s.delivered ⊆ t.delivered)
    (hqueue : s.parked config → t.queue.length < config.capacity)
    (hwaits : s.parked config → ¬ u'.waits t.delivered ∨
      ∃ j v, j ≠ i ∧ s.tasks[j]? = some v ∧ ¬ v.waits s.delivered) :
    t.Safe config where
  permits_le := by
    have hperm : t.permits = s.permits := by
      simp only [State.permits, hpc, htasks, List.length_set]
    exact hperm ▸ h.permits_le
  room := by
    rintro ⟨hacq, hfull⟩
    have hparked : s.parked config :=
      ⟨hpc ▸ hacq, by simpa only [htasks, List.length_set] using hfull⟩
    refine ⟨hqueue hparked, ?_⟩
    rw [htasks]
    rcases hwaits hparked with hu' | ⟨j, v, hne, hv, hvw⟩
    · have hi : i < s.tasks.length := (List.getElem?_eq_some_iff.mp hu).1
      exact ⟨u', List.mem_set hi u', hu'⟩
    · have hv' : (s.tasks.set i u')[j]? = some v := by
        rw [List.getElem?_set_ne hne.symm, hv]
      exact ⟨v, List.mem_of_getElem? hv', fun hw => hvw (waits_mono hsub hw)⟩

/-- A handler ends: its permit is free. -/
theorem State.Safe.erase {s t : State E F} (h : s.Safe config) {i : Nat}
    (hi : i < s.tasks.length) (hpc : t.pc = s.pc) (htasks : t.tasks = s.tasks.eraseIdx i) :
    t.Safe config where
  permits_le := by
    have hle : t.permits ≤ s.permits := by
      simp only [State.permits, hpc, htasks, List.length_eraseIdx_of_lt hi]
      omega
    exact Nat.le_trans hle h.permits_le
  room := by
    rintro ⟨-, hfull⟩
    have hle : s.tasks.length ≤ config.capacity :=
      Nat.le_trans (tasks_le_permits s) h.permits_le
    rw [htasks, List.length_eraseIdx_of_lt hi] at hfull
    omega

/-- Nothing about the handlers or the loop's place changes. -/
theorem State.Safe.frame {s t : State E F} (h : s.Safe config) (hpc : t.pc = s.pc)
    (htasks : t.tasks = s.tasks) (hdelivered : t.delivered = s.delivered)
    (hqueue : s.parked config → t.queue.length < config.capacity) : t.Safe config where
  permits_le := by
    have hperm : t.permits = s.permits := by simp only [State.permits, hpc, htasks]
    exact hperm ▸ h.permits_le
  room := by
    rintro ⟨hacq, hfull⟩
    have hparked : s.parked config := ⟨hpc ▸ hacq, htasks ▸ hfull⟩
    rw [htasks, hdelivered]
    exact ⟨hqueue hparked, (h.room hparked).2⟩

/-- Polling a handler keeps room: it may begin to wait for a frame only beside
one that does not. -/
theorem State.Safe.pollTask {s : State E F} (h : s.Safe config) {i : Nat} {t : Task E F}
    {f : F} {choice : C} {p : Poll E F} (ht : s.tasks[i]? = some t)
    (hf : t.activity = .running f) (hp : svc.poll f choice = some p)
    (hleaves : LeavesRoom svc config s (.poll i choice)) :
    (pollTask s i t f p).Safe config := by
  have hi : i < s.tasks.length := (List.getElem?_eq_some_iff.mp ht).1
  cases p with
  | run f' =>
      exact h.set ht rfl rfl (List.Subset.refl _) (fun hp => (h.room hp).1)
        fun _ => .inl id
  | deliver event f' =>
      exact h.set ht rfl rfl (List.subset_cons_self _ _) (fun hp => (h.room hp).1)
        fun _ => .inl id
  | emit message f' =>
      exact h.set ht rfl rfl (List.Subset.refl _) (fun hp => (h.room hp).1)
        fun _ => .inl id
  | wait event f' =>
      refine h.set ht rfl rfl (List.Subset.refl _) (fun hp => (h.room hp).1) fun hparked => ?_
      by_cases hevent : event ∈ s.delivered
      · exact .inl fun hwaits => hwaits hevent
      · exact .inr (hleaves hparked t f event f' ht hf hp hevent)
  | ready out =>
      rcases out with e | _ | reply
      · exact h.erase hi rfl rfl
      · exact h.erase hi rfl rfl
      · exact h.set ht rfl rfl (List.Subset.refl _) (fun hp => (h.room hp).1)
          fun _ => .inl id

variable [DecidableEq E]

/-- **Step lemma**: a step that leaves room keeps the invariant. -/
theorem State.Safe.step {s t : State E F} {a : Label E C} (h : s.Safe config)
    (hstep : Step svc connection config s a t) (hleaves : LeavesRoom svc config s a) :
    t.Safe config := by
  have hle : s.tasks.length ≤ config.capacity :=
    Nat.le_trans (tasks_le_permits s) h.permits_le
  cases hstep.move with
  | take hpc hqueue _ =>
      exact safe_of_not_acquiring (fun _ => Pc.noConfusion) hle
  | outboundEmpty hpc _ _ => exact safe_of_not_acquiring (fun _ => Pc.noConfusion) hle
  | shutdownSeen hpc => exact safe_of_not_acquiring (fun _ => Pc.noConfusion) hle
  | shutdownUnseen hpc => exact safe_of_not_acquiring (fun _ => Pc.noConfusion) hle
  | wake hpc => exact safe_of_not_acquiring (fun _ => Pc.noConfusion) hle
  | frame hpc => exact ⟨hle, fun ⟨_, hfull⟩ => hleaves hfull⟩
  | recvEnd hpc => exact safe_of_not_acquiring (fun _ => Pc.noConfusion) hle
  | sent hpc => exact safe_of_not_acquiring (fun _ => Pc.noConfusion) hle
  | sendFailed hpc => exact safe_of_not_acquiring (fun _ => Pc.noConfusion) hle
  | acquired hpc hfree => exact safe_of_not_acquiring (fun _ => Pc.noConfusion) hfree
  | ready hpc =>
      refine safe_of_not_acquiring (fun _ => Pc.noConfusion) ?_
      -- the permit the driver held is the new handler's
      have hperm := h.permits_le
      simp only [State.permits, hpc] at hperm
      simpa [spawnTask, State.permits] using hperm
  | notReady hpc => exact safe_of_not_acquiring (fun _ => Pc.noConfusion) hle
  | poll ht hf hp => exact h.pollTask ht hf hp hleaves
  | emitted ht hf hroom =>
      refine h.set ht rfl rfl (List.Subset.refl _) (fun hparked => ?_) fun _ => .inl id
      simpa [State.setActivity, State.pushOutgoing] using hleaves hparked _ _ _ ht hf
  | woken ht hf =>
      exact h.set ht rfl rfl (List.Subset.refl _) (fun hp => (h.room hp).1)
        fun _ => .inl id
  | replied ht hf hroom =>
      exact h.erase (List.getElem?_eq_some_iff.mp ht).1 rfl rfl
  | expired ht hf =>
      exact h.set ht rfl rfl (List.Subset.refl _) (fun hp => (h.room hp).1)
        fun _ => .inl id
  | pushed _ hroom =>
      refine h.frame rfl rfl rfl fun hparked => ?_
      simpa [State.pushOutgoing] using hleaves hparked
  | fireShutdown => exact h.frame rfl rfl rfl fun hp => (h.room hp).1
  | drained hphase htasks => exact h.frame rfl rfl rfl fun hp => (h.room hp).1
  | deadline hphase => exact h.frame rfl rfl rfl fun hp => (h.room hp).1
  | abort _ hi => exact h.erase hi rfl rfl
  | finish hpc hqueue htasks => exact h.frame rfl rfl rfl fun hp => (h.room hp).1

/-- **No deadlock while room is left**: in a run all of whose steps leave room,
no state is a deadlock, and so no shutdown goes unseen in one. -/
theorem never_deadlocked {run : List (Label E C × State E F)}
    (hrun : Run (Step svc connection config) State.initial run)
    (hleaves : ∀ x ∈ steps State.initial run, LeavesRoom svc config x.1 x.2.1) :
    ∀ s ∈ states State.initial run, ¬ s.deadlocked config := fun s hs =>
  (hrun.invariant_of_guard hleaves safe_initial
    (fun _ _ _ hstep hl hsafe => hsafe.step hstep hl) s hs).not_deadlocked

/-- Handlers that return the reply at once. -/
def replyingService (reply : JsonRpcMessage) : McpService Empty Unit Unit where
  call _ := ()
  poll _ _ := some (.ready (.ok (some reply)))

/-- Two requests at one permit: the driver parks with the second frame until the first
handler's reply is in the channel. -/
theorem never_deadlocked_parkedCall :
    let reply : JsonRpcMessage := .response (.success (.number 1) (.object []))
    let config : ServeConfig := { maxInFlight := 1, identity := none }
    let step := Step (replyingService reply) "conn-1" config
    ∃ run, Run step State.initial run ∧ (∃ s ∈ states State.initial run, s.parked config) ∧
      ∀ s ∈ states State.initial run, ¬ s.deadlocked config := by
  intro reply config step
  let request : JsonRpcMessage := .request { id := .number 1, method := "ping", params := none }
  let idle (pc : Pc) : State Empty Unit := { State.initial with pc }
  let busy (activity : Activity Empty Unit) (pc : Pc) : State Empty Unit :=
    { State.initial with pc, tasks := [⟨0, request, activity⟩], started := 1 }
  let replied (pc : Pc) : State Empty Unit :=
    { State.initial with
      pc, queue := [⟨some 0, reply⟩], started := 1
      finished := [⟨0, request, (), .ok (some reply)⟩] }
  let run : List (Label Empty Unit × State Empty Unit) :=
    [(.pollOutbound, idle .polledOutbound), (.pollShutdown, idle .polledShutdown),
      (.frame request, idle (.acquiring request)), (.acquired, idle (.readying request)),
      (.ready (.ok ()), busy (.running ()) .select),
      (.pollOutbound, busy (.running ()) .polledOutbound),
      (.pollShutdown, busy (.running ()) .polledShutdown),
      (.frame request, busy (.running ()) (.acquiring request)),
      (.poll 0 (), busy (.replying reply ()) (.acquiring request)),
      (.resume 0, replied (.acquiring request)), (.acquired, replied (.readying request))]
  have hrun : Run step State.initial run := by
    simp only [run, run_cons, run_nil, and_true]
    exact ⟨rfl, rfl, rfl, rfl, rfl, rfl, rfl, rfl, rfl, rfl, rfl⟩
  have hleaves : ∀ x ∈ steps State.initial run,
      LeavesRoom (replyingService reply) config x.1 x.2.1 := by
    simp only [run, steps_cons, steps_nil, List.forall_mem_cons]
    refine ⟨trivial, trivial, fun hfull => absurd hfull (by decide), trivial, trivial, trivial,
      trivial, fun _ => ⟨Nat.zero_lt_one, ?_⟩, ?_, ?_, trivial, ?_⟩
    · exact ⟨_, List.mem_singleton.mpr rfl, id⟩
    · intro _ t f event f' ht hf hwaits
      cases hwaits
    · intro _ t message f ht hf
      obtain rfl := Option.some.inj ht
      cases hf
    · exact fun x hx => absurd hx List.not_mem_nil
  refine ⟨run, hrun, ⟨busy (.running ()) (.acquiring request), ?_, ?_⟩,
    never_deadlocked hrun hleaves⟩
  · simp [run]
  · exact ⟨⟨request, rfl⟩, Nat.le_refl 1⟩

/-! ## A deadlock -/

/-- Once every permit holder is stuck in a send on the full channel, nothing
moves again: no timer and no frame frees a place. -/
theorem deadlocked_forever {s : State E F} (h : s.deadlocked config)
    (hwrites : ∀ t ∈ s.tasks, t.writes) (hphase : s.phase = .serving)
    {run : List (Label E C × State E F)} (hrun : Run (Step svc connection config) s run) :
    ∀ t ∈ states s run, t.deadlocked config := by
  obtain ⟨⟨⟨msg, hpc⟩, hfull⟩, hall⟩ := h
  have hpos := config.capacity_pos
  have hqueue : config.capacity ≤ s.queue.length := by
    obtain ⟨t, ht⟩ : ∃ t, t ∈ s.tasks :=
      List.exists_mem_of_length_pos (Nat.lt_of_lt_of_le hpos hfull)
    have hw := hwrites t ht
    rcases hall t ht with hwaits | ⟨-, hle⟩
    · unfold Task.waits at hwaits
      unfold Task.writes at hw
      split at hwaits
      · simp_all
      · exact hwaits.elim
    · exact hle
  have hinv : ∀ t ∈ states s run,
      t.pc = s.pc ∧ t.tasks = s.tasks ∧ t.queue = s.queue ∧ t.phase = .serving := by
    refine hrun.invariant ⟨rfl, rfl, rfl, hphase⟩ fun u a v hstep hu => ?_
    obtain ⟨hupc, hutasks, huqueue, huphase⟩ := hu
    have hat : u.pc = .acquiring msg := hupc.trans hpc
    have hstuck {i : Nat} {t : Task E F} (ht : u.tasks[i]? = some t) : t.writes :=
      hwrites t (hutasks ▸ List.mem_of_getElem? ht)
    have hnoroom : ¬ u.queue.length < config.capacity := huqueue ▸ Nat.not_lt.mpr hqueue
    cases hstep.move with
    | take hpc' => exact absurd (hat.symm.trans hpc') Pc.noConfusion
    | outboundEmpty hpc' => exact absurd (hat.symm.trans hpc') Pc.noConfusion
    | shutdownSeen hpc' => exact absurd (hat.symm.trans hpc') Pc.noConfusion
    | shutdownUnseen hpc' => exact absurd (hat.symm.trans hpc') Pc.noConfusion
    | wake hpc' => exact absurd (hat.symm.trans hpc') Pc.noConfusion
    | frame hpc' => exact absurd (hat.symm.trans hpc') Pc.noConfusion
    | recvEnd hpc' => exact absurd (hat.symm.trans hpc') Pc.noConfusion
    | sent hpc' => exact absurd (hat.symm.trans hpc') Pc.noConfusion
    | sendFailed hpc' => exact absurd (hat.symm.trans hpc') Pc.noConfusion
    | acquired _ hfree => exact absurd (hutasks ▸ hfree) (Nat.not_lt.mpr hfull)
    | ready hpc' => exact absurd (hat.symm.trans hpc') Pc.noConfusion
    | notReady hpc' => exact absurd (hat.symm.trans hpc') Pc.noConfusion
    | poll ht hf => exact absurd (hstuck ht) (by simp [Task.writes, hf])
    | emitted ht hf hroom => exact absurd hroom hnoroom
    | woken ht hf => exact absurd (hstuck ht) (by simp [Task.writes, hf])
    | replied ht hf hroom => exact absurd hroom hnoroom
    | expired ht hf => exact absurd (hstuck ht) (by simp [Task.writes, hf])
    | pushed _ hroom => exact absurd hroom hnoroom
    | fireShutdown => exact ⟨hupc, hutasks, huqueue, huphase⟩
    | drained hphase' => exact absurd (huphase.symm.trans hphase') Phase.noConfusion
    | deadline hphase' => exact absurd (huphase.symm.trans hphase') Phase.noConfusion
    | abort hphase' => exact absurd (huphase.symm.trans hphase') Phase.noConfusion
    | finish hpc' => exact absurd (hat.symm.trans hpc') Pc.noConfusion
  intro t ht
  obtain ⟨htpc, httasks, htqueue, -⟩ := hinv t ht
  refine ⟨⟨⟨msg, htpc.trans hpc⟩, httasks ▸ hfull⟩, fun u hu => .inr ?_⟩
  exact ⟨hwrites u (httasks ▸ hu), htqueue ▸ hqueue⟩

/-- Handlers that report progress once and reply. -/
def reportingService (progress reply : JsonRpcMessage) :
    McpService Empty Unit (List JsonRpcMessage) where
  call _ := [progress, reply]
  poll f _ :=
    match f with
    | [] => none
    | [reply] => some (.ready (.ok (some reply)))
    | message :: rest => some (.emit message rest)

/-- Two requests at one permit: the first handler's progress fills the channel
while the driver is parked with the second frame, and its reply waits for room. -/
def pipelinedCalls (request : JsonRpcMessage) : List (Label Empty Unit) :=
  [.pollOutbound, .pollShutdown, .frame request, .acquired, .ready (.ok ()),
    .pollOutbound, .pollShutdown, .frame request,
    .poll 0 (), .resume 0, .poll 0 (), .fireShutdown]

/-- **A progress report deadlocks the driver**: with one permit and two
pipelined requests it parks for good, whatever comes next, and the fired shutdown
is never seen. -/
theorem progress_report_deadlocks :
    ∃ (svc : McpService Empty Unit (List JsonRpcMessage)) (config : ServeConfig)
      (run : List (Label Empty Unit × State Empty (List JsonRpcMessage))),
      Run (Step svc "conn-1" config) State.initial run ∧
        ∃ s ∈ states State.initial run, s.deadlocked config ∧ s.shutdown = true ∧
          ∀ more, Run (Step svc "conn-1" config) s more →
            ∀ t ∈ states s more, t.deadlocked config := by
  let progress : JsonRpcMessage :=
    .notification { method := "notifications/progress", params := none }
  let request : JsonRpcMessage :=
    .request { id := .number 1, method := "tools/call", params := none }
  let reply : JsonRpcMessage := .response (.success (.number 1) .null)
  let config : ServeConfig := { maxInFlight := 1, identity := none }
  let stuck : State Empty (List JsonRpcMessage) :=
    { phase := .serving, pc := .acquiring request, queue := [⟨none, progress⟩],
      tasks := [⟨0, request, .replying reply [reply]⟩], delivered := [], shutdown := true,
      started := 1, written := [], finished := [] }
  have hreach : reach (step (reportingService progress reply) "conn-1" config)
      State.initial (pipelinedCalls request) = some stuck := rfl
  obtain ⟨run, hrun, hmem, -⟩ := exists_run_of_reach hreach
  have hwrites : ∀ t ∈ stuck.tasks, t.writes := by
    intro t ht
    rw [List.mem_singleton.mp ht]
    trivial
  have hdeadlocked : stuck.deadlocked config :=
    ⟨⟨⟨request, rfl⟩, Nat.le_refl 1⟩, fun t ht => .inr ⟨hwrites t ht, Nat.le_refl 1⟩⟩
  exact ⟨reportingService progress reply, config, run, hrun, stuck, hmem, hdeadlocked, rfl,
    fun more hmore => deadlocked_forever hdeadlocked hwrites rfl hmore⟩

/-! ## Handlers that only reply -/

/-- The service's handlers neither write to the connection on their own nor
wait for inbound frames. -/
def McpService.OnlyReplies (svc : McpService E C F) : Prop :=
  ∀ f choice, (∀ message f', svc.poll f choice ≠ some (.emit message f')) ∧
    ∀ event f', svc.poll f choice ≠ some (.wait event f')

/-- The handler is at work or on its reply. -/
def Task.plain (t : Task E F) : Prop :=
  match t.activity with
  | .running _ | .replying _ _ => True
  | _ => False

/-- The loop found the channel empty and has not looked again. -/
def Pc.pastOutbound : Pc → Prop
  | .polledOutbound | .polledShutdown | .acquiring _ => True
  | _ => False

/-- Every handler owes one reply at most, and since the loop last found the
channel empty it has only filled with replies of handlers that are gone. -/
structure State.Plain (config : ServeConfig) (s : State E F) : Prop where
  permits_le : s.permits ≤ config.capacity
  tasks : ∀ t ∈ s.tasks, t.plain
  queue_le : s.pc.pastOutbound → s.queue.length + s.tasks.length ≤ config.capacity

omit [DecidableEq E] in
theorem State.Plain.not_deadlocked {s : State E F} (h : s.Plain config) :
    ¬ s.deadlocked config := by
  rintro ⟨⟨⟨msg, hpc⟩, hfull⟩, hall⟩
  have hqueue := h.queue_le (hpc ▸ trivial)
  have hpos := config.capacity_pos
  obtain ⟨t, ht⟩ : ∃ t, t ∈ s.tasks :=
    List.exists_mem_of_length_pos (Nat.lt_of_lt_of_le hpos hfull)
  have hplain := h.tasks t ht
  rcases hall t ht with hw | ⟨-, hroom⟩
  · unfold Task.plain at hplain
    unfold Task.waits at hw
    split at hw
    · simp_all
    · exact hw
  · omega

omit [DecidableEq E] in
/-- A handler goes on in a plain way. -/
theorem State.Plain.set {s t : State E F} (h : s.Plain config) {i : Nat} {u' : Task E F}
    (hpc : t.pc = s.pc) (htasks : t.tasks = s.tasks.set i u') (hqueue : t.queue = s.queue)
    (hu' : u'.plain) : t.Plain config where
  permits_le := by
    have hperm : t.permits = s.permits := by
      simp only [State.permits, hpc, htasks, List.length_set]
    exact hperm ▸ h.permits_le
  tasks := by
    intro v hv
    rcases List.mem_or_eq_of_mem_set (htasks ▸ hv) with hv | rfl
    · exact h.tasks v hv
    · exact hu'
  queue_le := by
    intro hpast
    rw [hqueue, htasks, List.length_set]
    exact h.queue_le (hpc ▸ hpast)

omit [DecidableEq E] in
/-- A handler ends, leaving at most its reply. -/
theorem State.Plain.erase {s t : State E F} (h : s.Plain config) {i : Nat}
    (hi : i < s.tasks.length) (hpc : t.pc = s.pc) (htasks : t.tasks = s.tasks.eraseIdx i)
    (hqueue : t.queue.length ≤ s.queue.length + 1) : t.Plain config where
  permits_le := by
    have hle : t.permits ≤ s.permits := by
      simp only [State.permits, hpc, htasks, List.length_eraseIdx_of_lt hi]
      omega
    exact Nat.le_trans hle h.permits_le
  tasks := fun v hv => h.tasks v (List.mem_of_mem_eraseIdx (htasks ▸ hv))
  queue_le := by
    intro hpast
    have hle := h.queue_le (hpc ▸ hpast)
    rw [htasks, List.length_eraseIdx_of_lt hi]
    omega

omit [DecidableEq E] in
theorem State.Plain.of_select {s t : State E F} (h : s.Plain config)
    (hpc : ¬ t.pc.pastOutbound) (htasks : t.tasks = s.tasks)
    (hle : t.permits ≤ config.capacity) : t.Plain config where
  permits_le := hle
  tasks := fun v hv => h.tasks v (htasks ▸ hv)
  queue_le := fun hpast => absurd hpast hpc

/-- **Step lemma** for handlers that only reply, when nobody else writes to the
connection. -/
theorem State.Plain.step {s t : State E F} {a : Label E C} (hsvc : svc.OnlyReplies)
    (h : s.Plain config) (hstep : Step svc connection config s a t)
    (hquiet : ∀ msg, a ≠ .push msg) : t.Plain config := by
  have hle : s.tasks.length ≤ config.capacity :=
    Nat.le_trans (tasks_le_permits s) h.permits_le
  have plainOf {u : Task E F} {i : Nat} (hu : s.tasks[i]? = some u) : u.plain :=
    h.tasks u (List.mem_of_getElem? hu)
  cases hstep.move with
  | take hpc hqueue _ => exact h.of_select id rfl hle
  | outboundEmpty hpc hqueue _ =>
      refine ⟨hle, h.tasks, fun _ => ?_⟩
      rw [hqueue]
      simpa using hle
  | shutdownSeen hpc => exact h.of_select id rfl hle
  | shutdownUnseen hpc => exact ⟨hle, h.tasks, fun _ => h.queue_le (hpc ▸ trivial)⟩
  | wake hpc => exact h.of_select id rfl hle
  | frame hpc => exact ⟨hle, h.tasks, fun _ => h.queue_le (hpc ▸ trivial)⟩
  | recvEnd hpc => exact h.of_select id rfl hle
  | sent hpc => exact h.of_select id rfl hle
  | sendFailed hpc => exact h.of_select id rfl hle
  | acquired hpc hfree => exact h.of_select id rfl hfree
  | ready hpc =>
      have hperm := h.permits_le
      simp only [State.permits, hpc] at hperm
      refine ⟨by simpa [spawnTask, State.permits] using hperm, fun v hv => ?_, fun hp => hp.elim⟩
      rcases List.mem_append.mp hv with hv | hv
      · exact h.tasks v hv
      · rw [List.mem_singleton.mp hv]
        trivial
  | notReady hpc => exact h.of_select id rfl hle
  | @poll i choice u f p hu hf hp =>
      have hi : i < s.tasks.length := (List.getElem?_eq_some_iff.mp hu).1
      cases p with
      | run f' => exact h.set rfl rfl rfl trivial
      | deliver event f' => exact h.set rfl rfl rfl trivial
      | emit message f' => exact absurd hp ((hsvc f choice).1 message f')
      | wait event f' => exact absurd hp ((hsvc f choice).2 event f')
      | ready out =>
          rcases out with e | _ | reply
          · exact h.erase hi rfl rfl (Nat.le_succ _)
          · exact h.erase hi rfl rfl (Nat.le_succ _)
          · exact h.set rfl rfl rfl trivial
  | emitted hu hf _ => exact absurd (plainOf hu) (by simp [Task.plain, hf])
  | woken hu hf => exact h.set rfl rfl rfl trivial
  | replied hu hf hroom =>
      exact h.erase (List.getElem?_eq_some_iff.mp hu).1 rfl rfl (by simp [State.pushOutgoing,
        State.endTask])
  | expired hu hf => exact h.set rfl rfl rfl trivial
  | pushed _ hroom => exact absurd rfl (hquiet _)
  | fireShutdown => exact ⟨h.permits_le, h.tasks, h.queue_le⟩
  | drained hphase htasks => exact ⟨h.permits_le, h.tasks, h.queue_le⟩
  | deadline hphase => exact ⟨h.permits_le, h.tasks, h.queue_le⟩
  | abort _ hi => exact h.erase hi rfl rfl (Nat.le_succ _)
  | finish hpc hqueue htasks => exact ⟨h.permits_le, h.tasks, h.queue_le⟩

/-- **Plain handlers never deadlock the driver**, at any number of permits and
under every schedule. -/
theorem onlyReplies_never_deadlocked (hsvc : svc.OnlyReplies)
    {run : List (Label E C × State E F)}
    (hrun : Run (Step svc connection config) State.initial run)
    (hquiet : ∀ x ∈ steps State.initial run, ∀ msg, x.2.1 ≠ .push msg) :
    ∀ s ∈ states State.initial run, ¬ s.deadlocked config := by
  have hinitial : (State.initial : State E F).Plain config :=
    ⟨Nat.zero_le _, fun _ ht => absurd ht List.not_mem_nil, fun hp => hp.elim⟩
  exact fun s hs => (hrun.invariant_of_guard (G := fun _ a => ∀ msg, a ≠ .push msg) hquiet
    hinitial (fun _ _ _ hstep hq hp => hp.step hsvc hstep hq) s hs).not_deadlocked

end TurboMcp.Service
