import TurboMcp.Service.Delivery

/-!
# The writer actor

Frames reach the transport from three loops, but all of them take from the one
outbound channel, so what is written is what the channel accepted.  The last
loop ends when every sender is gone: the driver's own, its handlers' and the
clones that others hold, which `outbound.rs` hands out as long as the connection
is registered.
-/

namespace TurboMcp.Service

open TurboMcp.Core TurboMcp.Lib

variable {E C F : Type}

/-! ## Senders -/

/-- The driver, beside the clones of its sender that others hold. -/
structure Writing (E F : Type) where
  driver : State E F
  clones : Nat

inductive WritingLabel (E C : Type)
  | driver (a : Label E C)
  /-- `outbound::writer` hands out a clone. -/
  | lookup
  /-- A clone that is held is cloned. -/
  | clone
  | release

namespace Writing

def initial : Writing E F := { driver := .initial, clones := 0 }

/-- The writer is registered until the second drain phase. -/
def registered (s : Writing E F) : Bool := s.driver.phase = .serving ∨ s.driver.phase = .draining

/-- Others send on a clone, and the channel closes once there is none. -/
def admits (s : Writing E F) : Label E C → Bool
  | .push _ => 0 < s.clones
  | .finish => s.clones = 0
  | _ => true

section

variable [DecidableEq E] (svc : McpService E C F) (connection : String) (config : ServeConfig)

def step (s : Writing E F) : WritingLabel E C → Option (Writing E F)
  | .driver a =>
      if s.admits a then
        (Service.step svc connection config s.driver a).map fun driver => { s with driver }
      else none
  | .lookup => if s.registered then some { s with clones := s.clones + 1 } else none
  | .clone => if 0 < s.clones then some { s with clones := s.clones + 1 } else none
  | .release => if 0 < s.clones then some { s with clones := s.clones - 1 } else none

def Step (s : Writing E F) (a : WritingLabel E C) (t : Writing E F) : Prop :=
  step svc connection config s a = some t

/-- What a step puts into the outbound channel. -/
def accepts (s : Writing E F) : WritingLabel E C → List Outgoing
  | .driver a => s.driver.accepts a
  | _ => []

/-- What a run puts into the outbound channel, in this order. -/
def accepted (s : Writing E F) (run : List (WritingLabel E C × Writing E F)) : List Outgoing :=
  (steps s run).flatMap fun x => x.1.accepts x.2.1

/-- The writer's own steps: it takes a frame, gets it sent, or sees the channel
closed. -/
def writes : WritingLabel E C → Bool
  | .driver .pollOutbound | .driver .sent | .driver .finish => true
  | _ => false

/-- Every send of the run succeeds. -/
def Works (s : Writing E F) (run : List (WritingLabel E C × Writing E F)) : Prop :=
  ∀ x ∈ steps s run, x.2.1 ≠ .driver .sendFailed

/-- **The flush terminates**: the writer makes so many steps at most, and until
the driver has closed it can make the next. -/
def FlushTerminates (s : Writing E F) : Prop :=
  ∀ more, Run (Step svc connection config) s more → Works s more →
    (more.filter fun x => writes x.1).length ≤ 2 * s.driver.queue.length + 2 ∧
    ((final s more).driver.phase = .closed ∨
      ∃ a t, writes a = true ∧ Step svc connection config (final s more) a t)

end

/-! ## What a step does -/

variable [DecidableEq E] {svc : McpService E C F} {connection : String} {config : ServeConfig}
  {s t : Writing E F} {a : WritingLabel E C}

theorem step_cases (h : Step svc connection config s a t) :
    (∃ b driver, a = .driver b ∧ s.admits b = true ∧
      Service.Step svc connection config s.driver b driver ∧ t = { s with driver }) ∨
    (a = .lookup ∧ s.registered = true ∧ t = { s with clones := s.clones + 1 }) ∨
    (a = .clone ∧ 0 < s.clones ∧ t = { s with clones := s.clones + 1 }) ∨
    (a = .release ∧ 0 < s.clones ∧ t = { s with clones := s.clones - 1 }) := by
  unfold Step step at h
  cases a with
  | driver b =>
      simp only at h
      split at h
      · rename_i hadmits
        obtain ⟨driver, hstep, rfl⟩ := Option.map_eq_some_iff.mp h
        exact Or.inl ⟨b, driver, rfl, hadmits, hstep, rfl⟩
      · cases h
  | lookup =>
      simp only at h
      split at h
      · rename_i hregistered
        cases h
        exact Or.inr (Or.inl ⟨rfl, hregistered, rfl⟩)
      · cases h
  | clone =>
      simp only at h
      split at h
      · rename_i hclones
        cases h
        exact Or.inr (Or.inr (Or.inl ⟨rfl, hclones, rfl⟩))
      · cases h
  | release =>
      simp only at h
      split at h
      · rename_i hclones
        cases h
        exact Or.inr (Or.inr (Or.inr ⟨rfl, hclones, rfl⟩))
      · cases h

/-! ## In acceptance order -/

theorem outgoing_step (h : Step svc connection config s a t) (hworks : a ≠ .driver .sendFailed) :
    t.driver.outgoing = s.driver.outgoing ++ s.accepts a := by
  rcases step_cases h with ⟨b, driver, rfl, -, hstep, rfl⟩ | ⟨rfl, -, rfl⟩ | ⟨rfl, -, rfl⟩ |
    ⟨rfl, -, rfl⟩
  · apply hstep.outgoing
    rintro rfl
    exact hworks rfl
  · exact (List.append_nil _).symm
  · exact (List.append_nil _).symm
  · exact (List.append_nil _).symm

/-- **Run lemma**: what was handed to the channel is what it accepted. -/
theorem outgoing_final {run : List (WritingLabel E C × Writing E F)}
    (hrun : Run (Step svc connection config) s run) (hworks : Works s run) :
    (final s run).driver.outgoing = s.driver.outgoing ++ accepted s run := by
  induction run generalizing s with
  | nil => exact (List.append_nil _).symm
  | cons x run ih =>
      obtain ⟨a, t⟩ := x
      obtain ⟨hstep, hrun⟩ := run_cons.mp hrun
      unfold Works at hworks
      rw [steps_cons, List.forall_mem_cons] at hworks
      have hfirst := outgoing_step hstep hworks.1
      have hrest := ih hrun hworks.2
      show (final t run).driver.outgoing = _
      rw [hrest, hfirst, List.append_assoc]
      rfl

end Writing

/-! ## Winding up -/

/-- Past the main loop the driver is at its select, or sends. -/
def State.Winding (s : State E F) : Prop :=
  s.phase ≠ .serving → s.pc = .select ∨ ∃ out, s.pc = .sending out

theorem State.Winding.step [DecidableEq E] {svc : McpService E C F} {connection : String}
    {config : ServeConfig} {s t : State E F} {a : Label E C} (h : s.Winding)
    (hstep : Service.Step svc connection config s a t) : t.Winding := by
  -- inside the select's other arms the driver still serves
  have serving {pc : Pc} (hpc : s.pc = pc) (hselect : pc ≠ .select)
      (hsending : ∀ out, pc ≠ .sending out) : s.phase = .serving := by
    by_contra hphase
    rcases h hphase with hs | ⟨out, hs⟩
    · exact hselect (hpc.symm.trans hs)
    · exact hsending out (hpc.symm.trans hs)
  cases hstep.move with
  | take _ _ _ => exact fun _ => Or.inr ⟨_, rfl⟩
  | outboundEmpty _ _ hphase => exact fun hp => absurd hphase hp
  | shutdownSeen _ => exact fun _ => Or.inl rfl
  | shutdownUnseen hpc => exact fun hp => absurd (serving hpc nofun nofun) hp
  | wake _ => exact fun _ => Or.inl rfl
  | frame hpc => exact fun hp => absurd (serving hpc nofun nofun) hp
  | recvEnd _ => exact fun _ => Or.inl rfl
  | sent _ => exact fun _ => Or.inl rfl
  | sendFailed _ => exact fun _ => Or.inl rfl
  | acquired hpc _ => exact fun hp => absurd (serving hpc nofun nofun) hp
  | ready _ => exact fun _ => Or.inl rfl
  | notReady _ => exact fun _ => Or.inl rfl
  | @poll i choice u f p _ _ _ =>
      have hsame : (pollTask s i u f p).phase = s.phase ∧ (pollTask s i u f p).pc = s.pc := by
        rcases p with _ | _ | _ | _ | out
        iterate 4 exact ⟨rfl, rfl⟩
        rcases out with _ | _ | _ <;> exact ⟨rfl, rfl⟩
      unfold State.Winding
      rw [hsame.1, hsame.2]
      exact h
  | drained hphase _ => exact fun _ => h (by rw [hphase]; exact nofun)
  | deadline hphase => exact fun _ => h (by rw [hphase]; exact nofun)
  | abort _ _ => exact h
  | finish hpc _ _ => exact fun _ => Or.inl hpc
  | _ => exact h

namespace Writing

variable [DecidableEq E] {svc : McpService E C F} {connection : String} {config : ServeConfig}
  {s t : Writing E F} {a : WritingLabel E C}

/-- What holds of the driver in every state that is reached. -/
structure Ordered (s : Writing E F) : Prop where
  winding : s.driver.Winding
  shut : s.driver.Shut

omit [DecidableEq E] in
theorem ordered_initial : (initial : Writing E F).Ordered :=
  ⟨fun hphase => absurd rfl hphase, fun hphase => nomatch hphase⟩

theorem Ordered.step (h : s.Ordered) (hstep : Step svc connection config s a t)
    (hworks : a ≠ .driver .sendFailed) : t.Ordered := by
  rcases step_cases hstep with ⟨b, driver, rfl, -, hdriver, rfl⟩ | ⟨-, -, rfl⟩ | ⟨-, -, rfl⟩ |
    ⟨-, -, rfl⟩
  · refine ⟨h.winding.step hdriver, h.shut.step hdriver ?_⟩
    rintro rfl
    exact hworks rfl
  · exact ⟨h.winding, h.shut⟩
  · exact ⟨h.winding, h.shut⟩
  · exact ⟨h.winding, h.shut⟩

/-- No handler is left, and no clone is held: only the writer goes on. -/
structure Idle (s : Writing E F) : Prop where
  phase : s.driver.phase = .flushing ∨ s.driver.phase = .closed
  tasks : s.driver.tasks = []
  clones : s.clones = 0

/-- The steps the writer still has to make. -/
def remaining (s : Writing E F) : Nat :=
  2 * s.driver.queue.length + s.driver.pc.inHand.length +
    if s.driver.phase = .closed then 0 else 1

theorem finish_phase {s t : State E F}
    (h : Service.Step svc connection config s (.finish : Label E C) t) : s.phase = .flushing := by
  unfold Service.Step Service.step at h
  simp only at h
  split at h
  · rename_i hd
    exact hd.1
  · cases h

/-- **Step lemma**: while only the writer goes on, each of its steps is one less
to make, and no other step changes what is left. -/
theorem Idle.step (h : s.Idle) (ho : s.Ordered) (hstep : Step svc connection config s a t)
    (hworks : a ≠ .driver .sendFailed) :
    t.Idle ∧ t.remaining + (if writes a then 1 else 0) = s.remaining := by
  obtain ⟨hphase, htasks, hclones⟩ := h
  have hserving : s.driver.phase ≠ .serving := by
    rcases hphase with hp | hp <;> rw [hp] <;> simp
  have hdraining : s.driver.phase ≠ .draining := by
    rcases hphase with hp | hp <;> rw [hp] <;> simp
  have notask {i : Nat} {u : Task E F} (hu : s.driver.tasks[i]? = some u) : False := by
    rw [htasks] at hu
    cases hu
  have outer {pc : Pc} (hpc : s.driver.pc = pc) (hselect : pc ≠ .select)
      (hsending : ∀ out, pc ≠ .sending out) : False := by
    rcases ho.winding hserving with hs | ⟨out, hs⟩
    · exact hselect (hpc.symm.trans hs)
    · exact hsending out (hpc.symm.trans hs)
  rcases step_cases hstep with ⟨b, driver, rfl, hadmits, hdriver, rfl⟩ | ⟨-, hregistered, -⟩ |
    ⟨-, hpos, -⟩ | ⟨-, hpos, -⟩
  · cases hdriver.move with
    | @take out queue hpc hqueue hopen =>
        refine ⟨⟨hphase, htasks, hclones⟩, ?_⟩
        unfold remaining writes
        rw [hpc, hqueue]
        simp [Pc.inHand]
        omega
    | outboundEmpty _ _ hp => exact absurd hp hserving
    | shutdownSeen hpc => exact (outer hpc (by simp) (by simp)).elim
    | shutdownUnseen hpc => exact (outer hpc (by simp) (by simp)).elim
    | wake hpc => exact (outer hpc (by simp) (by simp)).elim
    | frame hpc => exact (outer hpc (by simp) (by simp)).elim
    | recvEnd hpc => exact (outer hpc (by simp) (by simp)).elim
    | @sent out hpc =>
        refine ⟨⟨hphase, htasks, hclones⟩, ?_⟩
        unfold remaining writes
        rw [hpc]
        simp [Pc.inHand]
        omega
    | sendFailed _ => exact absurd rfl hworks
    | acquired hpc _ => exact (outer hpc (by simp) (by simp)).elim
    | ready hpc => exact (outer hpc (by simp) (by simp)).elim
    | notReady hpc => exact (outer hpc (by simp) (by simp)).elim
    | poll hu _ _ => exact (notask hu).elim
    | emitted hu _ _ => exact (notask hu).elim
    | woken hu _ => exact (notask hu).elim
    | replied hu _ _ => exact (notask hu).elim
    | expired hu _ => exact (notask hu).elim
    | pushed _ _ =>
        have hpos : 0 < s.clones := of_decide_eq_true hadmits
        omega
    | fireShutdown => exact ⟨⟨hphase, htasks, hclones⟩, rfl⟩
    | drained hp _ => exact absurd hp hdraining
    | deadline hp => exact absurd hp hdraining
    | abort _ hi =>
        rw [htasks] at hi
        exact absurd hi (Nat.not_lt_zero _)
    | finish hpc hqueue _ =>
        have hflushing := finish_phase hdriver
        refine ⟨⟨Or.inr rfl, htasks, hclones⟩, ?_⟩
        unfold remaining writes
        rw [hpc, hqueue, hflushing]
        rfl
  · unfold registered at hregistered
    rcases of_decide_eq_true hregistered with hp | hp
    · exact absurd hp hserving
    · exact absurd hp hdraining
  · omega
  · omega

/-- **Run lemma**: the writer's steps use up what remained. -/
theorem Idle.run {more : List (WritingLabel E C × Writing E F)} (h : s.Idle) (ho : s.Ordered)
    (hrun : Run (Step svc connection config) s more) (hworks : Works s more) :
    (final s more).Idle ∧ (final s more).Ordered ∧
      (final s more).remaining + (more.filter fun x => writes x.1).length = s.remaining := by
  induction more generalizing s with
  | nil => exact ⟨h, ho, rfl⟩
  | cons x more ih =>
      obtain ⟨a, t⟩ := x
      obtain ⟨hstep, hrun⟩ := run_cons.mp hrun
      unfold Works at hworks
      rw [steps_cons, List.forall_mem_cons] at hworks
      obtain ⟨hidle, hcount⟩ := h.step ho hstep hworks.1
      obtain ⟨hidle', ho', hcount'⟩ := ih hidle (ho.step hstep hworks.1) hrun hworks.2
      refine ⟨hidle', ho', ?_⟩
      show (final t more).remaining + _ = _
      rw [List.filter_cons]
      split
      · rename_i hwrites
        rw [if_pos hwrites] at hcount
        rw [List.length_cons]
        omega
      · rename_i hwrites
        rw [if_neg hwrites] at hcount
        omega

/-- Until the driver has closed the writer can go on. -/
theorem Idle.enabled (h : s.Idle) (ho : s.Ordered) :
    s.driver.phase = .closed ∨
      ∃ (a : WritingLabel E C) (t : Writing E F), writes a = true ∧
        Step svc connection config s a t := by
  rcases h.phase with hphase | hphase
  · right
    have hserving : s.driver.phase ≠ .serving := by
      rw [hphase]
      exact nofun
    rcases ho.winding hserving with hpc | ⟨out, hpc⟩
    · rcases hqueue : s.driver.queue with _ | ⟨out, queue⟩
      · refine ⟨.driver .finish, { s with driver := { s.driver with phase := .closed } }, rfl, ?_⟩
        unfold Step Writing.step admits Service.step
        simp [hpc, hqueue, hphase, h.tasks, h.clones]
      · refine ⟨.driver .pollOutbound,
          { s with driver := { s.driver with pc := .sending out, queue } }, rfl, ?_⟩
        unfold Step Writing.step admits Service.step
        simp [hpc, hqueue, hphase]
    · refine ⟨.driver .sent, { s with driver := { s.driver with
        pc := .select, written := s.driver.written ++ [out] } }, rfl, ?_⟩
      unfold Step Writing.step admits Service.step
      simp [hpc]
  · exact Or.inl hphase

omit [DecidableEq E] in
theorem remaining_le (s : Writing E F) : s.remaining ≤ 2 * s.driver.queue.length + 2 := by
  have hhand : s.driver.pc.inHand.length ≤ 1 := by
    unfold Pc.inHand
    split
    · exact Nat.le_refl _
    · exact Nat.zero_le _
  unfold remaining
  split <;> omega

/-- Once only the writer goes on, the flush terminates. -/
theorem Idle.flushTerminates (h : s.Idle) (ho : s.Ordered) :
    FlushTerminates svc connection config s := by
  intro more hrun hworks
  obtain ⟨hidle, ho', hcount⟩ := h.run ho hrun hworks
  have hle := remaining_le s
  exact ⟨by omega, hidle.enabled ho'⟩

/-- **The writer actor**: over a transport that works, what is passed to it is
what the channel accepted, in order and once each; all of it when the driver
has closed, which it does once no handler is left and no clone is held. -/
theorem writer_exact {run : List (WritingLabel E C × Writing E F)}
    (hrun : Run (Step svc connection config) initial run) (hworks : Works initial run) :
    let s := final initial run
    s.driver.written ++ s.driver.pc.inHand ++ s.driver.queue = accepted initial run ∧
    (s.driver.phase = .closed → s.driver.written = accepted initial run) ∧
    (s.driver.phase = .flushing → s.driver.tasks = [] → s.clones = 0 →
      FlushTerminates svc connection config s) := by
  intro s
  have hout : s.driver.outgoing = accepted initial run := outgoing_final hrun hworks
  unfold Works at hworks
  have ho : s.Ordered :=
    hrun.invariant_of_guard (G := fun _ a => a ≠ .driver .sendFailed) hworks ordered_initial
      (fun _ _ _ hstep hw h => h.step hstep hw) s (final_mem_states _ _)
  refine ⟨hout, ?_, ?_⟩
  · intro hclosed
    rw [← hout, ho.shut.written hclosed]
  · intro hphase htasks hclones
    exact Idle.flushTerminates ⟨Or.inl hphase, htasks, hclones⟩ ho

/-! ## One reply -/

def ping : JsonRpcMessage := .request { id := .number 1, method := "ping", params := none }

def pong : JsonRpcMessage := .response (.success (.number 1) (.object []))

/-- A service that answers every request at once. -/
def pongService : McpService Empty Unit Unit where
  call _ := ()
  poll _ _ := some (.ready (.ok (some pong)))

/-- A frame is answered, the stream ends, and the driver closes. -/
def pongLabels : List (WritingLabel Empty Unit) :=
  [.driver .pollOutbound, .driver .pollShutdown, .driver (.frame ping), .driver .acquired,
    .driver (.ready (.ok ())), .driver (.poll 0 ()), .driver (.resume 0), .driver .pollOutbound,
    .driver .sent, .driver .pollOutbound, .driver .pollShutdown, .driver .recvEnd,
    .driver .drained, .driver .finish]

/-- The step where there is one. -/
def pongStep (s : Writing Empty Unit) (a : WritingLabel Empty Unit) : Writing Empty Unit :=
  (step pongService "conn-1" ⟨1, none⟩ s a).getD s

def pongRun : List (WritingLabel Empty Unit × Writing Empty Unit) :=
  trace pongStep initial pongLabels

theorem writer_exact_pong :
    (final initial pongRun).driver.written = accepted initial pongRun ∧
      (final initial pongRun).driver.written = [⟨some 0, pong⟩] := by
  have hchecked : checked pongStep (fun s a => (step pongService "conn-1" ⟨1, none⟩ s a).isSome)
      initial pongLabels = true := by decide
  have hrun : Run (Step pongService "conn-1" ⟨1, none⟩) initial pongRun := by
    refine run_trace_of_checked ?_ hchecked
    intro s a hsome
    obtain ⟨t, ht⟩ := Option.isSome_iff_exists.mp hsome
    unfold Step pongStep
    rw [ht, Option.getD_some]
  have hworks : Works initial pongRun := by
    intro x hx hfailed
    have hlabel : x.2.1 ∈ (steps initial pongRun).map (fun x => x.2.1) := List.mem_map_of_mem hx
    have hlabels : pongRun.map Prod.fst = pongLabels := rfl
    rw [map_label_steps, hlabels, hfailed] at hlabel
    simp [pongLabels] at hlabel
  exact ⟨(writer_exact hrun hworks).2.1 rfl, rfl⟩

end Writing

end TurboMcp.Service
