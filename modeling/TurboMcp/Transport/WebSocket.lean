import TurboMcp.Lib.Runs

/-!
# The idle probe of the WebSocket transport

`recv` counts the pings it sent since the last inbound frame, and reads the next
frame under a timeout.  Counter and timeout are locals of one call, and the serving
loop drops the call whenever another branch of its select is ready: an outbound
message to send, or a finished handler to reap.

Time is the loop's clock.  A timeout that is due fires before time goes on.
-/

namespace TurboMcp.Transport.WebSocket

open TurboMcp.Lib

/-! ## The loop and its call -/

structure Config where
  pingInterval : Option Nat
  maxIdlePings : Option Nat

inductive Phase
  /-- No call is pending: a frame is being dispatched, or a message sent. -/
  | outside
  /-- In `stream.next()`, under its timeout. -/
  | reading (idlePings : Nat) (deadline : Option Nat)
  /-- In `stream.send(Ping)`. -/
  | pinging (idlePings : Nat)
  | ended
  deriving DecidableEq

/-- What the stream yields. -/
inductive Frame
  /-- Text or binary that decodes. -/
  | message
  /-- A ping or a pong. -/
  | control
  | close
  /-- Text or binary that does not decode. -/
  | malformed

/-- The other branches of the select. -/
inductive Branch
  | outbound
  | reap
  | shutdown

inductive Label
  | pass (time : Nat)
  /-- The loop calls `recv`. -/
  | call
  | frame (f : Frame)
  /-- The stream ends or fails. -/
  | streamEnd
  /-- The timeout elapses. -/
  | expire
  | pinged
  | pingFailed
  /-- The pending call is dropped for another branch. -/
  | interrupt (branch : Branch)
  /-- The transport fails to send, or the service to get ready. -/
  | fail

structure State where
  now : Nat
  phase : Phase
  /-- When the last inbound frame arrived; at first, when the connection opened. -/
  lastInbound : Nat
  /-- The pings sent since. -/
  pings : Nat
  deriving DecidableEq

/-- A connection is open, and the loop not yet in its select. -/
def State.init : State := ⟨0, .outside, 0, 0⟩

def State.inbound (s : State) (phase : Phase) : State :=
  { s with phase, lastInbound := s.now, pings := 0 }

def State.to (s : State) (phase : Phase) : State := { s with phase }

variable (config : Config)

/-- The timeout of a read that starts now. -/
def Config.deadline (now : Nat) : Option Nat := config.pingInterval.map (now + ·)

/-- The idle pings are used up. -/
def Config.exhausted (idlePings : Nat) : Bool :=
  config.maxIdlePings.any fun max => max ≤ idlePings

/-- Time does not go past a timeout that is due. -/
def State.canPass (s : State) (time : Nat) : Bool :=
  match s.phase with
  | .reading _ (some deadline) => s.now + time ≤ deadline
  | _ => true

def step (s : State) : Label → Option State
  | .pass time => if s.canPass time then some { s with now := s.now + time } else none
  | .call =>
      match s.phase with
      | .outside => some (s.to (.reading 0 (config.deadline s.now)))
      | _ => none
  | .frame f =>
      match s.phase, f with
      | .reading _ _, .message => some (s.inbound .outside)
      | .reading _ _, .control => some (s.inbound (.reading 0 (config.deadline s.now)))
      | .reading _ _, .close => some (s.inbound .ended)
      | .reading _ _, .malformed => some (s.inbound .ended)
      | _, _ => none
  | .streamEnd =>
      match s.phase with
      | .reading _ _ => some (s.to .ended)
      | _ => none
  | .expire =>
      match s.phase with
      | .reading idlePings (some deadline) =>
          if deadline ≤ s.now then
            if config.exhausted idlePings then some (s.to .ended)
            else some { s with phase := .pinging (idlePings + 1), pings := s.pings + 1 }
          else none
      | _ => none
  | .pinged =>
      match s.phase with
      | .pinging idlePings => some (s.to (.reading idlePings (config.deadline s.now)))
      | _ => none
  | .pingFailed =>
      match s.phase with
      | .pinging _ => some (s.to .ended)
      | _ => none
  | .interrupt branch =>
      match s.phase, branch with
      | .reading _ _, .shutdown => some (s.to .ended)
      | .pinging _, .shutdown => some (s.to .ended)
      | .reading _ _, _ => some (s.to .outside)
      | .pinging _, _ => some (s.to .outside)
      | _, _ => none
  | .fail =>
      match s.phase with
      | .outside => some (s.to .ended)
      | _ => none

/-! ## Liveness -/

/-- The connection has ended, or the time of `max + 1` intervals since the last inbound
frame is not over; and at most `max` pings were sent since. -/
structure Live (interval max : Nat) (s : State) : Prop where
  inTime : s.phase ≠ .ended → s.now ≤ s.lastInbound + (max + 1) * interval
  pings : s.pings ≤ max

/-- Shutdown apart, a pending call is only dropped at the moment of the last inbound
frame, and time only passes in a read: frames are dispatched, and messages and pings
sent, at once. -/
def Undisturbed (s : State) : Label → Prop
  | .pass time =>
      match s.phase with
      | .reading _ _ | .ended => True
      | .outside | .pinging _ => time = 0
  | .interrupt .shutdown => True
  | .interrupt _ => s.now = s.lastInbound ∧ s.pings = 0
  | _ => True

/-- Where an undisturbed connection is: the count of the pending call is that of the
pings, and its timeout ends the next interval. -/
def OnSchedule (interval max : Nat) (s : State) : Prop :=
  s.pings ≤ max ∧
    match s.phase with
    | .outside => s.now = s.lastInbound ∧ s.pings = 0
    | .reading idlePings deadline =>
        idlePings = s.pings ∧ deadline = some (s.lastInbound + (s.pings + 1) * interval) ∧
          s.now ≤ s.lastInbound + (s.pings + 1) * interval
    | .pinging idlePings => idlePings = s.pings ∧ s.now = s.lastInbound + s.pings * interval
    | .ended => True

variable {config} {interval max : Nat}

theorem live_of_onSchedule {s : State} (h : OnSchedule interval max s) :
    Live interval max s := by
  obtain ⟨hpings, hphase⟩ := h
  refine ⟨?_, hpings⟩
  intro hopen
  have hmono : ∀ k, k ≤ max + 1 → k * interval ≤ (max + 1) * interval :=
    fun k hk => Nat.mul_le_mul_right interval hk
  cases hp : s.phase with
  | outside =>
      rw [hp] at hphase
      omega
  | reading idlePings deadline =>
      rw [hp] at hphase
      have hle := hmono (s.pings + 1) (by omega)
      have hnow := hphase.2.2
      omega
  | pinging idlePings =>
      rw [hp] at hphase
      have hle := hmono s.pings (by omega)
      have hnow := hphase.2
      omega
  | ended => exact absurd hp hopen

theorem onSchedule_inbound (hinterval : config.pingInterval = some interval) (s : State) :
    OnSchedule interval max (s.inbound (.reading 0 (config.deadline s.now))) := by
  refine ⟨Nat.zero_le max, rfl, ?_, ?_⟩
  · rw [Config.deadline, hinterval]
    show some (s.now + interval) = some (s.now + (0 + 1) * interval)
    rw [Nat.zero_add, Nat.one_mul]
  · show s.now ≤ s.now + (0 + 1) * interval
    omega

/-- A timeout that elapses ends the connection, or the next interval begins. -/
theorem onSchedule_expire (hmax : config.maxIdlePings = some max) {s t : State}
    (h : step config s .expire = some t) (hs : OnSchedule interval max s) :
    OnSchedule interval max t := by
  obtain ⟨hpings, hphase⟩ := hs
  simp only [step] at h
  split at h
  · rename_i idlePings deadline hp
    rw [hp] at hphase
    obtain ⟨rfl, hdeadline, hnow⟩ := hphase
    obtain rfl := Option.some.inj hdeadline
    split at h
    · rename_i hdue
      rw [Config.exhausted, hmax] at h
      split at h
      · cases h
        exact ⟨hpings, trivial⟩
      · rename_i hleft
        have hlt : s.pings < max := by simpa using hleft
        cases h
        refine ⟨hlt, rfl, ?_⟩
        exact Nat.le_antisymm hnow hdue
    · cases h
  · cases h

theorem onSchedule_step (hinterval : config.pingInterval = some interval)
    (hmax : config.maxIdlePings = some max) {s t : State} {a : Label}
    (h : step config s a = some t) (hquiet : Undisturbed s a)
    (hs : OnSchedule interval max s) : OnSchedule interval max t := by
  obtain ⟨hpings, hphase⟩ := hs
  cases a with
  | pass time =>
      simp only [step] at h
      split at h
      · rename_i hpass
        cases h
        refine ⟨hpings, ?_⟩
        show match s.phase with
          | .outside => s.now + time = s.lastInbound ∧ s.pings = 0
          | .reading idlePings deadline => idlePings = s.pings ∧
              deadline = some (s.lastInbound + (s.pings + 1) * interval) ∧
              s.now + time ≤ s.lastInbound + (s.pings + 1) * interval
          | .pinging idlePings => idlePings = s.pings ∧
              s.now + time = s.lastInbound + s.pings * interval
          | .ended => True
        unfold Undisturbed at hquiet
        unfold State.canPass at hpass
        cases hp : s.phase with
        | outside =>
            rw [hp] at hphase hquiet
            obtain rfl : time = 0 := hquiet
            exact hphase
        | reading idlePings deadline =>
            rw [hp] at hphase hpass
            obtain ⟨hidle, rfl, -⟩ := hphase
            exact ⟨hidle, rfl, of_decide_eq_true hpass⟩
        | pinging idlePings =>
            rw [hp] at hphase hquiet
            obtain rfl : time = 0 := hquiet
            exact hphase
        | ended => trivial
      · cases h
  | call =>
      simp only [step] at h
      split at h
      · rename_i hp
        rw [hp] at hphase
        obtain ⟨hnow, hzero⟩ := hphase
        cases h
        have hstart : OnSchedule interval max (s.inbound (.reading 0 (config.deadline s.now))) :=
          onSchedule_inbound hinterval s
        have hsame : s.inbound (.reading 0 (config.deadline s.now)) =
            s.to (.reading 0 (config.deadline s.now)) := by
          unfold State.inbound State.to
          rw [← hnow, hzero]
        rwa [hsame] at hstart
      · cases h
  | frame f =>
      simp only [step] at h
      split at h
      · cases h
        exact ⟨Nat.zero_le max, rfl, rfl⟩
      · cases h
        exact onSchedule_inbound hinterval s
      · cases h
        exact ⟨Nat.zero_le max, trivial⟩
      · cases h
        exact ⟨Nat.zero_le max, trivial⟩
      · cases h
  | streamEnd =>
      simp only [step] at h
      split at h
      · cases h
        exact ⟨hpings, trivial⟩
      · cases h
  | expire => exact onSchedule_expire hmax h ⟨hpings, hphase⟩
  | pinged =>
      simp only [step] at h
      split at h
      · rename_i idlePings hp
        rw [hp] at hphase
        obtain ⟨rfl, hnow⟩ := hphase
        cases h
        have hnext : s.now + interval = s.lastInbound + (s.pings + 1) * interval := by
          rw [hnow, Nat.succ_mul, Nat.add_assoc]
        refine ⟨hpings, rfl, ?_, ?_⟩
        · rw [Config.deadline, hinterval]
          exact congrArg some hnext
        · show s.now ≤ s.lastInbound + (s.pings + 1) * interval
          omega
      · cases h
  | pingFailed =>
      simp only [step] at h
      split at h
      · cases h
        exact ⟨hpings, trivial⟩
      · cases h
  | interrupt branch =>
      -- any other branch lets the loop call again, at the moment of the last frame
      have hagain (hbranch : branch ≠ .shutdown) : OnSchedule interval max (s.to .outside) := by
        have hnow : s.now = s.lastInbound ∧ s.pings = 0 := by
          cases branch with
          | shutdown => exact absurd rfl hbranch
          | outbound => exact hquiet
          | reap => exact hquiet
        exact ⟨hpings, hnow⟩
      simp only [step] at h
      split at h
      · cases h
        exact ⟨hpings, trivial⟩
      · cases h
        exact ⟨hpings, trivial⟩
      · rename_i hbranch
        cases h
        exact hagain (by simpa using hbranch)
      · rename_i hbranch
        cases h
        exact hagain (by simpa using hbranch)
      · cases h
  | fail =>
      simp only [step] at h
      split at h
      · cases h
        exact ⟨hpings, trivial⟩
      · cases h

/-- **Liveness**: a run in which nothing disturbs the pending call ends the connection
within `max + 1` idle intervals of the last inbound frame, after at most `max` pings. -/
theorem live_of_undisturbed (hinterval : config.pingInterval = some interval)
    (hmax : config.maxIdlePings = some max) {tr : List (Label × State)}
    (hrun : Run (fun s a t => step config s a = some t) .init tr)
    (hquiet : ∀ x ∈ steps .init tr, Undisturbed x.1 x.2.1) :
    ∀ s ∈ states .init tr, Live interval max s := by
  have hschedule : ∀ s ∈ states .init tr, OnSchedule interval max s := by
    refine hrun.invariant_of_guard hquiet ?_ ?_
    · exact ⟨Nat.zero_le max, rfl, rfl⟩
    · intro s a t hstep hguard hs
      exact onSchedule_step hinterval hmax hstep hguard hs
  intro s hs
  exact live_of_onSchedule (hschedule s hs)

/-! ### A silent peer -/

/-- An interval of two units, and one ping. -/
def probing : Config := ⟨some 2, some 1⟩

def probingStep (s : State) (a : Label) : State := (step probing s a).getD s

/-- Nothing disturbs the call: a ping after one interval, the end after two. -/
def silentRun : List (Label × State) :=
  trace probingStep .init [.call, .pass 2, .expire, .pinged, .pass 2, .expire, .pass 7]

theorem silent_peer_ended :
    final .init silentRun = ⟨11, .ended, 0, 1⟩ ∧ Live 2 1 (final .init silentRun) := by
  have hrun : Run (fun s a t => step probing s a = some t) .init silentRun := by
    simp only [silentRun, trace, run_cons, run_nil, and_true]
    exact ⟨rfl, rfl, rfl, rfl, rfl, rfl, rfl⟩
  refine ⟨rfl, live_of_undisturbed rfl rfl hrun ?_ _ (final_mem_states _ _)⟩
  intro x hx
  simp only [silentRun, trace, steps_cons, steps_nil, List.mem_cons, List.not_mem_nil,
    or_false] at hx
  rcases hx with rfl | rfl | rfl | rfl | rfl | rfl | rfl <;> trivial

/-- A message goes out every unit of time. -/
def chattyLabels : Nat → List Label
  | 0 => []
  | n + 1 => [.call, .pass 1, .interrupt .outbound] ++ chattyLabels n

/-- A connection in use, of which nothing was heard for `time`. -/
def chatty (time : Nat) : State := ⟨time, .outside, 0, 0⟩

theorem reach_chatty (n time : Nat) :
    reach (step probing) (chatty time) (chattyLabels n) = some (chatty (time + n)) := by
  induction n generalizing time with
  | zero => rfl
  | succ n ih =>
      have hround : reach (step probing) (chatty time)
          [.call, .pass 1, .interrupt .outbound] = some (chatty (time + 1)) := by
        have hpass : (⟨time, .reading 0 (some (time + 2)), 0, 0⟩ : State).canPass 1 = true := by
          simp [State.canPass]
        show ((if (⟨time, .reading 0 (some (time + 2)), 0, 0⟩ : State).canPass 1 then _
          else none).bind _) = _
        rw [if_pos hpass]
        rfl
      rw [chattyLabels, reach_append, hround, Option.bind_some, ih, Nat.add_assoc,
        Nat.add_comm 1 n]

/-- **Never ended**: a server that sends a message each unit of time never misses the
peer; two intervals are over after four units, and the connection still stands after
five, or any number. -/
theorem chatty_server_never_ends :
    (∃ tr, Run (fun s a t => step probing s a = some t) .init tr ∧
        ∃ s ∈ states .init tr, ¬ Live 2 1 s) ∧
      ∀ n, reach (step probing) .init (chattyLabels n) = some (chatty n) := by
  have hreach : ∀ n, reach (step probing) .init (chattyLabels n) = some (chatty n) := by
    intro n
    have h := reach_chatty n 0
    rwa [Nat.zero_add] at h
  refine ⟨?_, hreach⟩
  obtain ⟨tr, hrun, hmem, -⟩ := exists_run_of_reach (hreach 5)
  refine ⟨tr, hrun, chatty 5, hmem, ?_⟩
  intro hlive
  have htime := hlive.inTime (by decide)
  exact absurd htime (by decide)

end TurboMcp.Transport.WebSocket
