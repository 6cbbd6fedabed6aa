import Mathlib.Logic.Function.Basic
import TurboMcp.Client.Handshake
import TurboMcp.Lib.Dict
import TurboMcp.Lib.Runs

/-!
# Requests of the client

A request of the client registers a channel under its own id, hands the frame to
the actor and waits for the response, for its timeout, or until the caller drops
it.  The actor takes the sender out of the table by the id of a response, and
clears the table when it ends; a while later its receiver is gone, and what is
handed to it is refused.  Responses that answer nobody and frames of other kinds
do not touch the table and are left out.
-/

namespace TurboMcp.Client.Correlation

open TurboMcp.Core TurboMcp.Lib

/-! ## Calls -/

inductive Phase
  | unissued
  /-- In the table, and the frame is being handed to the actor. -/
  | registered
  | awaiting
  /-- About to take the id out of the table: refused, or out of time. -/
  | giving (e : ClientError)
  | returned (out : Except ClientError Value)
  /-- The caller has dropped the future. -/
  | dropped

/-- One call of `Connection::request`. -/
structure Call where
  phase : Phase
  /-- The call's channel. -/
  slot : Option JsonRpcResponse

def Call.unissued : Call := { phase := .unissued, slot := none }

/-- The receiver is there. -/
def Call.isOpen (c : Call) : Bool :=
  match c.phase with
  | .registered | .awaiting => true
  | _ => false

/-- The call is running. -/
def Call.waiting (c : Call) : Bool :=
  match c.phase with
  | .registered | .awaiting | .giving _ => true
  | _ => false

def Call.isDropped (c : Call) : Bool :=
  match c.phase with
  | .dropped => true
  | _ => false

/-- Ids are counted from one. -/
def requestId (n : Nat) : RequestId := .number (n + 1)

theorem requestId_injective {m n : Nat} (h : requestId m = requestId n) : m = n := by
  unfold requestId at h
  injection h with h
  omega

/-! ## The connection -/

inductive ActorPc
  | running
  /-- The loop is left. -/
  | ended
  | cleared
  /-- The receiver of the outbound channel is dropped. -/
  | gone
  deriving DecidableEq

structure State where
  next : Nat
  pending : Dict RequestId Nat
  calls : Nat → Call
  /-- The sender `complete_pending` has taken out, with what it is about to send. -/
  hand : Option (Nat × JsonRpcResponse)
  actor : ActorPc

def initial : State where
  next := 0
  pending := Dict.empty
  calls := fun _ => .unissued
  hand := none
  actor := .running

inductive Label
  | request
  | sent (n : Nat)
  | refused (n : Nat)
  | forget (n : Nat)
  | receive (n : Nat)
  /-- The sender is gone and nothing was sent. -/
  | lost (n : Nat)
  | elapse (n : Nat)
  | drop (n : Nat)
  | frame (resp : JsonRpcResponse)
  | deliver
  | stop
  | clear
  | leave

namespace State

def setPhase (s : State) (n : Nat) (phase : Phase) : State :=
  { s with calls := Function.update s.calls n { s.calls n with phase } }

/-- What is sent is lost without a receiver. -/
def accept (s : State) (n : Nat) (resp : JsonRpcResponse) : State :=
  if (s.calls n).isOpen then
    { s with calls := Function.update s.calls n { s.calls n with slot := some resp } }
  else s

/-- The call's sender is neither in the table nor in the actor's hand. -/
def senderless (s : State) (n : Nat) : Bool :=
  (s.pending.get (requestId n)).isNone && !s.hand.any fun x => x.1 = n

end State

def step (s : State) : Label → Option State
  | .request =>
      some
        { s with
          next := s.next + 1
          pending := s.pending.insert (requestId s.next) s.next
          calls := Function.update s.calls s.next { phase := .registered, slot := none } }
  | .sent n =>
      match (s.calls n).phase with
      | .registered => if s.actor = .gone then none else some (s.setPhase n .awaiting)
      | _ => none
  | .refused n =>
      match (s.calls n).phase with
      | .registered => if s.actor = .gone then some (s.setPhase n (.giving .closed)) else none
      | _ => none
  | .forget n =>
      match (s.calls n).phase with
      | .giving e =>
          some { s.setPhase n (.returned (.error e)) with
            pending := s.pending.remove (requestId n) }
      | _ => none
  | .receive n =>
      match (s.calls n).phase, (s.calls n).slot with
      | .awaiting, some resp => some (s.setPhase n (.returned (completePending resp)))
      | _, _ => none
  | .lost n =>
      match (s.calls n).phase, (s.calls n).slot with
      | .awaiting, none =>
          if s.senderless n then some (s.setPhase n (.returned (.error .closed))) else none
      | _, _ => none
  | .elapse n =>
      match (s.calls n).phase with
      | .awaiting => some (s.setPhase n (.giving .timeout))
      | _ => none
  | .drop n => if (s.calls n).isOpen then some (s.setPhase n .dropped) else none
  | .frame resp =>
      if s.actor = .running ∧ s.hand.isNone then
        some
          { s with
            pending := s.pending.remove resp.id
            hand := (s.pending.get resp.id).map fun n => (n, resp) }
      else none
  | .deliver => s.hand.map fun x => { s.accept x.1 x.2 with hand := none }
  | .stop => if s.actor = .running ∧ s.hand.isNone then some { s with actor := .ended } else none
  | .clear =>
      if s.actor = .ended then some { s with pending := Dict.empty, actor := .cleared } else none
  | .leave => if s.actor = .cleared then some { s with actor := .gone } else none

def Step (s : State) (a : Label) (t : State) : Prop := step s a = some t

/-- What the move puts into the `n`th call's channel. -/
def State.takes (s : State) (n : Nat) : Label → List JsonRpcResponse
  | .deliver =>
      match s.hand with
      | some (m, resp) => if m = n ∧ (s.calls n).isOpen = true then [resp] else []
      | none => []
  | _ => []

/-- The responses the `n`th call receives in a run. -/
def received (n : Nat) (tr : List (Label × State)) : List JsonRpcResponse :=
  (steps initial tr).flatMap fun x => x.1.takes n x.2.1

/-- The responses that arrive in a run. -/
def arrived (tr : List (Label × State)) : List JsonRpcResponse :=
  tr.filterMap fun x => match x.1 with
    | .frame resp => some resp
    | _ => none

/-! ## What every interleaving keeps -/

variable {s t : State} {n : Nat}

/-- The sender may still be in the table. -/
def Call.tracked (c : Call) : Bool := c.waiting || c.isDropped

/-- A sender is in the table, in the actor's hand, or used. -/
structure State.Sound (s : State) : Prop where
  keyed : ∀ id n, s.pending.get id = some n → id = requestId n ∧ (s.calls n).tracked = true
  inHand : ∀ n resp, s.hand = some (n, resp) → resp.id = requestId n ∧
    s.pending.get (requestId n) = none ∧ (s.calls n).slot = none
  filled : ∀ n resp, (s.calls n).slot = some resp → resp.id = requestId n ∧
    s.pending.get (requestId n) = none ∧ ∀ r, s.hand ≠ some (n, r)
  fresh : ∀ n, s.next ≤ n → s.calls n = .unissued ∧ ∀ r, s.hand ≠ some (n, r)
  answered : ∀ n out, (s.calls n).phase = .returned out →
    (∃ resp, (s.calls n).slot = some resp ∧ out = completePending resp) ∨
      out = .error .closed ∨ out = .error .timeout
  gives : ∀ n e, (s.calls n).phase = .giving e → e = .closed ∨ e = .timeout
  halted : s.actor ≠ .running → s.hand = none

theorem sound_initial : initial.Sound where
  keyed := by
    intro id n hget
    cases hget
  inHand := by
    intro n resp hhand
    cases hhand
  filled := by
    intro n resp hslot
    cases hslot
  fresh := fun n _ => ⟨rfl, fun r hr => by cases hr⟩
  answered := by
    intro n out hphase
    cases hphase
  gives := by
    intro n e hphase
    cases hphase
  halted := fun _ => rfl

@[simp] theorem setPhase_self (s : State) (n : Nat) (phase : Phase) :
    (s.setPhase n phase).calls n = { s.calls n with phase } := Function.update_self ..

theorem setPhase_ne (s : State) {m : Nat} (n : Nat) (phase : Phase) (h : m ≠ n) :
    (s.setPhase n phase).calls m = s.calls m := Function.update_of_ne h ..

@[simp] theorem slot_setPhase (s : State) (m n : Nat) (phase : Phase) :
    ((s.setPhase n phase).calls m).slot = (s.calls m).slot := by
  by_cases h : m = n
  · subst h
    rw [setPhase_self]
  · rw [setPhase_ne s n phase h]

theorem State.Sound.lt_next (h : s.Sound) (hn : s.calls n ≠ .unissued) : n < s.next := by
  by_contra hge
  exact hn (h.fresh n (Nat.le_of_not_lt hge)).1

theorem State.Sound.get_none_of_fresh (h : s.Sound) (hn : s.next ≤ n) :
    s.pending.get (requestId n) = none := by
  rcases hget : s.pending.get (requestId n) with _ | m
  · rfl
  · obtain ⟨hid, htracked⟩ := h.keyed _ m hget
    rw [← requestId_injective hid, (h.fresh n hn).1] at htracked
    cases htracked

/-- A running call goes on; at most its own sender leaves the table. -/
theorem State.Sound.move (h : s.Sound) (hn : (s.calls n).waiting = true) (phase : Phase)
    {pending : Dict RequestId Nat}
    (hmap : ∀ id m, pending.get id = some m → s.pending.get id = some m ∧
      (m = n → ({ s.calls n with phase } : Call).tracked = true))
    (hanswered : ∀ out, phase = .returned out →
      (∃ resp, (s.calls n).slot = some resp ∧ out = completePending resp) ∨
        out = .error .closed ∨ out = .error .timeout)
    (hgives : ∀ e, phase = .giving e → e = .closed ∨ e = .timeout) :
    State.Sound { s.setPhase n phase with pending } := by
  have hlt : n < s.next := by
    apply h.lt_next
    intro hunissued
    rw [hunissued] at hn
    cases hn
  have hnone : ∀ {id}, s.pending.get id = none → pending.get id = none := by
    intro id hid
    rcases hget : pending.get id with _ | m
    · rfl
    · rw [(hmap id m hget).1] at hid
      cases hid
  refine ⟨?_, ?_, ?_, ?_, ?_, ?_, h.halted⟩
  · intro id m hget
    obtain ⟨hget, htracked⟩ := hmap id m hget
    obtain ⟨hid, hold⟩ := h.keyed id m hget
    refine ⟨hid, ?_⟩
    by_cases hm : m = n
    · subst hm
      show ((s.setPhase m phase).calls m).tracked = true
      rw [setPhase_self]
      exact htracked rfl
    · show ((s.setPhase n phase).calls m).tracked = true
      rw [setPhase_ne s n phase hm]
      exact hold
  · intro m resp hhand
    obtain ⟨hid, hget, hslot⟩ := h.inHand m resp hhand
    exact ⟨hid, hnone hget, (slot_setPhase s m n phase).trans hslot⟩
  · intro m resp hslot
    obtain ⟨hid, hget, hhand⟩ := h.filled m resp ((slot_setPhase s m n phase).symm.trans hslot)
    exact ⟨hid, hnone hget, hhand⟩
  · intro m hm
    have hne : m ≠ n := fun heq => Nat.not_le_of_lt hlt (heq ▸ hm)
    exact ⟨(setPhase_ne s n phase hne).trans (h.fresh m hm).1, (h.fresh m hm).2⟩
  · intro m out hout
    by_cases hm : m = n
    · subst hm
      have hout : ((s.setPhase m phase).calls m).phase = .returned out := hout
      rw [setPhase_self] at hout
      show (∃ resp, ((s.setPhase m phase).calls m).slot = some resp ∧ _) ∨ _
      rw [slot_setPhase]
      exact hanswered out hout
    · show (∃ resp, ((s.setPhase n phase).calls m).slot = some resp ∧ _) ∨ _
      have hout : ((s.setPhase n phase).calls m).phase = .returned out := hout
      rw [setPhase_ne s n phase hm] at hout ⊢
      exact h.answered m out hout
  · intro m e he
    by_cases hm : m = n
    · subst hm
      have he : ((s.setPhase m phase).calls m).phase = .giving e := he
      rw [setPhase_self] at he
      exact hgives e he
    · have he : ((s.setPhase n phase).calls m).phase = .giving e := he
      rw [setPhase_ne s n phase hm] at he
      exact h.gives m e he

/-- A call's own id, looked up by anyone. -/
theorem State.Sound.eq_of_get (h : s.Sound) {id : RequestId} {m : Nat}
    (hget : s.pending.get id = some m) (hm : m = n) : s.pending.get (requestId n) = some n := by
  subst hm
  rw [← (h.keyed id m hget).1]
  exact hget

theorem waiting_of_phase {c : Call} (h : c.phase = .registered ∨ c.phase = .awaiting ∨
    ∃ e, c.phase = .giving e) : c.waiting = true := by
  unfold Call.waiting
  rcases h with h | h | ⟨e, h⟩
  · rw [h]
  · rw [h]
  · rw [h]

/-- A call starts, under an id of its own. -/
theorem State.Sound.request (h : s.Sound) :
    State.Sound
      { s with
        next := s.next + 1
        pending := s.pending.insert (requestId s.next) s.next
        calls := Function.update s.calls s.next { phase := .registered, slot := none } } := by
  have hself : Function.update s.calls s.next { phase := .registered, slot := none } s.next =
      ({ phase := .registered, slot := none } : Call) := Function.update_self ..
  have hother : ∀ {m}, m ≠ s.next →
      Function.update s.calls s.next { phase := .registered, slot := none } m = s.calls m :=
    fun hm => Function.update_of_ne hm ..
  have hget : ∀ {m}, m ≠ s.next →
      (s.pending.insert (requestId s.next) s.next).get (requestId m) =
        s.pending.get (requestId m) := by
    intro m hm
    rw [Dict.get_insert, if_neg fun heq => hm (requestId_injective heq).symm]
  have hfresh := h.fresh s.next (Nat.le_refl _)
  refine ⟨?_, ?_, ?_, ?_, ?_, ?_, h.halted⟩
  · intro id m hm
    replace hm : (s.pending.insert (requestId s.next) s.next).get id = some m := hm
    rw [Dict.get_insert] at hm
    split at hm
    · rename_i hid
      cases hm
      exact ⟨hid.symm, congrArg Call.tracked hself⟩
    · obtain ⟨hid, htracked⟩ := h.keyed id m hm
      have hne : m ≠ s.next := by
        rintro rfl
        rw [hfresh.1] at htracked
        cases htracked
      exact ⟨hid, (congrArg Call.tracked (hother hne)).trans htracked⟩
  · intro m resp hhand
    have hne : m ≠ s.next := by
      rintro rfl
      exact hfresh.2 resp hhand
    obtain ⟨hid, hnone, hslot⟩ := h.inHand m resp hhand
    exact ⟨hid, (hget hne).trans hnone, (congrArg Call.slot (hother hne)).trans hslot⟩
  · intro m resp hslot
    have hne : m ≠ s.next := by
      rintro rfl
      cases (congrArg Call.slot hself).symm.trans hslot
    obtain ⟨hid, hnone, hhand⟩ :=
      h.filled m resp ((congrArg Call.slot (hother hne)).symm.trans hslot)
    exact ⟨hid, (hget hne).trans hnone, hhand⟩
  · intro m hm
    have hlt : s.next < m := hm
    obtain ⟨hcall, hhand⟩ := h.fresh m (Nat.le_of_lt hlt)
    exact ⟨(hother (Nat.ne_of_gt hlt)).trans hcall, hhand⟩
  · intro m out hout
    have hne : m ≠ s.next := by
      rintro rfl
      cases (congrArg Call.phase hself).symm.trans hout
    show (∃ resp, (Function.update s.calls s.next _ m).slot = some resp ∧ _) ∨ _
    rw [hother hne]
    exact h.answered m out ((congrArg Call.phase (hother hne)).symm.trans hout)
  · intro m e he
    have hne : m ≠ s.next := by
      rintro rfl
      cases (congrArg Call.phase hself).symm.trans he
    exact h.gives m e ((congrArg Call.phase (hother hne)).symm.trans he)

/-- A response takes the sender out that its id names, if one is there. -/
theorem State.Sound.frame (h : s.Sound) (hactor : s.actor = .running) (resp : JsonRpcResponse) :
    State.Sound
      { s with
        pending := s.pending.remove resp.id
        hand := (s.pending.get resp.id).map fun n => (n, resp) } := by
  have htaken : ∀ {m r}, (s.pending.get resp.id).map (fun n => (n, resp)) = some (m, r) →
      s.pending.get (requestId m) = some m ∧ resp.id = requestId m ∧ r = resp := by
    intro m r hhand
    obtain ⟨m', hget, heq⟩ := Option.map_eq_some_iff.mp hhand
    cases heq
    have hid := (h.keyed _ m hget).1
    exact ⟨hid ▸ hget, hid, rfl⟩
  have hgone : ∀ {id}, s.pending.get id = none → (s.pending.remove resp.id).get id = none := by
    intro id hid
    rw [Dict.get_remove, hid]
    split <;> rfl
  refine ⟨?_, ?_, ?_, ?_, h.answered, h.gives, ?_⟩
  · intro id m hm
    replace hm : (s.pending.remove resp.id).get id = some m := hm
    rw [Dict.get_remove] at hm
    split at hm
    · cases hm
    · exact h.keyed id m hm
  · intro m r hhand
    obtain ⟨hget, hid, rfl⟩ := htaken hhand
    refine ⟨hid, ?_, ?_⟩
    · show (s.pending.remove r.id).get (requestId m) = none
      rw [Dict.get_remove, if_pos hid]
    · rcases hslot : (s.calls m).slot with _ | r'
      · rfl
      · rw [(h.filled m r' hslot).2.1] at hget
        cases hget
  · intro m r hslot
    obtain ⟨hid, hnone, -⟩ := h.filled m r hslot
    refine ⟨hid, hgone hnone, ?_⟩
    intro r' hhand
    rw [(htaken hhand).1] at hnone
    cases hnone
  · intro m hm
    refine ⟨(h.fresh m hm).1, ?_⟩
    intro r hhand
    have hnone := h.get_none_of_fresh hm
    rw [(htaken hhand).1] at hnone
    cases hnone
  · intro hhalted
    exact absurd hactor hhalted

theorem accept_ne (s : State) {m n : Nat} (resp : JsonRpcResponse) (h : m ≠ n) :
    (s.accept n resp).calls m = s.calls m := by
  unfold State.accept
  split
  · exact Function.update_of_ne h ..
  · rfl

theorem accept_self (s : State) (n : Nat) (resp : JsonRpcResponse) :
    (s.accept n resp).calls n =
      if (s.calls n).isOpen then { s.calls n with slot := some resp } else s.calls n := by
  unfold State.accept
  split
  · exact Function.update_self ..
  · rfl

@[simp] theorem phase_accept (s : State) (m n : Nat) (resp : JsonRpcResponse) :
    ((s.accept n resp).calls m).phase = (s.calls m).phase := by
  by_cases h : m = n
  · subst h
    rw [accept_self]
    split <;> rfl
  · rw [accept_ne s resp h]

@[simp] theorem pending_accept (s : State) (n : Nat) (resp : JsonRpcResponse) :
    (s.accept n resp).pending = s.pending := by
  unfold State.accept
  split <;> rfl

@[simp] theorem next_accept (s : State) (n : Nat) (resp : JsonRpcResponse) :
    (s.accept n resp).next = s.next := by
  unfold State.accept
  split <;> rfl

@[simp] theorem actor_accept (s : State) (n : Nat) (resp : JsonRpcResponse) :
    (s.accept n resp).actor = s.actor := by
  unfold State.accept
  split <;> rfl

theorem tracked_of_phase {c d : Call} (h : c.phase = d.phase) : c.tracked = d.tracked := by
  unfold Call.tracked Call.waiting Call.isDropped
  rw [h]

theorem not_open_of_returned {c : Call} {out : Except ClientError Value}
    (h : c.phase = .returned out) : c.isOpen = false := by
  unfold Call.isOpen
  rw [h]

/-- A response arrives in its own call's channel, or nowhere. -/
theorem State.Sound.deliver (h : s.Sound) {m : Nat} {resp : JsonRpcResponse}
    (hhand : s.hand = some (m, resp)) : State.Sound { s.accept m resp with hand := none } := by
  obtain ⟨hid, hnone, hslot⟩ := h.inHand m resp hhand
  have hissued : m < s.next := by
    by_contra hge
    exact (h.fresh m (Nat.le_of_not_lt hge)).2 resp hhand
  refine ⟨?_, ?_, ?_, ?_, ?_, ?_, fun _ => rfl⟩
  · intro id n hget
    replace hget : (s.accept m resp).pending.get id = some n := hget
    rw [pending_accept] at hget
    obtain ⟨hid, htracked⟩ := h.keyed id n hget
    exact ⟨hid, (tracked_of_phase (phase_accept s n m resp)).trans htracked⟩
  · intro n r hr
    cases hr
  · intro n r hr
    show r.id = requestId n ∧ (s.accept m resp).pending.get (requestId n) = none ∧ _
    rw [pending_accept]
    by_cases hn : n = m
    · subst hn
      replace hr : ((s.accept n resp).calls n).slot = some r := hr
      rw [accept_self] at hr
      split at hr
      · cases hr
        exact ⟨hid, hnone, fun r hr => by cases hr⟩
      · rw [hslot] at hr
        cases hr
    · have hold := h.filled n r ((congrArg Call.slot (accept_ne s resp hn)).symm.trans hr)
      exact ⟨hold.1, hold.2.1, fun r hr => by cases hr⟩
  · intro n hn
    replace hn : (s.accept m resp).next ≤ n := hn
    rw [next_accept] at hn
    have hne : n ≠ m := fun heq => Nat.not_le_of_lt hissued (heq ▸ hn)
    exact ⟨(accept_ne s resp hne).trans (h.fresh n hn).1, fun r hr => by cases hr⟩
  · intro n out hout
    have hphase : (s.calls n).phase = .returned out := (phase_accept s n m resp).symm.trans hout
    have hcall : (s.accept m resp).calls n = s.calls n := by
      by_cases hn : n = m
      · subst hn
        rw [accept_self, not_open_of_returned hphase]
        rfl
      · exact accept_ne s resp hn
    show (∃ r, ((s.accept m resp).calls n).slot = some r ∧ _) ∨ _
    rw [hcall]
    exact h.answered n out hphase
  · intro n e he
    exact h.gives n e ((phase_accept s n m resp).symm.trans he)

/-- A call that goes on waiting keeps its sender where it is. -/
theorem State.Sound.stay (h : s.Sound) (hn : (s.calls n).waiting = true) {phase : Phase}
    (htracked : ({ s.calls n with phase } : Call).tracked = true)
    (hnot : ∀ out, phase ≠ .returned out)
    (hgives : ∀ e, phase = .giving e → e = .closed ∨ e = .timeout) :
    (s.setPhase n phase).Sound :=
  h.move hn phase (fun _ _ hget => ⟨hget, fun _ => htracked⟩)
    (fun out hout => absurd hout (hnot out)) hgives

/-- A call whose sender has left the table returns. -/
theorem State.Sound.finish (h : s.Sound) (hn : (s.calls n).waiting = true)
    (hnone : s.pending.get (requestId n) = none) {out : Except ClientError Value}
    (hout : (∃ resp, (s.calls n).slot = some resp ∧ out = completePending resp) ∨
      out = .error .closed ∨ out = .error .timeout) :
    (s.setPhase n (.returned out)).Sound := by
  refine h.move hn (.returned out) (fun id m hget => ⟨hget, fun hm => ?_⟩) ?_ ?_
  · have hsome := h.eq_of_get hget hm
    rw [hnone] at hsome
    cases hsome
  · intro out' hout'
    cases hout'
    exact hout
  · intro e he
    cases he

/-- **Step lemma**: a sender is used at most once, and for its own call. -/
theorem sound_step {a : Label} (h : s.Sound) (hstep : Step s a t) : t.Sound := by
  unfold Step step at hstep
  cases a with
  | request =>
      cases hstep
      exact h.request
  | sent n =>
      dsimp only at hstep
      split at hstep
      · rename_i hphase
        split at hstep
        · cases hstep
        · cases hstep
          exact h.stay (waiting_of_phase (.inl hphase)) rfl (fun out => Phase.noConfusion)
            fun e he => Phase.noConfusion he
      · cases hstep
  | refused n =>
      dsimp only at hstep
      split at hstep
      · rename_i hphase
        split at hstep
        · cases hstep
          refine h.stay (waiting_of_phase (.inl hphase)) rfl (fun out => Phase.noConfusion) ?_
          intro e he
          cases he
          exact .inl rfl
        · cases hstep
      · cases hstep
  | forget n =>
      dsimp only at hstep
      split at hstep
      · rename_i e hphase
        cases hstep
        refine h.move (waiting_of_phase (.inr (.inr ⟨e, hphase⟩))) (.returned (.error e)) ?_ ?_ ?_
        · intro id m hget
          rw [Dict.get_remove] at hget
          split at hget
          · cases hget
          · rename_i hne
            refine ⟨hget, fun hm => ?_⟩
            subst hm
            exact absurd (h.keyed id m hget).1.symm hne
        · intro out hout
          cases hout
          rcases h.gives n e hphase with rfl | rfl
          · exact .inr (.inl rfl)
          · exact .inr (.inr rfl)
        · intro e' he'
          cases he'
      · cases hstep
  | receive n =>
      dsimp only at hstep
      split at hstep
      · rename_i resp hphase hslot
        cases hstep
        exact h.finish (waiting_of_phase (.inr (.inl hphase))) (h.filled n resp hslot).2.1
          (.inl ⟨resp, hslot, rfl⟩)
      · cases hstep
  | lost n =>
      dsimp only at hstep
      split at hstep
      · rename_i hphase hslot
        split at hstep
        · rename_i hsenderless
          cases hstep
          have hnone := (Bool.and_eq_true_iff.mp hsenderless).1
          exact h.finish (waiting_of_phase (.inr (.inl hphase)))
            (Option.isNone_iff_eq_none.mp hnone)
            (.inr (.inl rfl))
        · cases hstep
      · cases hstep
  | elapse n =>
      dsimp only at hstep
      split at hstep
      · rename_i hphase
        cases hstep
        refine h.stay (waiting_of_phase (.inr (.inl hphase))) rfl (fun out => Phase.noConfusion) ?_
        intro e he
        cases he
        exact .inr rfl
      · cases hstep
  | drop n =>
      dsimp only at hstep
      split at hstep
      · rename_i hopen
        cases hstep
        have hwaiting : (s.calls n).waiting = true := by
          unfold Call.isOpen at hopen
          split at hopen
          · rename_i hphase
            exact waiting_of_phase (.inl hphase)
          · rename_i hphase
            exact waiting_of_phase (.inr (.inl hphase))
          · cases hopen
        exact h.stay hwaiting rfl (fun out => Phase.noConfusion) fun e he => Phase.noConfusion he
      · cases hstep
  | frame resp =>
      dsimp only at hstep
      split at hstep
      · rename_i hactor
        cases hstep
        exact h.frame hactor.1 resp
      · cases hstep
  | deliver =>
      obtain ⟨⟨m, resp⟩, hhand, hstep⟩ := Option.map_eq_some_iff.mp hstep
      cases hstep
      exact h.deliver hhand
  | stop =>
      dsimp only at hstep
      split at hstep
      · rename_i hactor
        cases hstep
        exact ⟨h.keyed, h.inHand, h.filled, h.fresh, h.answered, h.gives,
          fun _ => Option.isNone_iff_eq_none.mp hactor.2⟩
      · cases hstep
  | clear =>
      dsimp only at hstep
      split at hstep
      · rename_i hactor
        cases hstep
        have hhand : s.hand = none := h.halted (by rw [hactor]; exact ActorPc.noConfusion)
        refine ⟨?_, ?_, ?_, h.fresh, h.answered, h.gives, fun _ => hhand⟩
        · intro id m hget
          cases hget
        · intro m resp hm
          exact absurd (hhand.symm.trans hm) (Option.some_ne_none _).symm
        · intro m resp hslot
          exact ⟨(h.filled m resp hslot).1, rfl, (h.filled m resp hslot).2.2⟩
      · cases hstep
  | leave =>
      dsimp only at hstep
      split at hstep
      · rename_i hactor
        cases hstep
        exact ⟨h.keyed, h.inHand, h.filled, h.fresh, h.answered, h.gives,
          fun _ => h.halted (by rw [hactor]; exact ActorPc.noConfusion)⟩
      · cases hstep

theorem sound_run {tr : List (Label × State)} (hrun : Run Step initial tr) :
    ∀ s ∈ states initial tr, s.Sound :=
  invariant_of_steps sound_initial fun x hx h => sound_step h (hrun x hx)

/-! ## What one step changes -/

/-- The call whose own move a label is. -/
def Label.own : Label → Option Nat
  | .sent n | .refused n | .forget n | .receive n | .lost n | .elapse n | .drop n => some n
  | _ => none

/-- A call's own move changes its phase, and takes at most its own id out of the table. -/
structure Moves (s : State) (n : Nat) (a : Label) (t : State) (phase : Phase) : Prop where
  calls : t.calls = (s.setPhase n phase).calls
  actor : t.actor = s.actor
  hand : t.hand = s.hand
  pending : ∀ id m, t.pending.get id = some m → s.pending.get id = some m
  awaits : phase = .awaiting → a = .sent n ∧ s.actor ≠ .gone ∧ t.pending = s.pending
  drops : phase = .dropped → a = .drop n

theorem moves_of_own {a : Label} (hstep : Step s a t) (hown : a.own = some n) :
    ∃ phase, Moves s n a t phase := by
  unfold Step step at hstep
  cases a with
  | request | frame | deliver | stop | clear | leave => cases hown
  | sent m =>
      cases hown
      dsimp only at hstep
      split at hstep
      · split at hstep
        · cases hstep
        · rename_i hgone
          cases hstep
          exact ⟨.awaiting, rfl, rfl, rfl, fun _ _ h => h, fun _ => ⟨rfl, hgone, rfl⟩,
            fun h => Phase.noConfusion h⟩
      · cases hstep
  | refused m =>
      cases hown
      dsimp only at hstep
      split at hstep
      · split at hstep
        · cases hstep
          exact ⟨.giving .closed, rfl, rfl, rfl, fun _ _ h => h, fun h => Phase.noConfusion h,
            fun h => Phase.noConfusion h⟩
        · cases hstep
      · cases hstep
  | forget m =>
      cases hown
      dsimp only at hstep
      split at hstep
      · rename_i e hphase
        cases hstep
        refine ⟨.returned (.error e), rfl, rfl, rfl, ?_, fun h => Phase.noConfusion h,
          fun h => Phase.noConfusion h⟩
        intro id k hget
        replace hget : (s.pending.remove (requestId n)).get id = some k := hget
        rw [Dict.get_remove] at hget
        split at hget
        · cases hget
        · exact hget
      · cases hstep
  | receive m =>
      cases hown
      dsimp only at hstep
      split at hstep
      · rename_i resp _ _
        cases hstep
        exact ⟨.returned (completePending resp), rfl, rfl, rfl, fun _ _ h => h,
          fun h => Phase.noConfusion h, fun h => Phase.noConfusion h⟩
      · cases hstep
  | lost m =>
      cases hown
      dsimp only at hstep
      split at hstep
      · split at hstep
        · cases hstep
          exact ⟨.returned (.error .closed), rfl, rfl, rfl, fun _ _ h => h,
            fun h => Phase.noConfusion h, fun h => Phase.noConfusion h⟩
        · cases hstep
      · cases hstep
  | elapse m =>
      cases hown
      dsimp only at hstep
      split at hstep
      · cases hstep
        exact ⟨.giving .timeout, rfl, rfl, rfl, fun _ _ h => h, fun h => Phase.noConfusion h,
          fun h => Phase.noConfusion h⟩
      · cases hstep
  | drop m =>
      cases hown
      dsimp only at hstep
      split at hstep
      · cases hstep
        exact ⟨.dropped, rfl, rfl, rfl, fun _ _ h => h, fun h => Phase.noConfusion h, fun _ => rfl⟩
      · cases hstep

/-- The other moves leave every phase as it is, but for a call that starts. -/
structure Rests (s : State) (a : Label) (t : State) : Prop where
  phase : ∀ n, (t.calls n).phase = (s.calls n).phase ∨
    a = .request ∧ n = s.next ∧ (t.calls n).phase = .registered
  pending : ∀ id n, t.pending.get id = some n →
    s.pending.get id = some n ∨ a = .request ∧ n = s.next
  actor : t.actor = s.actor ∨ a = .stop ∨ a = .clear ∧ t.pending = Dict.empty ∨
    a = .leave ∧ s.actor = .cleared

theorem rests_of_not_own {a : Label} (hstep : Step s a t) (hown : a.own = none) :
    Rests s a t := by
  unfold Step step at hstep
  cases a with
  | sent | refused | forget | receive | lost | elapse | drop => cases hown
  | request =>
      cases hstep
      refine ⟨?_, ?_, .inl rfl⟩
      · intro n
        by_cases hn : n = s.next
        · subst hn
          refine .inr ⟨rfl, rfl, ?_⟩
          show (Function.update s.calls s.next _ s.next).phase = .registered
          rw [Function.update_self]
        · exact .inl (congrArg Call.phase (Function.update_of_ne hn ..))
      · intro id n hget
        replace hget : (s.pending.insert (requestId s.next) s.next).get id = some n := hget
        rw [Dict.get_insert] at hget
        split at hget
        · cases hget
          exact .inr ⟨rfl, rfl⟩
        · exact .inl hget
  | frame resp =>
      dsimp only at hstep
      split at hstep
      · cases hstep
        refine ⟨fun _ => .inl rfl, ?_, .inl rfl⟩
        intro id n hget
        replace hget : (s.pending.remove resp.id).get id = some n := hget
        rw [Dict.get_remove] at hget
        split at hget
        · cases hget
        · exact .inl hget
      · cases hstep
  | deliver =>
      obtain ⟨⟨m, resp⟩, -, hstep⟩ := Option.map_eq_some_iff.mp hstep
      cases hstep
      refine ⟨fun n => .inl (phase_accept s n m resp), ?_, .inl (actor_accept s m resp)⟩
      intro id n hget
      replace hget : (s.accept m resp).pending.get id = some n := hget
      rw [pending_accept] at hget
      exact .inl hget
  | stop =>
      dsimp only at hstep
      split at hstep
      · cases hstep
        exact ⟨fun _ => .inl rfl, fun _ _ h => .inl h, .inr (.inl rfl)⟩
      · cases hstep
  | clear =>
      dsimp only at hstep
      split at hstep
      · cases hstep
        refine ⟨fun _ => .inl rfl, ?_, .inr (.inr (.inl ⟨rfl, rfl⟩))⟩
        intro id n hget
        cases hget
      · cases hstep
  | leave =>
      dsimp only at hstep
      split at hstep
      · rename_i hactor
        cases hstep
        exact ⟨fun _ => .inl rfl, fun _ _ h => .inl h, .inr (.inr (.inr ⟨rfl, hactor⟩))⟩
      · cases hstep

/-! ## Whole runs -/

def State.slot (s : State) (n : Nat) : List JsonRpcResponse := (s.calls n).slot.toList

/-- **Step lemma**: a channel changes when something is sent on it, and is empty before. -/
theorem slot_step {a : Label} (h : s.Sound) (hstep : Step s a t) (n : Nat) :
    t.slot n = s.slot n ++ s.takes n a := by
  unfold State.slot
  cases hown : a.own with
  | some m =>
      obtain ⟨phase, hmoves⟩ := moves_of_own hstep hown
      have htakes : s.takes n a = [] := by
        cases a with
        | deliver => cases hown
        | _ => rfl
      rw [hmoves.calls, slot_setPhase, htakes, List.append_nil]
  | none =>
      unfold Step step at hstep
      cases a with
      | sent | refused | forget | receive | lost | elapse | drop => cases hown
      | request =>
          cases hstep
          show (Function.update s.calls s.next _ n).slot.toList = _
          by_cases hn : n = s.next
          · subst hn
            rw [Function.update_self, (h.fresh s.next (Nat.le_refl _)).1]
            rfl
          · rw [Function.update_of_ne hn]
            exact (List.append_nil _).symm
      | deliver =>
          obtain ⟨⟨m, resp⟩, hhand, hstep⟩ := Option.map_eq_some_iff.mp hstep
          cases hstep
          show ((s.accept m resp).calls n).slot.toList = _
          unfold State.takes
          rw [hhand]
          by_cases hn : n = m
          · subst hn
            rw [accept_self, (h.inHand n resp hhand).2.2]
            by_cases hopen : (s.calls n).isOpen = true
            · simp [hopen]
            · simp [hopen, (h.inHand n resp hhand).2.2]
          · rw [accept_ne s resp hn]
            simp [Ne.symm hn]
      | frame | stop | clear | leave =>
          dsimp only at hstep
          split at hstep
          · cases hstep
            exact (List.append_nil _).symm
          · cases hstep

theorem slot_run {tr : List (Label × State)} (h : s.Sound) (hrun : Run Step s tr) (n : Nat) :
    (final s tr).slot n = s.slot n ++ (steps s tr).flatMap fun x => x.1.takes n x.2.1 := by
  induction tr generalizing s with
  | nil => exact (List.append_nil _).symm
  | cons x tr ih =>
      obtain ⟨a, t⟩ := x
      obtain ⟨hstep, hrun⟩ := run_cons.mp hrun
      rw [steps_cons, List.flatMap_cons, ← List.append_assoc, ← slot_step h hstep n]
      exact ih (sound_step h hstep) hrun

theorem received_eq {tr : List (Label × State)} (hrun : Run Step initial tr) (n : Nat) :
    received n tr = (final initial tr).slot n := (slot_run sound_initial hrun n).symm

/-- What the actor holds in its hand has just arrived, or was there before. -/
theorem hand_step {a : Label} (hstep : Step s a t) {resp : JsonRpcResponse}
    (hhand : t.hand = some (n, resp)) : s.hand = some (n, resp) ∨ a = .frame resp := by
  cases hown : a.own with
  | some m =>
      obtain ⟨phase, hmoves⟩ := moves_of_own hstep hown
      exact .inl (hmoves.hand ▸ hhand)
  | none =>
      unfold Step step at hstep
      cases a with
      | sent | refused | forget | receive | lost | elapse | drop => cases hown
      | request =>
          cases hstep
          exact .inl hhand
      | frame resp' =>
          dsimp only at hstep
          split at hstep
          · cases hstep
            obtain ⟨m, -, heq⟩ := Option.map_eq_some_iff.mp hhand
            cases heq
            exact .inr rfl
          · cases hstep
      | deliver =>
          obtain ⟨x, -, hstep⟩ := Option.map_eq_some_iff.mp hstep
          cases hstep
          cases hhand
      | stop | clear | leave =>
          dsimp only at hstep
          split at hstep
          · cases hstep
            exact .inl hhand
          · cases hstep

/-- What is in the actor's hand or in a channel is one of the responses `rs`. -/
structure Among (rs : List JsonRpcResponse) (s : State) : Prop where
  hand : ∀ n resp, s.hand = some (n, resp) → resp ∈ rs
  slot : ∀ n, ∀ resp ∈ s.slot n, resp ∈ rs

theorem among_step {a : Label} {rs : List JsonRpcResponse} (h : s.Sound) (hstep : Step s a t)
    (ha : ∀ resp, a = .frame resp → resp ∈ rs) (hamong : Among rs s) : Among rs t := by
  constructor
  · intro n resp hhand
    rcases hand_step hstep hhand with hhand | hframe
    · exact hamong.hand n resp hhand
    · exact ha resp hframe
  · intro n resp hmem
    rw [slot_step h hstep n] at hmem
    rcases List.mem_append.mp hmem with hmem | hmem
    · exact hamong.slot n resp hmem
    · unfold State.takes at hmem
      split at hmem
      · split at hmem
        · rename_i m r hhand
          split at hmem
          · rw [List.mem_singleton] at hmem
            subst hmem
            exact hamong.hand m resp hhand
          · cases hmem
        · cases hmem
      · cases hmem

/-- A call receives what has arrived. -/
theorem arrived_of_received {tr : List (Label × State)} (hrun : Run Step initial tr)
    {resp : JsonRpcResponse} (hmem : resp ∈ received n tr) : resp ∈ arrived tr := by
  have hamong : ∀ s ∈ states initial tr, s.Sound ∧ Among (arrived tr) s := by
    refine invariant_of_steps ⟨sound_initial, ⟨?_, ?_⟩⟩ ?_
    · intro n r hhand
      cases hhand
    · intro n r hr
      cases hr
    · rintro ⟨s, a, t⟩ hx ⟨hsound, hamong⟩
      refine ⟨sound_step hsound (hrun _ hx), among_step hsound (hrun _ hx) ?_ hamong⟩
      rintro r rfl
      have hlabel : Label.frame r ∈ tr.map Prod.fst := by
        rw [← map_label_steps initial tr]
        exact List.mem_map_of_mem (f := fun x => x.2.1) hx
      obtain ⟨y, hy, hfst⟩ := List.mem_map.mp hlabel
      exact List.mem_filterMap.mpr ⟨y, hy, by rw [hfst]⟩
  rw [received_eq hrun] at hmem
  exact (hamong _ (final_mem_states initial tr)).2.slot n resp hmem

/-- **Correlation**: in every interleaving the table holds only ids of calls that are running
or were dropped; a call receives one response at most, one that arrived under its own id; and
what it returns is that response, or that the connection closed or the time ran out. -/
theorem correlated {tr : List (Label × State)} (hrun : Run Step initial tr) :
    (∀ s ∈ states initial tr, ∀ id n, s.pending.get id = some n →
      id = requestId n ∧ ((s.calls n).waiting = true ∨ (s.calls n).isDropped = true)) ∧
    (∀ n, (received n tr).length ≤ 1 ∧
      ∀ resp ∈ received n tr, resp.id = requestId n ∧ resp ∈ arrived tr) ∧
    ∀ n out, ((final initial tr).calls n).phase = .returned out →
      (∃ resp ∈ received n tr, out = completePending resp) ∨
        out = .error .closed ∨ out = .error .timeout := by
  have hend := sound_run hrun _ (final_mem_states initial tr)
  refine ⟨?_, ?_, ?_⟩
  · intro s hs id n hget
    obtain ⟨hid, htracked⟩ := (sound_run hrun s hs).keyed id n hget
    exact ⟨hid, Bool.or_eq_true_iff.mp htracked⟩
  · intro n
    refine ⟨?_, ?_⟩
    · rw [received_eq hrun]
      exact Option.length_toList_le
    · intro resp hmem
      refine ⟨?_, arrived_of_received hrun hmem⟩
      rw [received_eq hrun] at hmem
      exact (hend.filled n resp (Option.mem_toList.mp hmem)).1
  · intro n out hout
    rcases hend.answered n out hout with ⟨resp, hslot, rfl⟩ | hfailed
    · refine .inl ⟨resp, ?_, rfl⟩
      rw [received_eq hrun]
      exact Option.mem_toList.mpr hslot
    · exact .inr hfailed

/-! ### A duplicate answer -/

def act (s : State) (a : Label) : State := (step s a).getD s

theorem run_of_enabled {labels : List Label}
    (h : checked act (fun s a => (step s a).isSome) initial labels = true) :
    Run Step initial (trace act initial labels) := by
  refine run_trace_of_checked (fun s a hsome => ?_) h
  obtain ⟨t, ht⟩ := Option.isSome_iff_exists.mp hsome
  show step s a = some ((step s a).getD s)
  rw [ht, Option.getD_some]

/-- The server answers twice under the first call's id; the second call is dropped. -/
def answeredTwice : List Label :=
  let resp : JsonRpcResponse := .success (.number 1) (.object [])
  [.request, .request, .sent 0, .sent 1, .frame resp, .deliver, .drop 1, .frame resp, .receive 0]

theorem answeredTwice_run : Run Step initial (trace act initial answeredTwice) :=
  run_of_enabled (by decide +kernel)

/-- The first answer is received, and returned; the second one is not. -/
theorem correlated_answeredTwice :
    let tr := trace act initial answeredTwice
    received 0 tr = [.success (requestId 0) (.object [])] ∧
      (∃ resp ∈ received 0 tr, resp.id = requestId 0 ∧ resp ∈ arrived tr ∧
        ((final initial tr).calls 0).phase = .returned (completePending resp)) ∧
      received 1 tr = [] ∧ (arrived tr).length = 2 := by
  intro tr
  obtain ⟨-, honce, hreturns⟩ := correlated answeredTwice_run
  have hphase : ((final initial tr).calls 0).phase = .returned (.ok (.object [])) := rfl
  refine ⟨rfl, ?_, rfl, rfl⟩
  rcases hreturns 0 _ hphase with ⟨resp, hmem, hout⟩ | hclosed | htimeout
  · obtain ⟨hid, harrived⟩ := (honce 0).2 resp hmem
    exact ⟨resp, hmem, hid, harrived, hphase.trans (congrArg Phase.returned hout)⟩
  · cases hclosed
  · cases htimeout

end TurboMcp.Client.Correlation
