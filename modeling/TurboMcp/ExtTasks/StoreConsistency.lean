import TurboMcp.ExtTasks.Store

/-!
# Consistency of the draft task store

The keys of a task's outstanding requests and of its waiters are the same,
both were issued, and requests are outstanding exactly while the task is
`input_required`.  Every operation but one keeps this from any state:
`complete` writes a terminal status and leaves the inputs as they are, so it
keeps it exactly when the task has no outstanding request.
-/

namespace TurboMcp.ExtTasks

open TurboMcp.Core TurboMcp.Lib

/-! ## The invariant -/

/-- Outstanding requests and waiters stand under the same, issued, keys. -/
structure Inputs.Aligned (i : Inputs) : Prop where
  same_keys : ∀ k, k ∈ i.outstanding.keys ↔ k ∈ i.waiters.keys
  issued : ∀ k ∈ i.outstanding.keys, k ∈ i.used

def Inputs.Pending (i : Inputs) : Prop := ∃ k, k ∈ i.outstanding.keys

structure Entry.Consistent (e : Entry) : Prop where
  aligned : e.inputs.Aligned
  pending_iff : e.inputs.Pending ↔ e.status = .inputRequired

def DraftTaskStore.Consistent (st : DraftTaskStore) : Prop :=
  ∀ id e, st.inner.get id = some e → e.Consistent

theorem Inputs.pending_iff_not_isEmpty (i : Inputs) :
    i.Pending ↔ i.outstanding.isEmpty = false := by
  rw [← Bool.not_eq_true, Dict.isEmpty_iff]
  simp [Pending]

theorem Inputs.aligned_empty (used : List String) :
    Inputs.Aligned ⟨Dict.empty, Dict.empty, used⟩ :=
  ⟨by simp, by simp⟩

theorem Inputs.not_pending_empty (waiters : Dict String Channel) (used : List String) :
    ¬ Inputs.Pending ⟨Dict.empty, waiters, used⟩ := by
  simp [Inputs.Pending]

/-! ## Publishing and delivering -/

theorem Inputs.Aligned.publish {i : Inputs} (h : i.Aligned) (unique : String)
    (request : Value) (rx : Channel) :
    Inputs.Aligned
      { used := i.used.insert unique
        outstanding := i.outstanding.insert unique request
        waiters := i.waiters.insert unique rx } where
  same_keys := by
    intro k
    rw [Dict.mem_keys_insert, Dict.mem_keys_insert, h.same_keys]
  issued := by
    intro k hk
    rw [Dict.mem_keys_insert] at hk
    rw [List.mem_insert_iff]
    exact hk.imp_right (h.issued k)

theorem Inputs.Aligned.remove {i : Inputs} (h : i.Aligned) (key : String) :
    Inputs.Aligned { i with waiters := i.waiters.remove key
                            outstanding := i.outstanding.remove key } where
  same_keys := by
    intro k
    rw [Dict.mem_keys_remove, Dict.mem_keys_remove, h.same_keys]
  issued := by
    intro k hk
    rw [Dict.mem_keys_remove] at hk
    exact h.issued k hk.2

open DraftTaskStore in
theorem Inputs.Aligned.deliverOne {i : Inputs} (h : i.Aligned)
    (sent : List (Channel × Value)) (response : String × Value) :
    (deliverOne (i, sent) response).1.Aligned := by
  obtain ⟨key, value⟩ := response
  simp only [DraftTaskStore.deliverOne]
  split
  · split
    · exact h.remove key
    · exact h
  · exact h

open DraftTaskStore in
/-- Delivering only removes: it never makes a request outstanding. -/
theorem mem_keys_of_deliverOne {i : Inputs} {sent : List (Channel × Value)}
    {response : String × Value} {k : String}
    (hk : k ∈ (deliverOne (i, sent) response).1.outstanding.keys) :
    k ∈ i.outstanding.keys := by
  obtain ⟨key, value⟩ := response
  simp only [deliverOne] at hk
  split at hk
  · split at hk
    · exact ((Dict.mem_keys_remove ..).mp hk).2
    · exact hk
  · exact hk

open DraftTaskStore in
theorem Inputs.Aligned.deliver {i : Inputs} (h : i.Aligned)
    (sent : List (Channel × Value)) (responses : Map) :
    (responses.foldl DraftTaskStore.deliverOne (i, sent)).1.Aligned := by
  induction responses generalizing i sent with
  | nil => exact h
  | cons r responses ih => exact ih (h.deliverOne sent r) _

open DraftTaskStore in
theorem pending_of_deliver {i : Inputs} {sent : List (Channel × Value)} {responses : Map}
    (h : (responses.foldl deliverOne (i, sent)).1.Pending) : i.Pending := by
  induction responses generalizing i sent with
  | nil => exact h
  | cons r responses ih =>
      obtain ⟨k, hk⟩ := ih h
      exact ⟨k, mem_keys_of_deliverOne hk⟩

/-! ## One operation -/

namespace DraftTaskStore

theorem consistent_withCapacity (capacity : Nat) : (withCapacity capacity).Consistent := by
  intro id e h
  simp [withCapacity] at h

theorem get_setEntry (st : DraftTaskStore) (id : String) (entry : Entry) (id' : String) :
    (st.setEntry id entry).inner.get id' =
      if id = id' then some entry else st.inner.get id' :=
  Dict.get_insert st.inner id entry id'

theorem get_purgeExpired (st : DraftTaskStore) (now : Nat) (id : String) :
    (st.purgeExpired now).inner.get id =
      (st.inner.get id).filter fun e => !e.expired now :=
  Dict.get_retain st.inner _ id

theorem Consistent.setEntry {st : DraftTaskStore} (h : st.Consistent) (id : String)
    {entry : Entry} (he : entry.Consistent) : (st.setEntry id entry).Consistent := by
  intro id' e hget
  rw [get_setEntry] at hget
  split at hget
  · obtain rfl := Option.some.inj hget
    exact he
  · exact h id' e hget

theorem Consistent.purgeExpired {st : DraftTaskStore} (h : st.Consistent) (now : Nat) :
    (st.purgeExpired now).Consistent := by
  intro id e hget
  rw [get_purgeExpired, Option.filter_eq_some_iff] at hget
  exact h id e hget.1

theorem Consistent.create {st : DraftTaskStore} (h : st.Consistent) (now nowWall : Nat)
    (id : String) (ttlMs pollIntervalMs : Option Int) (cancel : Token) :
    (st.create now nowWall id ttlMs pollIntervalMs cancel).1.Consistent := by
  simp only [DraftTaskStore.create]
  split
  · exact h.purgeExpired now
  · refine (h.purgeExpired now).setEntry id ⟨Inputs.aligned_empty [], ?_⟩
    simp [Inputs.not_pending_empty]

theorem Consistent.get {st : DraftTaskStore} (h : st.Consistent) (now : Nat)
    (id : String) : (st.get now id).1.Consistent :=
  h.purgeExpired now

theorem Consistent.cancel {st : DraftTaskStore} (h : st.Consistent) (now nowWall : Nat)
    (id : String) : (st.cancel now nowWall id).1.Consistent := by
  have hp := h.purgeExpired now
  simp only [DraftTaskStore.cancel]
  split
  · exact hp
  · rename_i entry hget
    split
    · exact hp
    · have hfired : Consistent { st.purgeExpired now with
          fired := (st.purgeExpired now).fired ++ [entry.cancel] } := hp
      refine hfired.setEntry id ⟨Inputs.aligned_empty _, ?_⟩
      simp [Inputs.not_pending_empty]

theorem Consistent.publishInput {st : DraftTaskStore} (h : st.Consistent)
    (now nowWall : Nat) (id key : String) (request : Value) (rx : Channel) :
    (st.publishInput now nowWall id key request rx).1.Consistent := by
  have hp := h.purgeExpired now
  simp only [DraftTaskStore.publishInput]
  split
  · exact hp
  · rename_i entry hget
    split
    · exact hp
    · rename_i hterm
      have he := hp id entry hget
      have haligned := he.aligned.publish (uniquify entry.inputs.used key) request rx
      have hpending : Inputs.Pending
          { used := entry.inputs.used.insert (uniquify entry.inputs.used key)
            outstanding :=
              entry.inputs.outstanding.insert (uniquify entry.inputs.used key) request
            waiters := entry.inputs.waiters.insert (uniquify entry.inputs.used key) rx } :=
        ⟨uniquify entry.inputs.used key, by rw [Dict.mem_keys_insert]; exact Or.inl rfl⟩
      refine hp.setEntry id ?_
      split
      · exact ⟨haligned, iff_of_true hpending rfl⟩
      · rename_i hworking
        refine ⟨haligned, iff_of_true hpending ?_⟩
        -- neither terminal nor `working`
        revert hterm hworking
        cases entry.status <;> simp [TaskStatus.isTerminal]

theorem Consistent.deliverInputs {st : DraftTaskStore} (h : st.Consistent)
    (now nowWall : Nat) (id : String) (responses : Map) :
    (st.deliverInputs now nowWall id responses).1.Consistent := by
  have hp := h.purgeExpired now
  simp only [DraftTaskStore.deliverInputs]
  split
  · exact hp
  · rename_i entry hget
    have he := hp id entry hget
    have haligned : (responses.foldl deliverOne (entry.inputs, [])).1.Aligned :=
      he.aligned.deliver [] responses
    have hsent : Consistent { st.purgeExpired now with
        sent := (st.purgeExpired now).sent ++
          (responses.foldl deliverOne (entry.inputs, [])).2 } := hp
    split
    · rename_i hdrained
      refine hsent.setEntry id ⟨haligned, iff_of_false ?_ (by simp)⟩
      rw [Inputs.pending_iff_not_isEmpty, hdrained.2]
      simp
    · rename_i hdrained
      refine hsent.setEntry id ⟨haligned, ?_, ?_⟩
      · intro hpending
        exact he.pending_iff.mp (pending_of_deliver hpending)
      · intro hstatus
        rw [Inputs.pending_iff_not_isEmpty, ← Bool.not_eq_true]
        exact fun hempty => hdrained ⟨hstatus, hempty⟩

/-- The task `complete` is called on is gone, terminal, or awaits no input. -/
def Settled (st : DraftTaskStore) (id : String) : Prop :=
  ∀ e, st.inner.get id = some e → e.status.isTerminal = true ∨ ¬ e.inputs.Pending

/-- `complete` keeps the store consistent exactly when it finds no request
outstanding. -/
theorem complete_consistent_iff {st : DraftTaskStore} (h : st.Consistent) (nowWall : Nat)
    (id : String) (outcome : TaskOutcome) :
    (st.complete nowWall id outcome).Consistent ↔ st.Settled id := by
  unfold DraftTaskStore.complete
  split
  · rename_i hnone
    exact iff_of_true h fun e he => by simp [hnone] at he
  · rename_i entry hget
    have hsettled : st.Settled id ↔
        entry.status.isTerminal = true ∨ ¬ entry.inputs.Pending := by
      simp [Settled, hget]
    rw [hsettled]
    split
    · rename_i hterm
      exact iff_of_true h (Or.inl hterm)
    · rename_i hterm
      -- the entry written back: a terminal status over the old inputs
      have hwritten : ∀ e : Entry, e.inputs = entry.inputs → e.status.isTerminal = true →
          ((st.setEntry id e).Consistent ↔
            entry.status.isTerminal = true ∨ ¬ entry.inputs.Pending) := by
        intro e hinputs hstatus
        have hne : e.status ≠ .inputRequired := by
          intro hs
          rw [hs] at hstatus
          exact absurd hstatus (by decide)
        constructor
        · intro hc
          have he := hc id e (by rw [get_setEntry, if_pos rfl])
          refine Or.inr fun hpending => hne (he.pending_iff.mp ?_)
          rwa [hinputs]
        · rintro (ht | hpending)
          · exact absurd ht hterm
          · refine h.setEntry id ⟨?_, iff_of_false ?_ hne⟩
            · rw [hinputs]
              exact (h id entry hget).aligned
            · rwa [hinputs]
      cases outcome with
      | completed result => exact hwritten _ rfl rfl
      | failed error => exact hwritten _ rfl rfl

/-! ## Whole runs -/

/-- A call on the store, with what it takes from outside but the clocks. -/
inductive Op
  | create (id : String) (ttlMs pollIntervalMs : Option Int) (cancel : Token)
  | publishInput (id key : String) (request : Value) (rx : Channel)
  | deliverInputs (id : String) (responses : Map)
  | complete (id : String) (outcome : TaskOutcome)
  | cancel (id : String)
  | get (id : String)

/-- An operation at an instant and a wall-clock time. -/
structure Call where
  now : Nat
  nowWall : Nat
  op : Op

def apply (st : DraftTaskStore) (c : Call) : DraftTaskStore :=
  match c.op with
  | .create id ttlMs poll cancel => (st.create c.now c.nowWall id ttlMs poll cancel).1
  | .publishInput id key request rx =>
      (st.publishInput c.now c.nowWall id key request rx).1
  | .deliverInputs id responses => (st.deliverInputs c.now c.nowWall id responses).1
  | .complete id outcome => st.complete c.nowWall id outcome
  | .cancel id => (st.cancel c.now c.nowWall id).1
  | .get id => (st.get c.now id).1

def Step (st : DraftTaskStore) (c : Call) (st' : DraftTaskStore) : Prop :=
  st.apply c = st'

/-- Only `complete` has a condition. -/
def CompletesSettled (st : DraftTaskStore) (c : Call) : Prop :=
  match c.op with
  | .complete id _ => st.Settled id
  | _ => True

theorem apply_consistent_iff {st : DraftTaskStore} (h : st.Consistent) (c : Call) :
    (st.apply c).Consistent ↔ st.CompletesSettled c := by
  obtain ⟨now, nowWall, op⟩ := c
  cases op with
  | create id ttlMs poll cancel =>
      exact iff_of_true (h.create now nowWall id ttlMs poll cancel) trivial
  | publishInput id key request rx =>
      exact iff_of_true (h.publishInput now nowWall id key request rx) trivial
  | deliverInputs id responses =>
      exact iff_of_true (h.deliverInputs now nowWall id responses) trivial
  | complete id outcome => exact complete_consistent_iff h nowWall id outcome
  | cancel id => exact iff_of_true (h.cancel now nowWall id) trivial
  | get id => exact iff_of_true (h.get now id) trivial

/-- **Consistency along a run**: whatever the calls and their times, every state
of a run is consistent exactly when each `complete` finds its task gone,
terminal, or without an outstanding request. -/
theorem consistent_iff_completesSettled (capacity : Nat)
    (tr : List (Call × DraftTaskStore)) (hrun : Run Step (withCapacity capacity) tr) :
    (∀ st ∈ states (withCapacity capacity) tr, st.Consistent) ↔
      ∀ x ∈ steps (withCapacity capacity) tr, x.1.CompletesSettled x.2.1 := by
  refine hrun.forall_states_iff (I := fun _ => True) (G := CompletesSettled) trivial
    (consistent_withCapacity capacity) (fun _ _ _ _ _ => trivial) ?_
  rintro st c _ rfl - h
  exact apply_consistent_iff h c

/-- A handler that awaits `confirm` is answered, then completes. -/
def answeredCalls : List Call :=
  [⟨0, 0, .create "t" none none 0⟩,
    ⟨0, 0, .publishInput "t" "confirm" .null 0⟩,
    ⟨0, 0, .deliverInputs "t" [("confirm", .bool true)]⟩,
    ⟨0, 0, .complete "t" (.completed .null)⟩]

theorem consistent_answered :
    (final (withCapacity 1) (trace apply (withCapacity 1) answeredCalls)).Consistent := by
  refine (consistent_iff_completesSettled 1 _ (run_trace apply _ answeredCalls)).mpr ?_ _
    (final_mem_states _ _)
  simp only [answeredCalls, trace, steps_cons, steps_nil, List.forall_mem_cons,
    CompletesSettled, true_and]
  refine ⟨?_, by simp⟩
  intro e he
  obtain rfl := Option.some.inj he
  refine Or.inr ?_
  rw [Inputs.pending_iff_not_isEmpty]
  decide

/-- A handler publishes `confirm` and completes before the client answers. -/
def abandonedCalls : List Call :=
  [⟨0, 0, .create "t" none none 0⟩,
    ⟨0, 0, .publishInput "t" "confirm" .null 0⟩,
    ⟨0, 0, .complete "t" (.completed .null)⟩]

/-- The completed task still lists the request and keeps its waiter. -/
theorem complete_keeps_waiter :
    ∃ tr : List (Call × DraftTaskStore), Run Step (withCapacity 1) tr ∧
      ∃ st ∈ states (withCapacity 1) tr, ∃ e, st.inner.get "t" = some e ∧
        e.status = .completed ∧ e.inputs.outstanding.keys = ["confirm"] ∧
        e.inputs.waiters.keys = ["confirm"] :=
  ⟨trace apply (withCapacity 1) abandonedCalls, run_trace apply _ abandonedCalls,
    _, final_mem_states _ _, _, rfl, rfl, rfl, rfl⟩

end DraftTaskStore

end TurboMcp.ExtTasks
