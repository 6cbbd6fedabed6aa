import TurboMcp.ExtTasks.StoreConsistency

/-!
# The life of a task in the draft store

Every call purges the expired tasks, `complete` apart, and then changes at most
the one task it names.  What it does to that task is a function of the entry
alone (`Entry.after`); the facts about runs of the store are facts about it,
lifted by `get_apply`.

The task ids and the channels are made outside, by `Uuid::new_v4` and by
`oneshot::channel`, and never twice: a `Timeline` remembers those made so far.
-/

namespace TurboMcp.ExtTasks

open TurboMcp.Core TurboMcp.Lib

/-! ## One task -/

namespace DraftTaskStore

/-- The task a call names. -/
def Call.task (c : Call) : String :=
  match c.op with
  | .create id _ _ _ | .publishInput id _ _ _ | .deliverInputs id _ | .complete id _
  | .cancel id | .get id => id

/-- `complete` alone does not purge. -/
def purgedBy (st : DraftTaskStore) (c : Call) : DraftTaskStore :=
  match c.op with
  | .complete _ _ => st
  | _ => st.purgeExpired c.now

end DraftTaskStore

open DraftTaskStore

namespace Entry

/-- A task as it is created. -/
def fresh (now nowWall : Nat) (ttlMs pollIntervalMs : Option Int) (cancel : Token) : Entry :=
  { status := .working, statusMessage := none, createdWall := nowWall, updatedWall := nowWall,
    created := now, ttlMs, pollIntervalMs, outcome := none, cancel,
    inputs := { outstanding := Dict.empty, waiters := Dict.empty, used := [] } }

def publish (e : Entry) (nowWall : Nat) (key : String) (request : Value) (rx : Channel) : Entry :=
  let unique := uniquify e.inputs.used key
  let entry := { e with
    inputs :=
      { used := e.inputs.used.insert unique
        outstanding := e.inputs.outstanding.insert unique request
        waiters := e.inputs.waiters.insert unique rx } }
  if entry.status = .working then { entry with status := .inputRequired, updatedWall := nowWall }
  else entry

def deliver (e : Entry) (nowWall : Nat) (responses : Map) : Entry :=
  let entry := { e with inputs := (responses.foldl deliverOne (e.inputs, [])).1 }
  if entry.status = .inputRequired ∧ entry.inputs.outstanding.isEmpty = true then
    { entry with status := .working, updatedWall := nowWall }
  else entry

def finish (e : Entry) (nowWall : Nat) (outcome : TaskOutcome) : Entry :=
  let entry := match outcome with
    | .completed _ => { e with status := .completed }
    | .failed err => { e with statusMessage := some err.message, status := .failed }
  { entry with outcome := some outcome, updatedWall := nowWall }

def stop (e : Entry) (nowWall : Nat) : Entry :=
  { e with
    status := .cancelled
    statusMessage := some "the task was cancelled by request"
    updatedWall := nowWall
    inputs := { e.inputs with waiters := Dict.empty, outstanding := Dict.empty } }

/-- What a call leaves of the task it names. -/
def after (e : Entry) (c : Call) : Entry :=
  match c.op with
  | .create _ _ _ _ | .get _ => e
  | .publishInput _ key request rx =>
      if e.status.isTerminal then e else e.publish c.nowWall key request rx
  | .deliverInputs _ responses => e.deliver c.nowWall responses
  | .complete _ outcome => if e.status.isTerminal then e else e.finish c.nowWall outcome
  | .cancel _ => if e.status.isTerminal then e else e.stop c.nowWall

end Entry

namespace DraftTaskStore

variable {st : DraftTaskStore} {c : Call} {id : String}

/-- **Simulation**: a call that creates nothing changes the task it names, in
what the purge leaves of the store, as the entry alone says. -/
theorem apply_inner (h : ∀ id ttlMs poll cancel, c.op ≠ .create id ttlMs poll cancel) :
    (st.apply c).inner = (st.purgedBy c).inner.modify c.task (·.after c) := by
  obtain ⟨now, nowWall, op⟩ := c
  cases op with
  | create id ttlMs poll cancel => exact absurd rfl (h id ttlMs poll cancel)
  | get id => exact (Dict.modify_of_get fun e he => rfl).symm
  | publishInput id key request rx =>
      show (st.publishInput now nowWall id key request rx).1.inner = _
      simp only [publishInput, purgedBy, Call.task, Dict.modify, Entry.after]
      rcases hget : (st.purgeExpired now).inner.get id with _ | e
      · rfl
      · simp only
        split
        · exact (Dict.insert_of_get hget).symm
        · rfl
  | deliverInputs id responses =>
      show (st.deliverInputs now nowWall id responses).1.inner = _
      simp only [deliverInputs, purgedBy, Call.task, Dict.modify, Entry.after]
      rcases (st.purgeExpired now).inner.get id with _ | e
      · rfl
      · simp only [Entry.deliver]
        split
        · rfl
        · rfl
  | complete id outcome =>
      show (st.complete nowWall id outcome).inner = _
      simp only [complete, purgedBy, Call.task, Dict.modify, Entry.after]
      rcases hget : st.inner.get id with _ | e
      · rfl
      · simp only
        split
        · exact (Dict.insert_of_get hget).symm
        · rfl
  | cancel id =>
      show (st.cancel now nowWall id).1.inner = _
      simp only [cancel, purgedBy, Call.task, Dict.modify, Entry.after]
      rcases hget : (st.purgeExpired now).inner.get id with _ | e
      · rfl
      · simp only
        split
        · exact (Dict.insert_of_get hget).symm
        · rfl

/-- What a call that creates a task leaves of the store. -/
theorem apply_create {ttlMs poll : Option Int} {cancel : Token}
    (h : c.op = .create id ttlMs poll cancel) :
    (st.apply c).inner = if st.capacity ≤ (st.purgedBy c).inner.len then (st.purgedBy c).inner
      else (st.purgedBy c).inner.insert id (.fresh c.now c.nowWall ttlMs poll cancel) := by
  obtain ⟨now, nowWall, op⟩ := c
  cases h
  have hinner (r : DraftTaskStore × Option Task)
      (hr : st.create now nowWall id ttlMs poll cancel = r) :
      (st.create now nowWall id ttlMs poll cancel).1.inner = r.1.inner := by rw [hr]
  by_cases hfull : st.capacity ≤ (st.purgeExpired now).inner.len
  · exact (hinner _ (if_pos hfull)).trans (if_pos hfull).symm
  · exact (hinner _ (if_neg hfull)).trans (if_neg hfull).symm

@[simp] theorem apply_capacity (st : DraftTaskStore) (c : Call) :
    (st.apply c).capacity = st.capacity := by
  obtain ⟨now, nowWall, op⟩ := c
  cases op <;> simp only [apply, create, publishInput, deliverInputs, complete, cancel, get]
  case create =>
    split
    · rfl
    · rfl
  case complete =>
    rcases st.inner.get _ with _ | e
    · rfl
    · dsimp only
      split
      · rfl
      · rfl
  case get => rfl
  all_goals
    rcases (st.purgeExpired now).inner.get _ with _ | e
    · rfl
    · dsimp only
      split
      · rfl
      · rfl

/-- No call takes a fired token back. -/
theorem fired_subset_apply (st : DraftTaskStore) (c : Call) :
    (st.purgedBy c).fired ⊆ (st.apply c).fired := by
  obtain ⟨now, nowWall, op⟩ := c
  cases op <;>
    simp only [apply, purgedBy, create, publishInput, deliverInputs, complete, cancel, get]
  case create =>
    split
    · exact List.Subset.refl _
    · exact List.Subset.refl _
  case get => exact List.Subset.refl _
  case complete =>
    rcases st.inner.get _ with _ | e
    · exact List.Subset.refl _
    · dsimp only
      split
      · exact List.Subset.refl _
      · exact List.Subset.refl _
  case cancel =>
    rcases (st.purgeExpired now).inner.get _ with _ | e
    · exact List.Subset.refl _
    · dsimp only
      split
      · exact List.Subset.refl _
      · exact List.subset_append_left _ _
  all_goals
    rcases (st.purgeExpired now).inner.get _ with _ | e
    · exact List.Subset.refl _
    · dsimp only
      split
      · exact List.Subset.refl _
      · exact List.Subset.refl _

/-- A purge fires the token of each task it drops that was still running. -/
theorem fired_of_purged {e : Entry} (hget : st.inner.get id = some e)
    (hlive : e.status.isTerminal = false) (hgone : (st.purgedBy c).inner.get id = none) :
    e.cancel ∈ (st.purgedBy c).fired := by
  have hpurge (hgone : (st.purgeExpired c.now).inner.get id = none) :
      e.cancel ∈ (st.purgeExpired c.now).fired := by
    have hexpired : e.expired c.now = true := by
      rw [get_purgeExpired, hget, Option.filter_some] at hgone
      split at hgone
      · cases hgone
      · rename_i hkept
        simpa using hkept
    refine List.mem_append_right _ (List.mem_map.mpr ⟨(id, e), ?_, rfl⟩)
    rw [List.mem_filter]
    refine ⟨(Dict.get_eq_some_iff ..).mp hget, ?_⟩
    rw [hexpired, hlive]
    rfl
  unfold purgedBy at hgone ⊢
  split
  · rename_i hop
    rw [hop] at hgone
    simp only at hgone
    rw [hget] at hgone
    cases hgone
  · rename_i hop
    split at hgone
    · rename_i hop'
      exact absurd hop' (hop _ _)
    · exact hpurge hgone

theorem purgedBy_len_le (st : DraftTaskStore) (c : Call) :
    (st.purgedBy c).inner.len ≤ st.inner.len := by
  unfold purgedBy
  split
  · exact Nat.le_refl _
  · exact Dict.len_retain_le _ _

theorem get_of_purgedBy {e : Entry} (h : (st.purgedBy c).inner.get id = some e) :
    st.inner.get id = some e := by
  unfold purgedBy at h
  split at h
  · exact h
  · rw [get_purgeExpired, Option.filter_eq_some_iff] at h
    exact h.1

theorem fired_subset_purgedBy (st : DraftTaskStore) (c : Call) :
    st.fired ⊆ (st.purgedBy c).fired := by
  unfold purgedBy
  split
  · exact List.Subset.refl _
  · exact List.subset_append_left _ _

/-- **Inversion**: a task that is there after a call was there before and was
not purged, or the call created it. -/
theorem get_apply {e' : Entry} (h : (st.apply c).inner.get id = some e') :
    (∃ ttlMs poll cancel, c.op = .create id ttlMs poll cancel ∧
      ¬ st.capacity ≤ (st.purgedBy c).inner.len ∧
      e' = .fresh c.now c.nowWall ttlMs poll cancel) ∨
    ∃ e, (st.purgedBy c).inner.get id = some e ∧ e' = if c.task = id then e.after c else e := by
  have hsame (e : Entry) (id' : String) (ttlMs poll : Option Int) (cancel : Token)
      (hop : c.op = .create id' ttlMs poll cancel) : e = if c.task = id then e.after c else e := by
    unfold Entry.after
    rw [hop]
    split
    · rfl
    · rfl
  by_cases hcreate : ∃ id ttlMs poll cancel, c.op = .create id ttlMs poll cancel
  · obtain ⟨id', ttlMs, poll, cancel, hop⟩ := hcreate
    rw [apply_create hop] at h
    split at h
    · exact Or.inr ⟨e', h, hsame e' _ _ _ _ hop⟩
    · rename_i hroom
      rw [Dict.get_insert] at h
      split at h
      · rename_i hid
        subst hid
        exact Or.inl ⟨ttlMs, poll, cancel, hop, hroom, (Option.some.inj h).symm⟩
      · exact Or.inr ⟨e', h, hsame e' _ _ _ _ hop⟩
  · rw [apply_inner fun id ttlMs poll cancel hop => hcreate ⟨id, ttlMs, poll, cancel, hop⟩,
      Dict.get_modify, Option.map_eq_some_iff] at h
    obtain ⟨e, hget, rfl⟩ := h
    exact Or.inr ⟨e, hget, rfl⟩

/-- A call takes no task out but by its purge. -/
theorem purgedBy_of_gone (h : (st.apply c).inner.get id = none) :
    (st.purgedBy c).inner.get id = none := by
  by_cases hcreate : ∃ id ttlMs poll cancel, c.op = .create id ttlMs poll cancel
  · obtain ⟨id', ttlMs, poll, cancel, hop⟩ := hcreate
    rw [apply_create hop] at h
    split at h
    · exact h
    · rw [Dict.get_insert] at h
      split at h
      · cases h
      · exact h
  · rw [apply_inner fun id ttlMs poll cancel hop => hcreate ⟨id, ttlMs, poll, cancel, hop⟩,
      Dict.get_modify, Option.map_eq_none_iff] at h
    exact h

/-- The store never outgrows its capacity. -/
theorem len_apply_le (h : st.inner.len ≤ st.capacity) : (st.apply c).inner.len ≤ st.capacity := by
  have hpurged := Nat.le_trans (purgedBy_len_le st c) h
  by_cases hcreate : ∃ id ttlMs poll cancel, c.op = .create id ttlMs poll cancel
  · obtain ⟨id', ttlMs, poll, cancel, hop⟩ := hcreate
    rw [apply_create hop]
    split
    · exact hpurged
    · rename_i hroom
      exact Nat.le_trans (Dict.len_insert_le ..) (Nat.lt_of_not_le hroom)
  · rw [apply_inner fun id ttlMs poll cancel hop => hcreate ⟨id, ttlMs, poll, cancel, hop⟩,
      Dict.len_modify]
    exact hpurged

end DraftTaskStore

/-! ## What an entry keeps -/

namespace Entry

variable {e : Entry}

/-- The outcome says how the task ended. -/
structure Exact (e : Entry) : Prop where
  completed : (∃ result, e.outcome = some (.completed result)) ↔ e.status = .completed
  failed : (∃ error, e.outcome = some (.failed error)) ↔ e.status = .failed

theorem Exact.outcome_none (h : e.Exact) (hlive : e.status.isTerminal = false) :
    e.outcome = none := by
  rcases hout : e.outcome with _ | ⟨result⟩ | ⟨error⟩
  · rfl
  · have hstatus := h.completed.mp ⟨result, hout⟩
    rw [hstatus] at hlive
    cases hlive
  · have hstatus := h.failed.mp ⟨error, hout⟩
    rw [hstatus] at hlive
    cases hlive

/-- No outcome before the end. -/
theorem exact_of_live (hlive : e.status.isTerminal = false) (hnone : e.outcome = none) :
    e.Exact := by
  constructor
  · refine iff_of_false ?_ ?_
    · rintro ⟨result, h⟩
      rw [hnone] at h
      cases h
    · intro h
      rw [h] at hlive
      cases hlive
  · refine iff_of_false ?_ ?_
    · rintro ⟨error, h⟩
      rw [hnone] at h
      cases h
    · intro h
      rw [h] at hlive
      cases hlive

theorem exact_fresh (now nowWall : Nat) (ttlMs poll : Option Int) (cancel : Token) :
    (fresh now nowWall ttlMs poll cancel).Exact :=
  exact_of_live rfl rfl

theorem exact_finish (e : Entry) (nowWall : Nat) (outcome : TaskOutcome) :
    (e.finish nowWall outcome).Exact := by
  rcases outcome with result | error
  · exact ⟨iff_of_true ⟨result, rfl⟩ rfl, iff_of_false nofun nofun⟩
  · exact ⟨iff_of_false nofun nofun, iff_of_true ⟨error, rfl⟩ rfl⟩

/-- A terminal status and its outcome stay. -/
theorem after_of_terminal (h : e.status.isTerminal = true) (c : Call) :
    (e.after c).status = e.status ∧ (e.after c).outcome = e.outcome := by
  unfold after
  split
  · exact ⟨rfl, rfl⟩
  · exact ⟨rfl, rfl⟩
  · rw [if_pos h]
    exact ⟨rfl, rfl⟩
  · unfold deliver
    dsimp only
    split
    · rename_i hdrained
      rw [hdrained.1] at h
      cases h
    · exact ⟨rfl, rfl⟩
  · rw [if_pos h]
    exact ⟨rfl, rfl⟩
  · rw [if_pos h]
    exact ⟨rfl, rfl⟩

theorem Exact.after (h : e.Exact) (c : Call) : (e.after c).Exact := by
  by_cases hterm : e.status.isTerminal = true
  · obtain ⟨hstatus, houtcome⟩ := after_of_terminal hterm c
    constructor
    · rw [hstatus, houtcome]
      exact h.completed
    · rw [hstatus, houtcome]
      exact h.failed
  · have hlive : e.status.isTerminal = false := Bool.eq_false_iff.mpr hterm
    have hnone := h.outcome_none hlive
    unfold Entry.after
    split
    · exact h
    · exact h
    · rw [if_neg hterm]
      unfold publish
      dsimp only
      split
      · exact exact_of_live rfl hnone
      · exact exact_of_live hlive hnone
    · unfold deliver
      dsimp only
      split
      · exact exact_of_live rfl hnone
      · exact exact_of_live hlive hnone
    · rw [if_neg hterm]
      exact exact_finish e _ _
    · rw [if_neg hterm]
      refine ⟨iff_of_false ?_ nofun, iff_of_false ?_ nofun⟩
      · rintro ⟨result, hout⟩
        cases hnone.symm.trans hout
      · rintro ⟨error, hout⟩
        cases hnone.symm.trans hout

end Entry

/-- Each payload of a view stands exactly with its status. -/
structure DetailedTask.Exclusive (d : DetailedTask) : Prop where
  result : d.result.isSome = true ↔ d.task.status = .completed
  error : d.error.isSome = true ↔ d.task.status = .failed
  inputRequests : d.inputRequests.isSome = true ↔ d.task.status = .inputRequired

theorem Entry.Exact.exclusive {e : Entry} (h : e.Exact) (id : String) :
    (e.detailed id).Exclusive := by
  constructor
  · refine Iff.trans ?_ h.completed
    unfold Entry.detailed
    rcases e.outcome with _ | ⟨result⟩ | ⟨error⟩ <;> simp
  · refine Iff.trans ?_ h.failed
    unfold Entry.detailed
    rcases e.outcome with _ | ⟨result⟩ | ⟨error⟩ <;> simp
  · unfold Entry.detailed Entry.base
    dsimp only
    split
    · rename_i hstatus
      exact iff_of_true rfl hstatus
    · rename_i hstatus
      exact iff_of_false nofun hstatus

/-- A view says of the task what the store has of it. -/
structure DetailedTask.Shows (d : DetailedTask) (id : String) (e : Entry) : Prop where
  task : d.task = e.base id
  result : ∀ v, d.result = some v ↔ e.outcome = some (.completed v)
  error : ∀ v, d.error = some v ↔ ∃ error, e.outcome = some (.failed error) ∧ error.toValue = v
  inputRequests : ∀ m, d.inputRequests = some m ↔
    e.status = .inputRequired ∧ e.inputs.outstanding.entries = m

theorem Entry.shows_detailed (e : Entry) (id : String) : (e.detailed id).Shows id e := by
  refine ⟨rfl, ?_, ?_, ?_⟩
  · intro v
    unfold Entry.detailed
    rcases e.outcome with _ | ⟨result⟩ | ⟨error⟩ <;> simp
  · intro v
    unfold Entry.detailed
    rcases e.outcome with _ | ⟨result⟩ | ⟨error⟩ <;> simp
  · intro m
    unfold Entry.detailed
    by_cases hstatus : e.status = .inputRequired <;> simp [hstatus]

/-! ## Whole runs -/

/-- A request put to the client: its task, its wire key and the channel its
handler awaits. -/
structure InputPublication where
  task : String
  key : String
  channel : Channel
  deriving DecidableEq

namespace DraftTaskStore

/-- The id a call mints: `create` does, when there is room. -/
def mintedBy (st : DraftTaskStore) (c : Call) : Option String :=
  match c.op with
  | .create id ttlMs poll cancel =>
      (st.create c.now c.nowWall id ttlMs poll cancel).2.map Task.taskId
  | _ => none

/-- What a call publishes: `publish_input` does, when the task is live. -/
def publicationOf (st : DraftTaskStore) (c : Call) : Option InputPublication :=
  match c.op with
  | .publishInput id key _ rx =>
      match (st.purgeExpired c.now).inner.get id with
      | none => none
      | some e => if e.status.isTerminal then none else some ⟨id, uniquify e.inputs.used key, rx⟩
  | _ => none

end DraftTaskStore

/-- The store, and what was made for it so far. -/
structure Timeline where
  store : DraftTaskStore
  minted : List String
  published : List InputPublication

namespace Timeline

def initial (capacity : Nat) : Timeline :=
  { store := withCapacity capacity, minted := [], published := [] }

/-- A call on the store; ids and channels are never made twice. -/
structure Step (s : Timeline) (c : Call) (t : Timeline) : Prop where
  store : t.store = s.store.apply c
  minted : t.minted = s.minted ++ (s.store.mintedBy c).toList
  published : t.published = s.published ++ (s.store.publicationOf c).toList
  newId : ∀ id ∈ s.store.mintedBy c, id ∉ s.minted
  newChannel : ∀ p ∈ s.store.publicationOf c, ∀ q ∈ s.published, q.channel ≠ p.channel

/-- Each stored task was minted, and its outcome says how it ended. -/
structure Sound (s : Timeline) : Prop where
  minted : ∀ id e, s.store.inner.get id = some e → id ∈ s.minted
  exact : ∀ id e, s.store.inner.get id = some e → e.Exact

theorem sound_initial (capacity : Nat) : (initial capacity).Sound := by
  constructor
  · intro id e h
    cases h
  · intro id e h
    cases h

variable {s t : Timeline} {c : Call}

theorem mintedBy_create {id : String} {ttlMs poll : Option Int} {cancel : Token}
    (hop : c.op = .create id ttlMs poll cancel)
    (hroom : ¬ s.store.capacity ≤ (s.store.purgedBy c).inner.len) :
    s.store.mintedBy c = some id := by
  obtain ⟨now, nowWall, op⟩ := c
  cases hop
  exact congrArg (fun r : DraftTaskStore × Option Task => r.2.map Task.taskId) (if_neg hroom)

/-- **Inversion** of a step, for the tasks that stay or come. -/
theorem get_step (h : Step s c t) {id : String} {e' : Entry}
    (hget : t.store.inner.get id = some e') :
    (id ∉ s.minted ∧ s.store.mintedBy c = some id ∧
      ∃ ttlMs poll cancel, e' = .fresh c.now c.nowWall ttlMs poll cancel) ∨
    ∃ e, (s.store.purgedBy c).inner.get id = some e ∧
      e' = if c.task = id then e.after c else e := by
  rw [h.store] at hget
  rcases get_apply hget with ⟨ttlMs, poll, cancel, hop, hroom, he⟩ | ⟨e, he, hafter⟩
  · have hmint := mintedBy_create hop hroom
    exact Or.inl ⟨h.newId id hmint, hmint, ttlMs, poll, cancel, he⟩
  · exact Or.inr ⟨e, he, hafter⟩

theorem sound_step (h : Step s c t) (hs : s.Sound) : t.Sound := by
  constructor
  · intro id e' hget
    rw [h.minted, List.mem_append]
    rcases get_step h hget with ⟨-, hmint, -⟩ | ⟨e, he, -⟩
    · rw [hmint]
      exact Or.inr (List.mem_singleton_self id)
    · exact Or.inl (hs.minted id e (get_of_purgedBy he))
  · intro id e' hget
    rcases get_step h hget with ⟨-, -, ttlMs, poll, cancel, rfl⟩ | ⟨e, he, rfl⟩
    · exact Entry.exact_fresh _ _ _ _ _
    · have hexact := hs.exact id e (get_of_purgedBy he)
      split
      · exact hexact.after c
      · exact hexact

/-- A task that is terminal stays as it is, as long as it stays. -/
theorem frozen_step (h : Step s c t) (hs : s.Sound) {id : String} {e e' : Entry}
    (he : s.store.inner.get id = some e) (hterm : e.status.isTerminal = true)
    (he' : t.store.inner.get id = some e') :
    e'.status = e.status ∧ e'.outcome = e.outcome := by
  rcases get_step h he' with ⟨hnew, -⟩ | ⟨e₀, he₀, hafter⟩
  · exact absurd (hs.minted id e he) hnew
  · obtain rfl : e₀ = e := Option.some.inj ((get_of_purgedBy he₀).symm.trans he)
    subst hafter
    split
    · exact Entry.after_of_terminal hterm c
    · exact ⟨rfl, rfl⟩

/-- A task that was running when it was dropped has had its token fired. -/
theorem fired_step (h : Step s c t) {id : String} {e : Entry}
    (he : s.store.inner.get id = some e) (hlive : e.status.isTerminal = false)
    (hgone : t.store.inner.get id = none) : e.cancel ∈ t.store.fired := by
  rw [h.store] at hgone ⊢
  exact fired_subset_apply _ c (fired_of_purged he hlive (purgedBy_of_gone hgone))

theorem fired_mono (h : Step s c t) : s.store.fired ⊆ t.store.fired := by
  rw [h.store]
  exact fun token htoken => fired_subset_apply _ c (fired_subset_purgedBy _ c htoken)

theorem capacity_step (h : Step s c t) : t.store.capacity = s.store.capacity := by
  rw [h.store, apply_capacity]

/-- The capacity is what it was, and is kept. -/
structure Bounded (capacity : Nat) (s : Timeline) : Prop where
  capacity : s.store.capacity = capacity
  fits : s.store.inner.len ≤ s.store.capacity

theorem bounded_step {capacity : Nat} (h : Step s c t) (hs : s.Bounded capacity) :
    t.Bounded capacity := by
  refine ⟨(capacity_step h).trans hs.capacity, ?_⟩
  rw [capacity_step h, h.store]
  exact len_apply_le hs.fits

/-- What holds of every run of the store. -/
structure Lifecycle (capacity : Nat) (tr : List (Call × Timeline)) : Prop where
  /-- From when a task is terminal, and until it is purged, its status and its
  outcome stay. -/
  frozen : ∀ before after, tr = before ++ after → ∀ id e,
    (final (initial capacity) before).store.inner.get id = some e → e.status.isTerminal = true →
    (∀ s ∈ states (final (initial capacity) before) after, (s.store.inner.get id).isSome = true) →
    ∀ s ∈ states (final (initial capacity) before) after, ∃ e', s.store.inner.get id = some e' ∧
      e'.status = e.status ∧ e'.outcome = e.outcome
  exclusive : ∀ s ∈ states (initial capacity) tr, ∀ now id d,
    (s.store.get now id).2 = some d → d.Exclusive
  /-- A stored task is shown, payload and all, until it expires. -/
  shown : ∀ s ∈ states (initial capacity) tr, ∀ now id e, s.store.inner.get id = some e →
    e.expired now = false → ∃ d, (s.store.get now id).2 = some d ∧ d.Shows id e
  bounded : ∀ s ∈ states (initial capacity) tr, s.store.inner.len ≤ capacity
  /-- A task that is running in one state and gone in the next was cancelled. -/
  cancelled : ∀ before c s after, tr = before ++ (c, s) :: after → ∀ id e,
    (final (initial capacity) before).store.inner.get id = some e → e.status.isTerminal = false →
    s.store.inner.get id = none → ∀ t ∈ states s after, e.cancel ∈ t.store.fired

theorem frozen_run {s : Timeline} {tr : List (Call × Timeline)} (hrun : Run Step s tr)
    (hs : s.Sound) {id : String} {e : Entry} (he : s.store.inner.get id = some e)
    (hterm : e.status.isTerminal = true)
    (hstays : ∀ t ∈ states s tr, (t.store.inner.get id).isSome = true) :
    ∀ t ∈ states s tr, ∃ e', t.store.inner.get id = some e' ∧
      e'.status = e.status ∧ e'.outcome = e.outcome := by
  have hinv : ∀ t ∈ states s tr, t.Sound ∧ ((t.store.inner.get id).isSome = true →
      ∃ e', t.store.inner.get id = some e' ∧ e'.status = e.status ∧ e'.outcome = e.outcome) := by
    refine invariant_of_steps ⟨hs, fun _ => ⟨e, he, rfl, rfl⟩⟩ ?_
    rintro ⟨u, c, v⟩ hx ⟨hsound, hkept⟩
    have hstep : Step u c v := hrun _ hx
    refine ⟨sound_step hstep hsound, fun hv => ?_⟩
    obtain ⟨e₁, he₁, hstatus, houtcome⟩ := hkept (hstays u (source_mem_states hx))
    obtain ⟨e₂, he₂⟩ := Option.isSome_iff_exists.mp hv
    obtain ⟨hstatus', houtcome'⟩ := frozen_step hstep hsound he₁ (hstatus ▸ hterm) he₂
    exact ⟨e₂, he₂, hstatus'.trans hstatus, houtcome'.trans houtcome⟩
  exact fun t ht => (hinv t ht).2 (hstays t ht)

/-- **The life of a task**: in every run of the store, terminal tasks stay as
they ended until they are purged, every view carries the payload of its status
alone, every task has one until it expires, the store keeps within its capacity,
and a task that was purged while it ran was cancelled. -/
theorem lifecycle (capacity : Nat) (tr : List (Call × Timeline))
    (hrun : Run Step (initial capacity) tr) : Lifecycle capacity tr := by
  have hsound : ∀ s ∈ states (initial capacity) tr, s.Sound :=
    hrun.invariant (sound_initial capacity) fun _ _ _ h => sound_step h
  have hbounded : ∀ s ∈ states (initial capacity) tr, s.Bounded capacity :=
    hrun.invariant ⟨rfl, Nat.zero_le _⟩ fun _ _ _ h => bounded_step h
  refine ⟨?_, ?_, ?_, ?_, ?_⟩
  · rintro before after rfl id e he hterm hstays
    obtain ⟨-, hafter⟩ := run_append.mp hrun
    have hs := hsound _ (states_subset_append _ before after (final_mem_states _ before))
    exact frozen_run hafter hs he hterm hstays
  · intro s hs now id d hd
    obtain ⟨e, he, rfl⟩ := Option.map_eq_some_iff.mp hd
    rw [get_purgeExpired, Option.filter_eq_some_iff] at he
    exact ((hsound s hs).exact id e he.1).exclusive id
  · intro s _ now id e he hlive
    refine ⟨e.detailed id, ?_, e.shows_detailed id⟩
    have hkept : (s.store.purgeExpired now).inner.get id = some e := by
      rw [get_purgeExpired, he, Option.filter_some, hlive]
      rfl
    exact Option.map_eq_some_iff.mpr ⟨e, hkept, rfl⟩
  · intro s hs
    obtain ⟨hcap, hfits⟩ := hbounded s hs
    exact hcap ▸ hfits
  · rintro before c s after rfl id e he hlive hgone
    obtain ⟨-, hlast⟩ := run_append.mp hrun
    obtain ⟨hstep, hafter⟩ := run_cons.mp hlast
    exact hafter.invariant (fired_step hstep he hlive hgone) fun _ _ _ h hmem => fired_mono h hmem

/-- The timeline after a call. -/
def next (s : Timeline) (c : Call) : Timeline :=
  { store := s.store.apply c
    minted := s.minted ++ (s.store.mintedBy c).toList
    published := s.published ++ (s.store.publicationOf c).toList }

/-- Whether the id and the channel the call brings are new. -/
def brings (s : Timeline) (c : Call) : Bool :=
  (s.store.mintedBy c).all (· ∉ s.minted) &&
    (s.store.publicationOf c).all fun p => s.published.all fun q => q.channel ≠ p.channel

theorem step_next (s : Timeline) (c : Call) (h : s.brings c = true) : Step s c (s.next c) := by
  unfold brings at h
  rw [Bool.and_eq_true] at h
  obtain ⟨newId, newChannel⟩ := h
  refine ⟨rfl, rfl, rfl, ?_, ?_⟩
  · intro id hid
    rw [hid] at newId
    simpa using newId
  · intro p hp q hq
    rw [hp] at newChannel
    simpa using List.all_eq_true.mp newChannel q hq

/-- A task is answered and completes; one that still asks is purged. -/
def lives : List Call :=
  [⟨0, 0, .create "t" none none 0⟩,
    ⟨0, 0, .publishInput "t" "confirm" (.string "pay?") 0⟩,
    ⟨0, 0, .deliverInputs "t" [("confirm", .bool true)]⟩,
    ⟨0, 0, .complete "t" (.completed (.string "paid"))⟩,
    ⟨1, 1, .create "u" (some 1) none 1⟩,
    ⟨1, 1, .publishInput "u" "confirm" (.string "pay?") 1⟩,
    ⟨2000000, 2, .get "u"⟩]

theorem lifecycle_lives : Lifecycle 2 (trace next (initial 2) lives) ∧
    (final (initial 2) (trace next (initial 2) lives)).store.fired = [1] ∧
    ((final (initial 2) (trace next (initial 2) lives)).store.get 0 "t").2.map
      (fun d => (d.task.status, d.result)) = some (.completed, some (.string "paid")) ∧
    ((final (initial 2) (trace next (initial 2) (lives.take 6))).store.get 1 "u").2.map
      (fun d => (d.task.status, d.inputRequests)) =
        some (.inputRequired, some [("confirm", .string "pay?")]) :=
  ⟨lifecycle 2 _ (run_trace_of_checked step_next (by decide)), by decide, by decide, by decide⟩

end Timeline

end TurboMcp.ExtTasks
