import TurboMcp.ExtTasks.StoreConsistency
import TurboMcp.System.Pushing

/-!
# The history of a task

The log lists every status a task comes to.  What is stored is logged, an id is
never minted twice, and a terminal status is the last one.
-/

namespace TurboMcp.System

open TurboMcp.Core TurboMcp.Lib TurboMcp.Server TurboMcp.ExtTasks

variable {N : Type} {d : VersionDispatcher N} {rfc3339 : Nat → String}

/-! ## One operation of the store -/

/-- The same tasks, with the same statuses, but for one that was not terminal. -/
def SameBut (changed : Option String) (m m' : Dict String Entry) : Prop :=
  ∀ id, m.get id = none ∧ m'.get id = none ∨
    ∃ e e', m.get id = some e ∧ m'.get id = some e' ∧
      (e'.status = e.status ∨ e.status.isTerminal = false ∧ changed = some id)

theorem sameBut_refl (changed : Option String) (m : Dict String Entry) : SameBut changed m m := by
  intro id
  cases hget : m.get id with
  | none => exact Or.inl ⟨rfl, rfl⟩
  | some e => exact Or.inr ⟨e, e, rfl, rfl, Or.inl rfl⟩

theorem sameBut_insert {changed : Option String} {m : Dict String Entry} {id : String}
    {e e' : Entry} (hget : m.get id = some e)
    (h : e'.status = e.status ∨ e.status.isTerminal = false ∧ changed = some id) :
    SameBut changed m (m.insert id e') := by
  intro id'
  rw [Dict.get_insert]
  split
  · rename_i heq
    subst heq
    exact Or.inr ⟨e, e', hget, rfl, h⟩
  · exact sameBut_refl changed m id'

/-- The store, less what the operation purges from it. -/
def TaskOp.purged (c : Choice N) (st : DraftTaskStore) : TaskOp → DraftTaskStore
  | .complete _ _ => st
  | _ => st.purgeExpired c.now

/-- **One operation**: past the purge, it changes the status of no task but the
one it announces, and of that only where it is not terminal. -/
theorem TaskOp.sameBut_run (n : Nat) (c : Choice N) (st : DraftTaskStore) (op : TaskOp) :
    SameBut (announced (N := N) (.task op) (op.run n c st).2) (op.purged c st).inner
      (op.run n c st).1.inner := by
  cases op with
  | complete taskId outcome =>
      show SameBut (some taskId) st.inner (st.complete c.wall taskId outcome).inner
      unfold DraftTaskStore.complete
      split
      · exact sameBut_refl _ _
      · rename_i entry hget
        split
        · exact sameBut_refl _ _
        · rename_i hterminal
          exact sameBut_insert hget (Or.inr ⟨Bool.eq_false_iff.mpr hterminal, rfl⟩)
  | get taskId => exact sameBut_refl _ _
  | cancel taskId =>
      simp only [TaskOp.run, TaskOp.purged, DraftTaskStore.cancel]
      split
      · exact sameBut_refl _ _
      · rename_i entry hget
        split
        · exact sameBut_refl _ _
        · rename_i hterminal
          exact sameBut_insert hget (Or.inr ⟨Bool.eq_false_iff.mpr hterminal, rfl⟩)
  | publishInput taskId key request =>
      simp only [TaskOp.run, TaskOp.purged, DraftTaskStore.publishInput]
      split
      · exact sameBut_refl _ _
      · rename_i entry hget
        split
        · exact sameBut_refl _ _
        · rename_i hterminal
          refine sameBut_insert hget ?_
          exact Or.inr ⟨Bool.eq_false_iff.mpr hterminal, rfl⟩
  | deliverInputs taskId responses =>
      simp only [TaskOp.run, TaskOp.purged, DraftTaskStore.deliverInputs]
      split
      · exact sameBut_refl _ _
      · rename_i entry hget
        split
        · rename_i hstatus
          refine sameBut_insert hget (Or.inr ⟨?_, rfl⟩)
          rw [hstatus.1]
          rfl
        · exact sameBut_insert hget (Or.inl rfl)

/-! ## One section -/

/-- The store, less what the section purges from it. -/
def Section.purged (c : Choice N) (s : Shared) : Section → DraftTaskStore
  | .createTask _ _ => s.tasks.purgeExpired c.now
  | .task op => op.purged c s.tasks
  | _ => s.tasks

theorem get_of_get_purged {c : Choice N} {s : Shared} {a : Section} {t : String} {e : Entry}
    (h : (a.purged c s).inner.get t = some e) : s.tasks.inner.get t = some e := by
  have hpurge (h : (s.tasks.purgeExpired c.now).inner.get t = some e) :
      s.tasks.inner.get t = some e := by
    rw [DraftTaskStore.get_purgeExpired, Option.filter_eq_some_iff] at h
    exact h.1
  cases a with
  | createTask ttl poll => exact hpurge h
  | task op =>
      cases op with
      | complete taskId outcome => exact h
      | get | cancel | publishInput | deliverInputs => exact hpurge h
  | _ => exact h

theorem task_of_announced {a : Section} {r : Reply N a} {t : String}
    (h : announced a r = some t) : ∃ op, a = .task op ∧ op.taskId = t := by
  unfold announced at h
  split at h
  · exact ⟨_, rfl, Option.some.inj h⟩
  · split at h
    · exact ⟨_, rfl, Option.some.inj h⟩
    · cases h
  · obtain ⟨-, -, h⟩ := Option.map_eq_some_iff.mp h
    exact ⟨_, rfl, h⟩
  · split at h
    · exact ⟨_, rfl, Option.some.inj h⟩
    · cases h
  · cases h

section

variable {n : Nat} {c : Choice N} {s s' : Shared} {a : Section} {r : Reply N a} {t : String}

/-- **The stored tasks**: a section purges, then changes the one task it
announces, or stores a new one. -/
theorem task_of_answer (h : runSection n c s a = .answer r s') (t : String) :
    ((a.purged c s).inner.get t = none ∧ s'.tasks.inner.get t = none) ∨
      (∃ e e', (a.purged c s).inner.get t = some e ∧ s'.tasks.inner.get t = some e' ∧
        (e'.status = e.status ∨ e.status.isTerminal = false ∧ announced a r = some t)) ∨
      t ∉ s.minted ∧ (∃ ttl poll, a = .createTask ttl poll) ∧ t = uniquify s.minted c.pick ∧
        ∃ e', s'.tasks.inner.get t = some e' ∧ e'.status = .working := by
  have hsame {changed : Option String} {m m' : Dict String Entry} (hm : SameBut changed m m') :
      (m.get t = none ∧ m'.get t = none) ∨
        (∃ e e', m.get t = some e ∧ m'.get t = some e' ∧
          (e'.status = e.status ∨ e.status.isTerminal = false ∧ changed = some t)) ∨
        t ∉ s.minted ∧ (∃ ttl poll, a = .createTask ttl poll) ∧ t = uniquify s.minted c.pick ∧
          ∃ e', m'.get t = some e' ∧ e'.status = .working :=
    (hm t).imp_right Or.inl
  rw [(ran_of_answer h).tasks]
  cases a with
  | task op =>
      cases h
      exact hsame (TaskOp.sameBut_run n c s.tasks op)
  | createTask ttl poll =>
      cases h
      show _ ∨ _ ∨ _
      simp only [Section.tasksAfter, DraftTaskStore.create]
      split
      · exact hsame (sameBut_refl _ _)
      · by_cases ht : uniquify s.minted c.pick = t
        · refine Or.inr (Or.inr ⟨?_, ⟨ttl, poll, rfl⟩, ht.symm, ?_⟩)
          · rw [← ht]
            exact uniquify_not_mem _ _
          · rw [DraftTaskStore.get_setEntry, if_pos ht]
            exact ⟨_, rfl, rfl⟩
        · rw [DraftTaskStore.get_setEntry, if_neg ht]
          exact hsame (sameBut_refl _ _)
  | _ => exact hsame (sameBut_refl _ _)

/-- A status is logged when a task comes to it. -/
theorem status_mem_statusEvent {before after : DraftTaskStore} {id t : String} {f : TaskStatus} :
    .status t f ∈ statusEvent before after id ↔ t = id ∧ ∃ e, after.inner.get t = some e ∧
      e.status = f ∧ (before.inner.get t).map (·.status) ≠ some f := by
  unfold statusEvent
  split
  · rename_i hnone
    constructor
    · intro h
      cases h
    · rintro ⟨rfl, e, hget, -⟩
      rw [hnone] at hget
      cases hget
  · rename_i entry hget
    split
    · rename_i hsame
      constructor
      · intro h
        cases h
      · rintro ⟨rfl, e, hget', rfl, hne⟩
        rw [hget] at hget'
        cases hget'
        exact absurd hsame hne
    · rename_i hne
      rw [List.mem_singleton]
      constructor
      · intro h
        cases h
        exact ⟨rfl, entry, hget, rfl, hne⟩
      · rintro ⟨rfl, e, hget', rfl, -⟩
        rw [hget] at hget'
        cases hget'
        rfl

theorem status_mem_events {f : TaskStatus} (h : .status t f ∈ a.events n c s) :
    ∃ e, (a.tasksAfter n c s).inner.get t = some e ∧ e.status = f ∧
      (s.tasks.inner.get t).map (·.status) ≠ some f := by
  unfold Section.events at h
  split at h
  · simp at h
  · simp at h
  · split at h <;> simp at h
  · simp at h
  · exact (status_mem_statusEvent.mp h).2
  · exact (status_mem_statusEvent.mp h).2
  · cases h

/-- **A change of status is logged.** -/
theorem logged_of_answer (h : runSection n c s a = .answer r s') {e' : Entry}
    (hget : s'.tasks.inner.get t = some e') :
    .status t e'.status ∈ s'.log ∨
      ∃ e, s.tasks.inner.get t = some e ∧ e.status = e'.status := by
  have hran := ran_of_answer h
  by_cases hold : (s.tasks.inner.get t).map (·.status) = some e'.status
  · obtain ⟨e, he, hstatus⟩ := Option.map_eq_some_iff.mp hold
    exact Or.inr ⟨e, he, hstatus⟩
  · refine Or.inl ?_
    rw [hran.log, List.mem_append]
    refine Or.inr ?_
    have hevent {op : TaskOp} (ha : a = .task op) (ht : op.taskId = t) :
        .status t e'.status ∈ a.events n c s := by
      subst ha ht
      rw [hran.tasks] at hget
      exact status_mem_statusEvent.mpr ⟨rfl, e', hget, rfl, hold⟩
    rcases task_of_answer h t with ⟨-, hnone⟩ | ⟨e, e'', he, he'', hstatus | ⟨-, hann⟩⟩ |
      ⟨-, ⟨ttl, poll, rfl⟩, ht, -⟩
    · rw [hnone] at hget
      cases hget
    · rw [he''] at hget
      cases hget
      rw [get_of_get_purged he, Option.map_some, hstatus] at hold
      exact absurd rfl hold
    · obtain ⟨op, ha, ht⟩ := task_of_announced hann
      exact hevent ha ht
    · rw [hran.tasks] at hget
      exact status_mem_statusEvent.mpr ⟨ht, e', hget, rfl, hold⟩

end

/-! ## Subscribers -/

section

variable {n : Nat} {c : Choice N} {s s' : Shared} {a : Section} {r : Reply N a} {t : String}
  {connection : String}

/-- **Entries come from** the table, or from a listen request. -/
theorem subscribers_of_answer (h : runSection n c s a = .answer r s') {sub : Subscriber}
    (hsub : sub ∈ s'.taskSubs.subscribers t) :
    sub ∈ s.taskSubs.subscribers t ∨ ∃ notifications ids,
      a = .effect (.onSubscribe extensionId sub.connection sub.subscriptionId notifications
        true) ∧ taskIdsFilter notifications = some ids ∧ t ∈ filterIds ids := by
  rw [(ran_of_answer h).taskSubs] at hsub
  unfold Section.taskSubsAfter at hsub
  split at hsub
  · rename_i ext connection id notifications declared
    split at hsub
    · rename_i hext
      subst hext
      unfold onSubscribe at hsub
      split at hsub
      · exact Or.inl hsub
      · rename_i ids hids
        split at hsub
        · rename_i hdeclared
          rw [TaskSubscriptions.mem_subscribers_subscribe] at hsub
          refine hsub.imp_right ?_
          rintro ⟨rfl, ht⟩
          rw [hdeclared]
          exact ⟨notifications, ids, rfl, hids, ht⟩
        · exact Or.inl hsub
    · exact Or.inl hsub
  · rw [TaskSubscriptions.mem_subscribers_dropConnection] at hsub
    exact Or.inl hsub.1
  · exact Or.inl hsub

/-- Only dropping its connection takes an entry out. -/
theorem subscribers_mono (h : runSection n c s a = .answer r s') {sub : Subscriber}
    (hsub : sub ∈ s.taskSubs.subscribers t) :
    sub ∈ s'.taskSubs.subscribers t ∨ a = .dropConnection sub.connection := by
  rw [(ran_of_answer h).taskSubs]
  unfold Section.taskSubsAfter
  split
  · split
    · unfold onSubscribe
      split
      · exact Or.inl hsub
      · split
        · rw [TaskSubscriptions.mem_subscribers_subscribe]
          exact Or.inl (Or.inl hsub)
        · exact Or.inl hsub
    · exact Or.inl hsub
  · rename_i connection
    rw [TaskSubscriptions.mem_subscribers_dropConnection]
    by_cases hconnection : sub.connection = connection
    · exact Or.inr (by rw [hconnection])
    · exact Or.inl ⟨hsub, hconnection⟩
  · exact Or.inl hsub

/-- A dropped connection has no entries. -/
theorem dropped_of_answer (h : runSection n c s a = .answer r s')
    (ha : a = .dropConnection connection) {sub : Subscriber}
    (hsub : sub ∈ s'.taskSubs.subscribers t) : sub.connection ≠ connection := by
  subst ha
  rw [(ran_of_answer h).taskSubs, Section.taskSubsAfter,
    TaskSubscriptions.mem_subscribers_dropConnection] at hsub
  exact hsub.2

end

/-! ## Runs -/

/-- What the log knows of the tasks is true. -/
structure Shared.Remembers (s : Shared) : Prop where
  minted : ∀ t e, s.tasks.inner.get t = some e → t ∈ s.minted
  logged : ∀ t e, s.tasks.inner.get t = some e → .status t e.status ∈ s.log
  known : ∀ t f, .status t f ∈ s.log → t ∈ s.minted
  last : ∀ t f e, .status t f ∈ s.log → f.isTerminal = true →
    s.tasks.inner.get t = some e → e.status = f
  unique : ∀ t f f', .status t f ∈ s.log → f.isTerminal = true →
    .status t f' ∈ s.log → f'.isTerminal = true → f = f'

theorem remembers_init (sessions : SessionStore) (taskCapacity : Nat) :
    (Shared.init sessions taskCapacity).Remembers := by
  have hlog {e : Event} (h : e ∈ (Shared.init sessions taskCapacity).log) {P : Prop} : P := by
    cases h
  have hget {t : String} {e : Entry}
      (h : (Shared.init sessions taskCapacity).tasks.inner.get t = some e) {P : Prop} : P := by
    cases h
  exact ⟨fun _ _ h => hget h, fun _ _ h => hget h, fun _ _ h => hlog h,
    fun _ _ _ h _ _ => hlog h, fun _ _ _ h _ _ _ => hlog h⟩

section

variable {n : Nat} {c : Choice N} {s s' : Shared} {a : Section} {r : Reply N a} {t : String}

theorem minted_mono (h : runSection n c s a = .answer r s') (ht : t ∈ s.minted) :
    t ∈ s'.minted := by
  rw [(ran_of_answer h).minted]
  unfold Section.mintedAfter
  split
  · exact List.mem_cons_of_mem _ ht
  · exact ht

/-- A stored task was stored before, with the status it has unless that was not
terminal; or it is new. -/
theorem stored_of_answer (h : runSection n c s a = .answer r s') {e' : Entry}
    (hget : s'.tasks.inner.get t = some e') :
    (∃ e, s.tasks.inner.get t = some e ∧
      (e'.status = e.status ∨ e.status.isTerminal = false)) ∨
      t ∉ s.minted ∧ t ∈ s'.minted := by
  rcases task_of_answer h t with ⟨-, hnone⟩ | ⟨e, e'', he, he'', hstatus⟩ |
    ⟨hnew, ⟨ttl, poll, rfl⟩, ht, -⟩
  · rw [hnone] at hget
    cases hget
  · rw [he''] at hget
    cases hget
    exact Or.inl ⟨e, get_of_get_purged he, hstatus.imp_right And.left⟩
  · refine Or.inr ⟨hnew, ?_⟩
    rw [(ran_of_answer h).minted, ht]
    exact List.mem_cons_self

/-- **The history grows truthfully.** -/
theorem remembers_after (hs : s.Remembers) (h : runSection n c s a = .answer r s') :
    s'.Remembers := by
  have hran := ran_of_answer h
  -- a task with a terminal status in the log has no other status any more
  have hlast : ∀ t f e, .status t f ∈ s.log → f.isTerminal = true →
      s'.tasks.inner.get t = some e → e.status = f := by
    intro t f e hf hterminal hget
    rcases stored_of_answer h hget with ⟨e₀, he₀, hstatus⟩ | ⟨hnew, -⟩
    · have hfinal := hs.last t f e₀ hf hterminal he₀
      rcases hstatus with hstatus | hstatus
      · rw [hstatus, hfinal]
      · rw [hfinal, hterminal] at hstatus
        cases hstatus
    · exact absurd (hs.known t f hf) hnew
  -- what is new in the log is stored
  have hlog : ∀ t f, .status t f ∈ s'.log → .status t f ∈ s.log ∨
      ∃ e, s'.tasks.inner.get t = some e ∧ e.status = f ∧
        (s.tasks.inner.get t).map (·.status) ≠ some f := by
    intro t f hf
    rw [hran.log, List.mem_append] at hf
    refine hf.imp_right fun hf => ?_
    rw [hran.tasks]
    exact status_mem_events hf
  have hminted : ∀ t e, s'.tasks.inner.get t = some e → t ∈ s'.minted := by
    intro t e hget
    rcases stored_of_answer h hget with ⟨e₀, he₀, -⟩ | ⟨-, hnew⟩
    · exact minted_mono h (hs.minted t e₀ he₀)
    · exact hnew
  refine ⟨hminted, fun t e hget => ?_, fun t f hf => ?_, fun t f e hf hterminal hget => ?_, ?_⟩
  · rcases logged_of_answer h hget with hlogged | ⟨e₀, he₀, hstatus⟩
    · exact hlogged
    · rw [hran.log, List.mem_append, ← hstatus]
      exact Or.inl (hs.logged t e₀ he₀)
  · rcases hlog t f hf with hf | ⟨e, hget, -⟩
    · exact minted_mono h (hs.known t f hf)
    · exact hminted t e hget
  · rcases hlog t f hf with hf | ⟨e₀, hget₀, rfl, -⟩
    · exact hlast t f e hf hterminal hget
    · rw [hget₀] at hget
      cases hget
      rfl
  · intro t f f' hf hterminal hf' hterminal'
    rcases hlog t f hf with hf | ⟨e, hget, rfl, -⟩
    · rcases hlog t f' hf' with hf' | ⟨e', hget', rfl, -⟩
      · exact hs.unique t f f' hf hterminal hf' hterminal'
      · exact (hlast t f e' hf hterminal hget').symm
    · rcases hlog t f' hf' with hf' | ⟨e', hget', rfl, -⟩
      · exact hlast t f' e hf' hterminal' hget
      · rw [hget] at hget'
        cases hget'
        rfl

end

theorem remembers_step {P P' : Server N} {a : Act Frame (Choice N)}
    (h : (server d rfc3339).Step P a P') (hP : P.shared.Remembers) : P'.shared.Remembers := by
  refine shared_step h hP (fun s b hs => ⟨hs.minted, hs.logged, hs.known, hs.last, hs.unique⟩) ?_
  intro n c e k r s _ _ hx
  exact remembers_after hP hx

end TurboMcp.System
