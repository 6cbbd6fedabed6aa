import Mathlib.Data.List.Induction
import TurboMcp.Server.Tasks

/-!
# No wake-up is missed

A waiter subscribes to its task's channel while it holds the lock under which
it saw that the task still runs, and every transition is announced under that
lock.  So the version a parked waiter has seen is the channel's as long as the
task runs, and older once it has ended; and once the task is purged the channel
is closed.
-/

namespace TurboMcp.Server

open TurboMcp.Core TurboMcp.Lib

namespace TaskStore

variable {st : TaskStore} {id : String} {e : TaskEntry}

/-! ## The operations, one table at a time -/

theorem get_purgeExpired (st : TaskStore) (now : Nat) (id : String) :
    (st.purgeExpired now).inner.get id = (st.inner.get id).filter fun e => !e.expired now :=
  Dict.get_retain st.inner _ id

theorem get_of_purged {now : Nat} (h : (st.purgeExpired now).inner.get id = some e) :
    st.inner.get id = some e := by
  rw [get_purgeExpired, Option.filter_eq_some_iff] at h
  exact h.1

theorem own_eq_some {session : String} :
    st.own session id = some e ↔ st.inner.get id = some e ∧ e.sessionId = session := by
  unfold own
  rw [Option.filter_eq_some_iff, decide_eq_true_eq]

/-- A task that ends: its entry with the outcome written into it. -/
structure Finishes (e e' : TaskEntry) (r : TaskResult) : Prop where
  live : e.status.isTerminal = false
  terminal : e'.status.isTerminal = true
  outcome : e'.outcome = some r
  notify : e'.notify = e.notify
  session : e'.sessionId = e.sessionId
  expired : ∀ now, e'.expired now = e.expired now

/-- The entry that `complete` leaves. -/
def ended (e : TaskEntry) (nowWall : Nat) : TaskResult → TaskEntry
  | .ok value =>
      { e with status := .completed, outcome := some (.ok value), updatedWall := nowWall }
  | .error err =>
      { e with
        status := .failed
        statusMessage := some err.message
        outcome := some (.error err)
        updatedWall := nowWall }

theorem finishes_ended (hlive : e.status.isTerminal = false) (nowWall : Nat) (r : TaskResult) :
    Finishes e (ended e nowWall r) r := by
  rcases r with err | value
  · exact ⟨hlive, rfl, rfl, rfl, rfl, fun _ => rfl⟩
  · exact ⟨hlive, rfl, rfl, rfl, rfl, fun _ => rfl⟩

theorem complete_of_get (he : st.inner.get id = some e) (hlive : e.status.isTerminal = false)
    (nowWall : Nat) (r : TaskResult) :
    st.complete nowWall id r = (st.setEntry id (ended e nowWall r)).send e.notify := by
  unfold complete
  rw [he]
  dsimp only
  rw [if_neg (Bool.eq_false_iff.mp hlive)]
  rcases r with err | value
  · rfl
  · rfl

theorem complete_of_terminal (he : st.inner.get id = some e) (hterm : e.status.isTerminal = true)
    (nowWall : Nat) (r : TaskResult) : st.complete nowWall id r = st := by
  unfold complete
  rw [he]
  dsimp only
  rw [if_pos hterm]

/-- `complete` ends a task that runs and does nothing else. -/
theorem complete_cases (st : TaskStore) (nowWall : Nat) (id : String) (outcome : TaskResult) :
    st.complete nowWall id outcome = st ∨
    ∃ e e', st.inner.get id = some e ∧ Finishes e e' outcome ∧
      st.complete nowWall id outcome = (st.setEntry id e').send e.notify := by
  rcases hget : st.inner.get id with _ | e
  · refine Or.inl ?_
    unfold complete
    rw [hget]
  · rcases hterm : e.status.isTerminal with _ | _
    · exact Or.inr ⟨e, ended e nowWall outcome, rfl, finishes_ended hterm nowWall outcome,
        complete_of_get hget hterm nowWall outcome⟩
    · exact Or.inl (complete_of_terminal hget hterm nowWall outcome)

/-- The entry that `cancel` leaves. -/
def cancelled (e : TaskEntry) (nowWall : Nat) : TaskEntry :=
  { e with
    status := .cancelled
    statusMessage := some "the task was cancelled by request"
    outcome := some (.error taskCancelled)
    updatedWall := nowWall }

theorem cancel_of_own {rfc3339 : Nat → String} {now nowWall : Nat} {session : String}
    (he : (st.purgeExpired now).own session id = some e) (hlive : e.status.isTerminal = false) :
    st.cancel rfc3339 now nowWall session id =
      (({ st.purgeExpired now with fired := (st.purgeExpired now).fired ++ [e.cancel] }.setEntry
        id (cancelled e nowWall)).send e.notify,
        .ok ((cancelled e nowWall).snapshot rfc3339 id)) := by
  unfold cancel
  dsimp only
  rw [he]
  dsimp only
  rw [if_neg (Bool.eq_false_iff.mp hlive)]
  rfl

/-- `cancel` ends a task of the session that runs, fires its token, and does
nothing else but the purge. -/
theorem cancel_cases (st : TaskStore) (rfc3339 : Nat → String) (now nowWall : Nat)
    (session id : String) :
    (st.cancel rfc3339 now nowWall session id).1 = st.purgeExpired now ∨
    ∃ e e', (st.purgeExpired now).own session id = some e ∧
      Finishes e e' (.error taskCancelled) ∧
      (st.cancel rfc3339 now nowWall session id).1 =
        ({ st.purgeExpired now with fired := (st.purgeExpired now).fired ++ [e.cancel] }.setEntry
          id e').send e.notify := by
  rcases hget : (st.purgeExpired now).own session id with _ | e
  · refine Or.inl ?_
    unfold cancel
    dsimp only
    rw [hget]
  · rcases hterm : e.status.isTerminal with _ | _
    · refine Or.inr ⟨e, cancelled e nowWall, rfl, ⟨hterm, rfl, rfl, rfl, rfl, fun _ => rfl⟩, ?_⟩
      rw [cancel_of_own hget hterm]
    · refine Or.inl ?_
      unfold cancel
      dsimp only
      rw [hget]
      dsimp only
      rw [if_pos hterm]

/-! ## What the store keeps -/

/-- A task has its outcome exactly when it has ended, and a channel of its own. -/
structure Sound (st : TaskStore) : Prop where
  outcome : ∀ id e, st.inner.get id = some e → (e.status.isTerminal = true ↔ e.outcome.isSome = true)
  made : ∀ id e, st.inner.get id = some e → (st.watches.get e.notify).isSome = true
  apart : ∀ id e id' e', st.inner.get id = some e → st.inner.get id' = some e' →
    e.notify = e'.notify → id = id'

theorem sound_withCapacity (capacity : Nat) : (withCapacity capacity).Sound := by
  refine ⟨?_, ?_, ?_⟩
  · intro id e he
    cases he
  · intro id e he
    cases he
  · intro id e id' e' he
    cases he

theorem Sound.purgeExpired (h : st.Sound) (now : Nat) : (st.purgeExpired now).Sound where
  outcome id e he := h.outcome id e (get_of_purged he)
  made id e he := h.made id e (get_of_purged he)
  apart id e id' e' he he' := h.apart id e id' e' (get_of_purged he) (get_of_purged he')

/-- Watches may change as long as none goes. -/
theorem Sound.watches (h : st.Sound) {watches : Dict Nat Watch}
    (hkeeps : ∀ ch, (st.watches.get ch).isSome = true → (watches.get ch).isSome = true) :
    Sound { st with watches } where
  outcome := h.outcome
  made id e he := hkeeps _ (h.made id e he)
  apart := h.apart

theorem get_modify_isSome (m : Dict Nat Watch) (k : Nat) (f : Watch → Watch) (ch : Nat) :
    ((m.modify k f).get ch).isSome = (m.get ch).isSome := by
  rw [Dict.get_modify, Option.isSome_map]

theorem Sound.finish (h : st.Sound) {e' : TaskEntry} {r : TaskResult}
    (he : st.inner.get id = some e) (hfinishes : Finishes e e' r) :
    ((st.setEntry id e').send e.notify).Sound := by
  have hset : (st.setEntry id e').Sound := by
    have hget (id' : String) (e₁ : TaskEntry) (h₁ : (st.setEntry id e').inner.get id' = some e₁) :
        ∃ e₀, st.inner.get id' = some e₀ ∧ e₁.notify = e₀.notify ∧
          (e₁ = e₀ ∨ id = id' ∧ e₁ = e') := by
      unfold setEntry at h₁
      rw [Dict.get_insert] at h₁
      split at h₁
      · rename_i hid
        subst hid
        obtain rfl := Option.some.inj h₁
        exact ⟨e, he, hfinishes.notify, Or.inr ⟨rfl, rfl⟩⟩
      · exact ⟨e₁, h₁, rfl, Or.inl rfl⟩
    refine ⟨?_, ?_, ?_⟩
    · intro id' e₁ h₁
      obtain ⟨e₀, h₀, -, rfl | ⟨-, rfl⟩⟩ := hget id' e₁ h₁
      · exact h.outcome id' _ h₀
      · refine iff_of_true hfinishes.terminal ?_
        rw [hfinishes.outcome]
        rfl
    · intro id' e₁ h₁
      obtain ⟨e₀, h₀, hnotify, -⟩ := hget id' e₁ h₁
      rw [hnotify]
      exact h.made id' e₀ h₀
    · intro id₁ e₁ id₂ e₂ h₁ h₂ heq
      obtain ⟨f₁, hf₁, hn₁, -⟩ := hget id₁ e₁ h₁
      obtain ⟨f₂, hf₂, hn₂, -⟩ := hget id₂ e₂ h₂
      exact h.apart id₁ f₁ id₂ f₂ hf₁ hf₂ (by rw [← hn₁, ← hn₂, heq])
  refine hset.watches fun ch hch => ?_
  rw [get_modify_isSome]
  exact hch

theorem Sound.create (h : st.Sound) (rfc3339 : Nat → String) {now nowWall notify : Nat}
    {session : String} {ttl : Option Int} {cancel : Nat} (hnew : st.watches.get notify = none) :
    (st.create rfc3339 now nowWall id notify session ttl cancel).1.Sound := by
  unfold TaskStore.create
  dsimp only
  split
  · exact h.purgeExpired now
  · have hp := h.purgeExpired now
    -- every other task has a channel that was made before
    have hother (id' : String) (e' : TaskEntry)
        (he' : (st.purgeExpired now).inner.get id' = some e') : e'.notify ≠ notify := by
      rintro rfl
      have hmade := h.made id' e' (get_of_purged he')
      rw [hnew] at hmade
      cases hmade
    refine ⟨?_, ?_, ?_⟩
    · intro id' e' he'
      unfold setEntry at he'
      rw [Dict.get_insert] at he'
      split at he'
      · obtain rfl := Option.some.inj he'
        exact iff_of_false (fun h => by cases h) (fun h => by cases h)
      · exact hp.outcome id' e' he'
    · intro id' e' he'
      unfold setEntry at he'
      dsimp only
      rw [Dict.get_insert] at he' ⊢
      split at he'
      · obtain rfl := Option.some.inj he'
        rw [if_pos rfl]
        rfl
      · split
        · rfl
        · exact hp.made id' e' he'
    · intro id₁ e₁ id₂ e₂ h₁ h₂ heq
      unfold setEntry at h₁ h₂
      rw [Dict.get_insert] at h₁ h₂
      split at h₁
      · rename_i hid₁
        obtain rfl := Option.some.inj h₁
        split at h₂
        · rename_i hid₂
          exact hid₁.symm.trans hid₂
        · exact absurd heq.symm (hother id₂ e₂ h₂)
      · split at h₂
        · obtain rfl := Option.some.inj h₂
          exact absurd heq (hother id₁ e₁ h₁)
        · exact hp.apart id₁ e₁ id₂ e₂ h₁ h₂ heq

/-! ## A parked waiter -/

/-- The waiter `w` for the task `id` is subscribed to the task's channel, and
the version it has seen is an older one if the task has ended since. -/
def Awaits (st : TaskStore) (w : Nat) (id : String) (notify seen : Nat) : Prop :=
  ∃ watch, st.watches.get notify = some watch ∧ w ∈ watch.receivers ∧ seen ≤ watch.version ∧
    ∀ id' e, st.inner.get id' = some e → e.notify = notify →
      id' = id ∧ (e.status.isTerminal = true → seen < watch.version)

variable {w notify seen : Nat}

/-- **Woken**: a waiter on a task that has ended or gone has a change to see,
or finds its channel closed. -/
theorem Awaits.woken (h : st.Awaits w id notify seen)
    (hended : ∀ e, st.inner.get id = some e → e.status.isTerminal = true) :
    st.changed notify seen = true ∨ st.closed notify = true := by
  obtain ⟨watch, hwatch, -, -, htask⟩ := h
  rcases hclosed : st.closed notify with _ | _
  · refine Or.inl ?_
    unfold closed at hclosed
    rw [List.all_eq_false] at hclosed
    obtain ⟨⟨id', e⟩, hmem, hnotify⟩ := hclosed
    have he : st.inner.get id' = some e := (Dict.get_eq_some_iff ..).mpr hmem
    have hnotify : e.notify = notify := by simpa using hnotify
    obtain ⟨rfl, hseen⟩ := htask id' e he hnotify
    have hlt := hseen (hended e he)
    unfold changed
    rw [hwatch, Option.map_some, decide_eq_true_eq]
    intro heq
    exact absurd (Option.some.inj heq) (Nat.ne_of_gt hlt)
  · exact Or.inr rfl

theorem Awaits.purgeExpired (h : st.Awaits w id notify seen) (now : Nat) :
    (st.purgeExpired now).Awaits w id notify seen := by
  obtain ⟨watch, hwatch, hw, hseen, htask⟩ := h
  exact ⟨watch, hwatch, hw, hseen, fun id' e he => htask id' e (get_of_purged he)⟩

/-- The announcement of a transition reaches who is subscribed. -/
theorem Awaits.finish (h : st.Awaits w id notify seen) {id' : String} {e' : TaskEntry}
    {r : TaskResult} (he : st.inner.get id' = some e) (hfinishes : Finishes e e' r) :
    ((st.setEntry id' e').send e.notify).Awaits w id notify seen := by
  obtain ⟨watch, hwatch, hw, hseen, htask⟩ := h
  have hsubscribed : watch.receivers.isEmpty = false := by
    rw [List.isEmpty_eq_false_iff]
    exact List.ne_nil_of_mem hw
  unfold send setEntry
  dsimp only [Awaits]
  rw [Dict.get_modify, hwatch, Option.map_some]
  by_cases hnotify : e.notify = notify
  · rw [if_pos hnotify, hsubscribed]
    refine ⟨_, rfl, hw, Nat.le_succ_of_le hseen, ?_⟩
    intro id₁ e₁ h₁ hn₁
    rw [Dict.get_insert] at h₁
    split at h₁
    · rename_i hid
      subst hid
      exact ⟨(htask _ e he hnotify).1, fun _ => Nat.lt_succ_of_le hseen⟩
    · exact ⟨(htask id₁ e₁ h₁ hn₁).1, fun _ => Nat.lt_succ_of_le hseen⟩
  · rw [if_neg hnotify]
    refine ⟨watch, rfl, hw, hseen, ?_⟩
    intro id₁ e₁ h₁ hn₁
    rw [Dict.get_insert] at h₁
    split at h₁
    · obtain rfl := Option.some.inj h₁
      exact absurd (hfinishes.notify.symm.trans hn₁) hnotify
    · exact htask id₁ e₁ h₁ hn₁

theorem Awaits.create (h : st.Awaits w id notify seen) (rfc3339 : Nat → String)
    {now nowWall notify' : Nat} {id' session : String} {ttl : Option Int} {cancel : Nat}
    (hnew : st.watches.get notify' = none) :
    (st.create rfc3339 now nowWall id' notify' session ttl cancel).1.Awaits w id notify seen := by
  unfold TaskStore.create
  dsimp only
  split
  · exact h.purgeExpired now
  · obtain ⟨watch, hwatch, hw, hseen, htask⟩ := h.purgeExpired now
    have hne : notify' ≠ notify := by
      rintro rfl
      cases hnew.symm.trans hwatch
    refine ⟨watch, ?_, hw, hseen, ?_⟩
    · dsimp only
      rw [Dict.get_insert, if_neg hne]
      exact hwatch
    · intro id₁ e₁ h₁ hn₁
      unfold setEntry at h₁
      rw [Dict.get_insert] at h₁
      split at h₁
      · obtain rfl := Option.some.inj h₁
        exact absurd hn₁ hne
      · exact htask id₁ e₁ h₁ hn₁

/-- Others may come and go. -/
theorem Awaits.receivers (h : st.Awaits w id notify seen) (notify' : Nat)
    {f : List Nat → List Nat} (hkeeps : ∀ l, w ∈ l → w ∈ f l) :
    Awaits { st with watches := st.watches.modify notify' fun watch =>
      { watch with receivers := f watch.receivers } } w id notify seen := by
  obtain ⟨watch, hwatch, hw, hseen, htask⟩ := h
  dsimp only [Awaits]
  rw [Dict.get_modify, hwatch, Option.map_some]
  split
  · exact ⟨_, rfl, hkeeps _ hw, hseen, htask⟩
  · exact ⟨watch, rfl, hw, hseen, htask⟩

/-- **Subscription**: under the lock under which the task was seen to run. -/
theorem awaits_of_check (hs : st.Sound) {now : Nat} {session : String}
    (h : (st.check now w session id).2 = .parked notify seen) :
    (st.check now w session id).1.Awaits w id notify seen := by
  unfold check at h ⊢
  dsimp only at h ⊢
  rcases hown : (st.purgeExpired now).own session id with _ | e
  · rw [hown] at h
    cases h
  · rw [hown] at h
    dsimp only at h ⊢
    obtain ⟨he, -⟩ := own_eq_some.mp hown
    by_cases hterm : e.status.isTerminal = true
    · rw [if_pos hterm] at h
      cases h
    · rw [if_neg hterm] at h ⊢
      obtain ⟨rfl, rfl⟩ := WaitPhase.parked.inj h
      have hp := hs.purgeExpired now
      obtain ⟨watch, hwatch⟩ := Option.isSome_iff_exists.mp (hp.made id e he)
      dsimp only [Awaits]
      rw [Dict.get_modify, hwatch, Option.map_some, if_pos rfl]
      refine ⟨_, rfl, List.mem_cons_self, Nat.le_refl _, ?_⟩
      intro id' e' he' hnotify
      obtain rfl := hp.apart id' e' id e he' he hnotify
      cases he.symm.trans he'
      exact ⟨rfl, fun h => absurd h hterm⟩

theorem Sound.check (hs : st.Sound) (now w : Nat) (session id : String) :
    (st.check now w session id).1.Sound := by
  unfold TaskStore.check
  dsimp only
  split
  · exact hs.purgeExpired now
  · split
    · exact hs.purgeExpired now
    · refine (hs.purgeExpired now).watches fun ch hch => ?_
      rw [get_modify_isSome]
      exact hch

theorem Sound.unsubscribe (hs : st.Sound) (notify w : Nat) : (st.unsubscribe notify w).Sound := by
  refine hs.watches fun ch hch => ?_
  rw [get_modify_isSome]
  exact hch

theorem Awaits.check (h : st.Awaits w id notify seen) (now w' : Nat) (session id' : String) :
    (st.check now w' session id').1.Awaits w id notify seen := by
  unfold TaskStore.check
  dsimp only
  split
  · exact h.purgeExpired now
  · split
    · exact h.purgeExpired now
    · exact (h.purgeExpired now).receivers _ fun _ hl => List.mem_cons_of_mem w' hl

theorem Awaits.unsubscribe (h : st.Awaits w id notify seen) (notify' : Nat) {w' : Nat}
    (hne : w ≠ w') : (st.unsubscribe notify' w').Awaits w id notify seen :=
  h.receivers notify' fun _ hl => List.mem_filter.mpr ⟨hl, decide_eq_true hne⟩

/-! ## Outcomes -/

theorem get_finish {e₁ e' : TaskEntry} {id' : String} {notify : Nat}
    (he' : ((st.setEntry id e₁).send notify).inner.get id' = some e') :
    st.inner.get id' = some e' ∨ id = id' ∧ e₁ = e' := by
  unfold send setEntry at he'
  dsimp only at he'
  rw [Dict.get_insert] at he'
  split at he'
  · rename_i hid
    exact Or.inr ⟨hid, Option.some.inj he'⟩
  · exact Or.inl he'

theorem check_inner (st : TaskStore) (now w : Nat) (session id : String) :
    (st.check now w session id).1.inner = (st.purgeExpired now).inner := by
  unfold check
  dsimp only
  split
  · rfl
  · split
    · rfl
    · rfl

theorem resume_inner (st : TaskStore) (now w : Nat) (waiter : Waiter) :
    (st.resume now w waiter).1.inner = st.inner ∨
      (st.resume now w waiter).1.inner = (st.purgeExpired now).inner := by
  unfold resume
  rcases waiter.phase with _ | ⟨notify, seen⟩ | result
  · exact Or.inr (check_inner ..)
  · dsimp only
    split
    · exact Or.inl rfl
    · split
      · exact Or.inl rfl
      · exact Or.inl rfl
  · exact Or.inl rfl

/-- What a waiter that returns an outcome returns. -/
theorem resume_returned (hs : st.Sound) {now w : Nat} {waiter : Waiter} {r : TaskResult}
    (hrunning : waiter.phase ≠ .returned (.ok r))
    (h : (st.resume now w waiter).2 = .returned (.ok r)) :
    ∃ e, st.inner.get waiter.id = some e ∧ e.sessionId = waiter.sessionId ∧
      e.status.isTerminal = true ∧ e.outcome = some r := by
  unfold resume at h
  rcases hphase : waiter.phase with _ | ⟨notify, seen⟩ | result
  · rw [hphase] at h
    unfold check at h
    dsimp only at h
    rcases hown : (st.purgeExpired now).own waiter.sessionId waiter.id with _ | e
    · rw [hown] at h
      cases h
    · rw [hown] at h
      dsimp only at h
      obtain ⟨he, hsession⟩ := own_eq_some.mp hown
      have he := get_of_purged he
      by_cases hterm : e.status.isTerminal = true
      · rw [if_pos hterm] at h
        obtain ⟨r', hr'⟩ := Option.isSome_iff_exists.mp ((hs.outcome _ e he).mp hterm)
        rw [hr', Option.getD_some] at h
        cases h
        exact ⟨e, he, hsession, hterm, hr'⟩
      · rw [if_neg hterm] at h
        cases h
  · rw [hphase] at h
    dsimp only at h
    split at h
    · cases h
    · split at h
      · cases h
      · cases h
  · rw [hphase] at h
    exact absurd (hphase.trans h) hrunning

end TaskStore

namespace TaskRoom

open TaskStore

variable {rfc3339 : Nat → String} {s t : TaskRoom} {c : TaskCall}

/-! ## One step -/

/-- The stored tasks were minted, the store is sound, and a parked waiter is
subscribed to its task. -/
structure Attentive (s : TaskRoom) : Prop where
  minted : ∀ id e, s.store.inner.get id = some e → id ∈ s.minted
  sound : s.store.Sound
  parked : ∀ w waiter notify seen, s.waiters.get w = some waiter →
    waiter.phase = .parked notify seen → s.store.Awaits w waiter.id notify seen

theorem attentive_initial (capacity : Nat) : (initial capacity).Attentive where
  minted := by
    intro id e he
    cases he
  sound := sound_withCapacity capacity
  parked := by
    intro w waiter notify seen hw
    cases hw

theorem create_inner (st : TaskStore) (now nowWall : Nat) (id : String) (notify : Nat)
    (session : String) (ttl : Option Int) (cancel : Nat) {id' : String} {e' : TaskEntry}
    (he' : (st.create rfc3339 now nowWall id notify session ttl cancel).1.inner.get id' = some e') :
    st.inner.get id' = some e' ∨ id' = id ∧ e'.status.isTerminal = false ∧ e'.outcome = none ∧
      e'.sessionId = session := by
  unfold TaskStore.create at he'
  dsimp only at he'
  split at he'
  · exact Or.inl (get_of_purged he')
  · unfold setEntry at he'
    dsimp only at he'
    rw [Dict.get_insert] at he'
    split at he'
    · rename_i hid
      obtain rfl := Option.some.inj he'
      exact Or.inr ⟨hid.symm, rfl, rfl, rfl⟩
    · exact Or.inl (get_of_purged he')

/-- **Inversion**: a task that is there after a step was there before, or is
the one the step creates, or ends in it. -/
theorem entry_cases (h : Step rfc3339 s c t) {id : String} {e' : TaskEntry}
    (he' : t.store.inner.get id = some e') :
    s.store.inner.get id = some e' ∨
    (id ∉ s.minted ∧ id ∈ t.minted ∧ e'.status.isTerminal = false ∧ e'.outcome = none ∧
      e'.sessionId = c.session) ∨
    ∃ e r, s.store.inner.get id = some e ∧ Finishes e e' r ∧ e.sessionId = c.session ∧
      (c.act = .complete id r ∨ c.act = .cancel id ∧ r = .error taskCancelled) := by
  obtain ⟨hadm, rfl⟩ := h
  obtain ⟨now, nowWall, session, act⟩ := c
  cases act with
  | create ttl cancel id' notify =>
      rcases create_inner s.store now nowWall id' notify session ttl cancel he' with
        hsame | ⟨rfl, hlive, hnone, hsession⟩
      · exact Or.inl hsame
      · exact Or.inr (Or.inl ⟨hadm.1, List.mem_cons_self, hlive, hnone, hsession⟩)
  | complete id' outcome =>
      replace he' : (s.store.complete nowWall id' outcome).inner.get id = some e' := he'
      rcases complete_cases s.store nowWall id' outcome with hsame | ⟨e₀, e₁, h₀, hfin, hst⟩
      · rw [hsame] at he'
        exact Or.inl he'
      · rw [hst] at he'
        rcases get_finish he' with hold | ⟨rfl, rfl⟩
        · exact Or.inl hold
        · exact Or.inr (Or.inr ⟨e₀, outcome, h₀, hfin, hadm e₀ h₀, Or.inl rfl⟩)
  | cancel id' =>
      replace he' : (s.store.cancel rfc3339 now nowWall session id').1.inner.get id = some e' := he'
      rcases cancel_cases s.store rfc3339 now nowWall session id' with
        hsame | ⟨e₀, e₁, hown, hfin, hst⟩
      · rw [hsame] at he'
        exact Or.inl (get_of_purged he')
      · rw [hst] at he'
        obtain ⟨h₀, hsession⟩ := own_eq_some.mp hown
        rcases get_finish he' with hold | ⟨rfl, rfl⟩
        · exact Or.inl (get_of_purged hold)
        · exact Or.inr (Or.inr ⟨e₀, _, get_of_purged h₀, hfin, hsession, Or.inr ⟨rfl, rfl⟩⟩)
  | get id' =>
      replace he' : (s.store.get rfc3339 now session id').1.inner.get id = some e' := he'
      unfold TaskStore.get at he'
      dsimp only at he'
      split at he'
      · exact Or.inl (get_of_purged he')
      · exact Or.inl (get_of_purged he')
  | list cursor pageSize order =>
      replace he' : (s.store.list rfc3339 now order session cursor pageSize).1.inner.get id =
        some e' := he'
      unfold TaskStore.list at he'
      split at he'
      · exact Or.inl he'
      · exact Or.inl (get_of_purged he')
  | wait w id' => exact Or.inl he'
  | resume w =>
      unfold TaskRoom.act at he'
      dsimp only at he'
      rcases hw : s.waiters.get w with _ | waiter
      · rw [hw] at he'
        exact Or.inl he'
      · rw [hw] at he'
        replace he' : (s.store.resume now w waiter).1.inner.get id = some e' := he'
        rcases resume_inner s.store now w waiter with heq | heq
        · rw [heq] at he'
          exact Or.inl he'
        · rw [heq] at he'
          exact Or.inl (get_of_purged he')
  | abandon w =>
      replace he' : (s.unsubscribed w).inner.get id = some e' := he'
      unfold unsubscribed at he'
      split at he'
      · exact Or.inl he'
      · exact Or.inl he'

theorem sound_step (h : Step rfc3339 s c t) (hs : s.Attentive) : t.store.Sound := by
  obtain ⟨hadm, rfl⟩ := h
  obtain ⟨now, nowWall, session, act⟩ := c
  cases act with
  | create ttl cancel id notify => exact hs.sound.create rfc3339 hadm.2
  | complete id outcome =>
      show (s.store.complete nowWall id outcome).Sound
      rcases complete_cases s.store nowWall id outcome with hsame | ⟨e₀, e₁, h₀, hfin, hst⟩
      · rw [hsame]
        exact hs.sound
      · rw [hst]
        exact hs.sound.finish h₀ hfin
  | cancel id =>
      show (s.store.cancel rfc3339 now nowWall session id).1.Sound
      rcases cancel_cases s.store rfc3339 now nowWall session id with
        hsame | ⟨e₀, e₁, hown, hfin, hst⟩
      · rw [hsame]
        exact hs.sound.purgeExpired now
      · rw [hst]
        obtain ⟨hout, hmade, hapart⟩ := hs.sound.purgeExpired now
        have hfired : Sound { s.store.purgeExpired now with
            fired := (s.store.purgeExpired now).fired ++ [e₀.cancel] } := ⟨hout, hmade, hapart⟩
        exact hfired.finish (own_eq_some.mp hown).1 hfin
  | get id =>
      show (s.store.get rfc3339 now session id).1.Sound
      unfold TaskStore.get
      dsimp only
      split
      · exact hs.sound.purgeExpired now
      · exact hs.sound.purgeExpired now
  | list cursor pageSize order =>
      show (s.store.list rfc3339 now order session cursor pageSize).1.Sound
      unfold TaskStore.list
      split
      · exact hs.sound
      · exact hs.sound.purgeExpired now
  | wait w id => exact hs.sound
  | resume w =>
      unfold TaskRoom.act
      dsimp only
      rcases s.waiters.get w with _ | waiter
      · exact hs.sound
      · show (s.store.resume now w waiter).1.Sound
        unfold TaskStore.resume
        rcases waiter.phase with _ | ⟨notify, seen⟩ | result
        · exact hs.sound.check ..
        · dsimp only
          split
          · exact hs.sound.unsubscribe ..
          · split
            · exact hs.sound.unsubscribe ..
            · exact hs.sound
        · exact hs.sound
  | abandon w =>
      show (s.unsubscribed w).Sound
      unfold unsubscribed
      split
      · exact hs.sound.unsubscribe ..
      · exact hs.sound

/-- Who is parked stays subscribed whatever another does. -/
theorem awaits_step (h : Step rfc3339 s c t) {w : Nat} {id : String} {notify seen : Nat}
    (hother : c.act ≠ .resume w ∧ c.act ≠ .abandon w) (ha : s.store.Awaits w id notify seen) :
    t.store.Awaits w id notify seen := by
  obtain ⟨hadm, rfl⟩ := h
  obtain ⟨now, nowWall, session, act⟩ := c
  cases act with
  | create ttl cancel id' notify' => exact ha.create rfc3339 hadm.2
  | complete id' outcome =>
      show (s.store.complete nowWall id' outcome).Awaits w id notify seen
      rcases complete_cases s.store nowWall id' outcome with hsame | ⟨e₀, e₁, h₀, hfin, hst⟩
      · rw [hsame]
        exact ha
      · rw [hst]
        exact ha.finish h₀ hfin
  | cancel id' =>
      show (s.store.cancel rfc3339 now nowWall session id').1.Awaits w id notify seen
      rcases cancel_cases s.store rfc3339 now nowWall session id' with
        hsame | ⟨e₀, e₁, hown, hfin, hst⟩
      · rw [hsame]
        exact ha.purgeExpired now
      · rw [hst]
        have hfired : Awaits { s.store.purgeExpired now with
            fired := (s.store.purgeExpired now).fired ++ [e₀.cancel] } w id notify seen :=
          ha.purgeExpired now
        exact hfired.finish (own_eq_some.mp hown).1 hfin
  | get id' =>
      show (s.store.get rfc3339 now session id').1.Awaits w id notify seen
      unfold TaskStore.get
      dsimp only
      split
      · exact ha.purgeExpired now
      · exact ha.purgeExpired now
  | list cursor pageSize order =>
      show (s.store.list rfc3339 now order session cursor pageSize).1.Awaits w id notify seen
      unfold TaskStore.list
      split
      · exact ha
      · exact ha.purgeExpired now
  | wait w' id' => exact ha
  | resume w' =>
      have hne : w ≠ w' := by
        rintro rfl
        exact hother.1 rfl
      unfold TaskRoom.act
      dsimp only
      rcases s.waiters.get w' with _ | waiter
      · exact ha
      · show (s.store.resume now w' waiter).1.Awaits w id notify seen
        unfold TaskStore.resume
        rcases waiter.phase with _ | ⟨notify', seen'⟩ | result
        · exact ha.check ..
        · dsimp only
          split
          · exact ha.unsubscribe notify' hne
          · split
            · exact ha.unsubscribe notify' hne
            · exact ha
        · exact ha
  | abandon w' =>
      have hne : w ≠ w' := by
        rintro rfl
        exact hother.2 rfl
      show (s.unsubscribed w').Awaits w id notify seen
      unfold unsubscribed
      split
      · exact ha.unsubscribe _ hne
      · exact ha

/-- **Inversion**: a waiter of the next state was there before as it is, or the
step called it, or resumed it. -/
theorem waiter_cases (h : Step rfc3339 s c t) {w : Nat} {waiter' : Waiter}
    (hw : t.waiters.get w = some waiter') :
    (s.waiters.get w = some waiter' ∧ c.act ≠ .resume w ∧ c.act ≠ .abandon w) ∨
    (∃ id, c.act = .wait w id ∧ waiter' = ⟨c.session, id, .ready⟩) ∨
    ∃ waiter, c.act = .resume w ∧ s.waiters.get w = some waiter ∧
      waiter' = { waiter with phase := (s.store.resume c.now w waiter).2 } ∧
      t.store = (s.store.resume c.now w waiter).1 := by
  obtain ⟨hadm, rfl⟩ := h
  obtain ⟨now, nowWall, session, act⟩ := c
  cases act with
  | wait w' id =>
      replace hw : (s.waiters.insert w' ⟨session, id, .ready⟩).get w = some waiter' := hw
      rw [Dict.get_insert] at hw
      split at hw
      · rename_i heq
        subst heq
        exact Or.inr (Or.inl ⟨id, rfl, (Option.some.inj hw).symm⟩)
      · exact Or.inl ⟨hw, (fun heq => by cases heq), fun heq => by cases heq⟩
  | resume w' =>
      unfold TaskRoom.act at hw ⊢
      dsimp only at hw ⊢
      rcases hw' : s.waiters.get w' with _ | waiter
      · rw [hw'] at hw
        refine Or.inl ⟨hw, ?_, fun heq => by cases heq⟩
        intro heq
        obtain rfl := TaskAct.resume.inj heq
        cases hw'.symm.trans hw
      · rw [hw'] at hw
        dsimp only at hw
        rw [Dict.get_insert] at hw
        split at hw
        · rename_i heq
          subst heq
          exact Or.inr (Or.inr ⟨waiter, rfl, hw', (Option.some.inj hw).symm, rfl⟩)
        · rename_i hne
          refine Or.inl ⟨hw, ?_, fun heq => by cases heq⟩
          intro heq
          exact hne (TaskAct.resume.inj heq)
  | abandon w' =>
      replace hw : (s.waiters.remove w').get w = some waiter' := hw
      rw [Dict.get_remove] at hw
      split at hw
      · cases hw
      · rename_i hne
        refine Or.inl ⟨hw, (fun heq => by cases heq), ?_⟩
        intro heq
        exact hne (TaskAct.abandon.inj heq)
  | _ => exact Or.inl ⟨hw, (fun heq => by cases heq), fun heq => by cases heq⟩

theorem minted_mono (h : Step rfc3339 s c t) : s.minted ⊆ t.minted := by
  obtain ⟨-, rfl⟩ := h
  obtain ⟨now, nowWall, session, act⟩ := c
  cases act with
  | create ttl cancel id notify => exact List.subset_cons_self id s.minted
  | resume w =>
      unfold TaskRoom.act
      dsimp only
      split
      · exact List.Subset.refl _
      · exact List.Subset.refl _
  | _ => exact List.Subset.refl _

theorem attentive_step (h : Step rfc3339 s c t) (hs : s.Attentive) : t.Attentive where
  minted := by
    intro id e' he'
    rcases entry_cases h he' with hsame | ⟨-, hmint, -⟩ | ⟨e, r, he, -⟩
    · exact minted_mono h (hs.minted id e' hsame)
    · exact hmint
    · exact minted_mono h (hs.minted id e he)
  sound := sound_step h hs
  parked := by
    intro w waiter' notify seen hw hphase
    rcases waiter_cases h hw with ⟨hold, hother⟩ | ⟨id, -, rfl⟩ | ⟨waiter, hact, hold, rfl, hstore⟩
    · exact awaits_step h hother (hs.parked w waiter' notify seen hold hphase)
    · cases hphase
    · -- the waiter itself: it parks, or stays parked
      rw [hstore]
      replace hphase : (s.store.resume c.now w waiter).2 = .parked notify seen := hphase
      show (s.store.resume c.now w waiter).1.Awaits w waiter.id notify seen
      unfold TaskStore.resume at hphase ⊢
      rcases hbefore : waiter.phase with _ | ⟨notify', seen'⟩ | result
      · rw [hbefore] at hphase
        exact awaits_of_check hs.sound hphase
      · rw [hbefore] at hphase
        dsimp only at hphase ⊢
        split at hphase
        · cases hphase
        · rename_i hunchanged
          split at hphase
          · cases hphase
          · rename_i hopen
            obtain ⟨rfl, rfl⟩ := WaitPhase.parked.inj hphase
            rw [if_neg hunchanged, if_neg hopen]
            exact hs.parked w waiter _ _ hold hbefore
      · rw [hbefore] at hphase
        cases hphase

/-! ## Whole runs -/

/-- The transition that makes the task `id` terminal, and records `r`. -/
def Ends (s : TaskRoom) (c : TaskCall) (t : TaskRoom) (id : String) (r : TaskResult) : Prop :=
  (c.act = .complete id r ∨ c.act = .cancel id ∧ r = .error taskCancelled) ∧
  ∃ e e', s.store.inner.get id = some e ∧ t.store.inner.get id = some e' ∧ Finishes e e' r

/-- What a run has recorded so far: a task that has ended is gone, or as the
transition left it, and whoever returned an outcome returned a recorded one. -/
structure Recorded (s : TaskRoom) (tr : List (TaskCall × TaskRoom)) : Prop where
  ended : ∀ x ∈ steps s tr, ∀ id r, Ends x.1 x.2.1 x.2.2 id r → id ∈ (final s tr).minted ∧
    ∀ e, (final s tr).store.inner.get id = some e →
      e.status.isTerminal = true ∧ e.outcome = some r
  stored : ∀ id e, (final s tr).store.inner.get id = some e → e.status.isTerminal = true →
    ∃ x ∈ steps s tr, ∃ r, e.outcome = some r ∧ Ends x.1 x.2.1 x.2.2 id r
  returned : ∀ w waiter r, (final s tr).waiters.get w = some waiter →
    waiter.phase = .returned (.ok r) → ∃ x ∈ steps s tr, Ends x.1 x.2.1 x.2.2 waiter.id r
  once : ∀ x ∈ steps s tr, ∀ y ∈ steps s tr, ∀ id r r', Ends x.1 x.2.1 x.2.2 id r →
    Ends y.1 y.2.1 y.2.2 id r' → r = r'

/-- A task that has ended never runs again, and its outcome stays. -/
theorem ended_step (h : Step rfc3339 s c t) {id : String} {r : TaskResult}
    (hmint : id ∈ s.minted)
    (hended : ∀ e, s.store.inner.get id = some e →
      e.status.isTerminal = true ∧ e.outcome = some r) :
    ∀ e, t.store.inner.get id = some e → e.status.isTerminal = true ∧ e.outcome = some r := by
  intro e' he'
  rcases entry_cases h he' with hsame | ⟨hnew, -⟩ | ⟨e, r', he, hfin, -⟩
  · exact hended e' hsame
  · exact absurd hmint hnew
  · have hlive := hfin.live
    rw [(hended e he).1] at hlive
    cases hlive

theorem ended_of_ends {id : String} {r : TaskResult} (hs : s.Attentive) (h : Step rfc3339 s c t)
    (hends : Ends s c t id r) : id ∈ t.minted ∧
      ∀ e, t.store.inner.get id = some e → e.status.isTerminal = true ∧ e.outcome = some r := by
  obtain ⟨-, e, e', he, he', hfin⟩ := hends
  refine ⟨minted_mono h (hs.minted id e he), ?_⟩
  intro e₁ he₁
  obtain rfl := Option.some.inj (he'.symm.trans he₁)
  exact ⟨hfin.terminal, hfin.outcome⟩

/-- A task that is terminal after a step was so before, or ends in it. -/
theorem stored_step (h : Step rfc3339 s c t) {id : String} {e' : TaskEntry}
    (he' : t.store.inner.get id = some e') (hterm : e'.status.isTerminal = true) :
    s.store.inner.get id = some e' ∨ ∃ r, e'.outcome = some r ∧ Ends s c t id r := by
  rcases entry_cases h he' with hsame | ⟨-, -, hlive, -⟩ | ⟨e, r, he, hfin, -, hact⟩
  · exact Or.inl hsame
  · rw [hlive] at hterm
    cases hterm
  · exact Or.inr ⟨r, hfin.outcome, hact, e, e', he, he', hfin⟩

/-- A waiter that has an outcome had it before, or reads it off its task. -/
theorem returned_step (hs : s.Attentive) (h : Step rfc3339 s c t) {w : Nat} {waiter' : Waiter}
    {r : TaskResult} (hw : t.waiters.get w = some waiter')
    (hphase : waiter'.phase = .returned (.ok r)) :
    (∃ waiter, s.waiters.get w = some waiter ∧ waiter.id = waiter'.id ∧
      waiter.phase = .returned (.ok r)) ∨
    ∃ e, s.store.inner.get waiter'.id = some e ∧ e.status.isTerminal = true ∧
      e.outcome = some r := by
  rcases waiter_cases h hw with ⟨hold, -⟩ | ⟨id, -, rfl⟩ | ⟨waiter, -, hold, rfl, -⟩
  · exact Or.inl ⟨waiter', hold, rfl, hphase⟩
  · cases hphase
  · by_cases hbefore : waiter.phase = .returned (.ok r)
    · exact Or.inl ⟨waiter, hold, rfl, hbefore⟩
    · obtain ⟨e, he, -, hterm, hout⟩ := resume_returned hs.sound hbefore hphase
      exact Or.inr ⟨e, he, hterm, hout⟩

theorem recorded_step {tr : List (TaskCall × TaskRoom)} {s₀ : TaskRoom}
    (hs : (final s₀ tr).Attentive) (h : Step rfc3339 (final s₀ tr) c t)
    (hrec : Recorded s₀ tr) : Recorded s₀ (tr ++ [(c, t)]) := by
  have hsteps : steps s₀ (tr ++ [(c, t)]) = steps s₀ tr ++ [(final s₀ tr, c, t)] := by
    rw [steps_append, steps_cons, steps_nil]
  have hfinal : final s₀ (tr ++ [(c, t)]) = t := by
    rw [final_append]
    rfl
  have hold {x} (hx : x ∈ steps s₀ tr) : x ∈ steps s₀ (tr ++ [(c, t)]) := by
    rw [hsteps]
    exact List.mem_append_left _ hx
  have hlast : (final s₀ tr, c, t) ∈ steps s₀ (tr ++ [(c, t)]) := by
    rw [hsteps]
    exact List.mem_append_right _ (List.mem_singleton_self _)
  -- a task that had ended before does not end in this step
  have hfresh {x : TaskRoom × TaskCall × TaskRoom} (hx : x ∈ steps s₀ tr) {id : String}
      {r r' : TaskResult} (hends : Ends x.1 x.2.1 x.2.2 id r)
      (hends' : Ends (final s₀ tr) c t id r') : False := by
    obtain ⟨-, e, e', he, -, hfin⟩ := hends'
    have hlive := hfin.live
    rw [((hrec.ended x hx id r hends).2 e he).1] at hlive
    cases hlive
  refine ⟨?_, ?_, ?_, ?_⟩
  · intro x hx id r hends
    rw [hfinal]
    rw [hsteps, List.mem_append, List.mem_singleton] at hx
    rcases hx with hx | rfl
    · obtain ⟨hmint, hended⟩ := hrec.ended x hx id r hends
      exact ⟨minted_mono h hmint, ended_step h hmint hended⟩
    · exact ended_of_ends hs h hends
  · intro id e he hterm
    rw [hfinal] at he
    rcases stored_step h he hterm with hsame | ⟨r, hout, hends⟩
    · obtain ⟨x, hx, hends⟩ := hrec.stored id e hsame hterm
      exact ⟨x, hold hx, hends⟩
    · exact ⟨_, hlast, r, hout, hends⟩
  · intro w waiter r hw hphase
    rw [hfinal] at hw
    rcases returned_step hs h hw hphase with ⟨waiter₀, hw₀, hid, hphase₀⟩ | ⟨e, he, hterm, hout⟩
    · obtain ⟨x, hx, hends⟩ := hrec.returned w waiter₀ r hw₀ hphase₀
      rw [hid] at hends
      exact ⟨x, hold hx, hends⟩
    · obtain ⟨x, hx, r', hr', hends⟩ := hrec.stored waiter.id e he hterm
      obtain rfl := Option.some.inj (hr'.symm.trans hout)
      exact ⟨x, hold hx, hends⟩
  · intro x hx y hy id r r' hends hends'
    rw [hsteps, List.mem_append, List.mem_singleton] at hx hy
    rcases hx with hx | rfl
    · rcases hy with hy | rfl
      · exact hrec.once x hx y hy id r r' hends hends'
      · exact (hfresh hx hends hends').elim
    · rcases hy with hy | rfl
      · exact (hfresh hy hends' hends).elim
      · obtain ⟨-, e, e', -, he', hfin⟩ := hends
        obtain ⟨-, e₁, e₁', -, he₁', hfin'⟩ := hends'
        obtain rfl := Option.some.inj (he'.symm.trans he₁')
        exact Option.some.inj (hfin.outcome.symm.trans hfin'.outcome)

theorem recorded_run {s₀ : TaskRoom} (hs : s₀.Attentive) (hempty : s₀.store.inner.entries = [])
    (hwaiters : s₀.waiters.entries = []) (tr : List (TaskCall × TaskRoom))
    (hrun : Run (Step rfc3339) s₀ tr) : Recorded s₀ tr := by
  induction tr using List.reverseRecOn with
  | nil =>
      refine ⟨?_, ?_, ?_, ?_⟩
      · intro x hx
        cases hx
      · intro id e he
        replace he := (Dict.get_eq_some_iff ..).mp he
        rw [final, hempty] at he
        cases he
      · intro w waiter r hw
        replace hw := (Dict.get_eq_some_iff ..).mp hw
        rw [final, hwaiters] at hw
        cases hw
      · intro x hx
        cases hx
  | append_singleton tr y ih =>
      obtain ⟨c, t⟩ := y
      obtain ⟨hbefore, hlast⟩ := run_append.mp hrun
      have hatt := hbefore.invariant hs (fun _ _ _ h => attentive_step h) _
        (final_mem_states s₀ tr)
      exact recorded_step hatt (run_cons.mp hlast).1 (ih hbefore)

/-- What holds of every run of the store with its waiters. -/
structure Wakeful (s₀ : TaskRoom) (tr : List (TaskCall × TaskRoom)) : Prop where
  /-- Who is parked on a task that has ended or gone is notified. -/
  notified : ∀ s ∈ states s₀ tr, ∀ w waiter notify seen, s.waiters.get w = some waiter →
    waiter.phase = .parked notify seen →
    (∀ e, s.store.inner.get waiter.id = some e → e.status.isTerminal = true) →
    s.store.changed notify seen = true ∨ s.store.closed notify = true
  /-- Who returned an outcome returned what the task's last transition recorded. -/
  verbatim : ∀ before after, tr = before ++ after → ∀ w waiter r,
    (final s₀ before).waiters.get w = some waiter → waiter.phase = .returned (.ok r) →
    ∃ x ∈ steps s₀ before, Ends x.1 x.2.1 x.2.2 waiter.id r
  once : ∀ x ∈ steps s₀ tr, ∀ y ∈ steps s₀ tr, ∀ id r r', Ends x.1 x.2.1 x.2.2 id r →
    Ends y.1 y.2.1 y.2.2 id r' → r = r'
  /-- The error for a task without an outcome is never given. -/
  outcome : ∀ s ∈ states s₀ tr, ∀ now session id e,
    (s.store.purgeExpired now).own session id = some e → e.status.isTerminal = true →
    e.outcome.isSome = true

/-- **No wake-up is missed**: in every run of the store, in whatever order its
operations and its waiters' steps come, a waiter whose task has ended or gone
has a notification to see, and returns the outcome that was recorded when the
task ended, once and for all. -/
theorem wakeful (rfc3339 : Nat → String) (capacity : Nat) (tr : List (TaskCall × TaskRoom))
    (hrun : Run (Step rfc3339) (initial capacity) tr) : Wakeful (initial capacity) tr := by
  have hatt : ∀ s ∈ states (initial capacity) tr, s.Attentive :=
    hrun.invariant (attentive_initial capacity) fun _ _ _ h => attentive_step h
  have hrec (tr) (hrun : Run (Step rfc3339) (initial capacity) tr) :
      Recorded (initial capacity) tr :=
    recorded_run (attentive_initial capacity) rfl rfl tr hrun
  refine ⟨?_, ?_, ?_, ?_⟩
  · intro s hs w waiter notify seen hw hphase hended
    exact ((hatt s hs).parked w waiter notify seen hw hphase).woken hended
  · rintro before after rfl
    exact (hrec before (run_append.mp hrun).1).returned
  · exact (hrec tr hrun).once
  · intro s hs now session id e hown hterm
    have he := get_of_purged (own_eq_some.mp hown).1
    exact ((hatt s hs).sound.outcome id e he).mp hterm

/-- One waiter parks before its task completes; another one's task is purged
under it. -/
def waits : List TaskCall :=
  [⟨0, 0, "s", .create none 1 "t" 1⟩, ⟨0, 0, "s", .wait 1 "t"⟩, ⟨0, 0, "s", .resume 1⟩,
    ⟨1, 1, "s", .complete "t" (.ok (.bool true))⟩, ⟨1, 1, "s", .resume 1⟩,
    ⟨1, 1, "s", .create (some 1) 2 "u" 2⟩, ⟨2, 2, "s", .wait 2 "u"⟩, ⟨2, 2, "s", .resume 2⟩,
    ⟨3, 3, "s", .resume 1⟩, ⟨2000000, 4, "r", .get "u"⟩, ⟨2000000, 4, "s", .resume 2⟩]

theorem wakeful_waits :
    let tr := trace (fun s c => (s.act (fun _ => "") c).1) (initial 2) waits
    Wakeful (initial 2) tr ∧
      (final (initial 2) tr).waiters.get 1 =
        some ⟨"s", "t", .returned (.ok (.ok (.bool true)))⟩ ∧
      (final (initial 2) tr).waiters.get 2 = some ⟨"s", "u", .returned (.error .notFound)⟩ := by
  refine ⟨wakeful (fun _ => "") 2 _ ?_, by decide, by decide⟩
  have hstep (s : TaskRoom) (c : TaskCall) (h : decide (s.Admissible c) = true) :
      Step (fun _ => "") s c (s.act (fun _ => "") c).1 := ⟨of_decide_eq_true h, rfl⟩
  exact run_trace_of_checked hstep (by decide)

end TaskRoom

end TurboMcp.Server
