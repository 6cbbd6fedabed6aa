import TurboMcp.Lib.Unwinding
import TurboMcp.Server.TaskWaits

/-!
# Sessions do not see each other's tasks

One table holds the tasks of every session, and any session's call may purge
it.  So what another session does can decide when an expired task of a session
goes, and nothing else: two stores are the same to a session when they hold the
same unexpired tasks of it, with the same watch channels.
-/

namespace TurboMcp.Server

open TurboMcp.Core TurboMcp.Lib

theorem TaskEntry.expired_mono {e : TaskEntry} {now later : Nat} (hle : now ≤ later)
    (h : e.expired now = true) : e.expired later = true := by
  unfold TaskEntry.expired at h ⊢
  rw [decide_eq_true_eq] at h ⊢
  omega

theorem TaskEntry.unexpired_mono {e : TaskEntry} {now later : Nat} (hle : now ≤ later)
    (h : e.expired later = false) : e.expired now = false := by
  rw [Bool.eq_false_iff] at h ⊢
  intro hnow
  exact h (TaskEntry.expired_mono hle hnow)

namespace TaskStore

variable {a b c : TaskStore} {session : String} {τ now : Nat} {id : String} {e : TaskEntry}

theorem get_purged_iff (st : TaskStore) (now : Nat) (id : String) (e : TaskEntry) :
    (st.purgeExpired now).inner.get id = some e ↔
      st.inner.get id = some e ∧ e.expired now = false := by
  rw [get_purgeExpired, Option.filter_eq_some_iff, Bool.not_eq_true']

/-! ## The same to a session -/

/-- The unexpired tasks of the session are the same, and so are their channels. -/
structure Same (session : String) (τ : Nat) (a b : TaskStore) : Prop where
  task : ∀ id e, e.sessionId = session → e.expired τ = false →
    (a.inner.get id = some e ↔ b.inner.get id = some e)
  watch : ∀ id e, e.sessionId = session → e.expired τ = false → a.inner.get id = some e →
    a.watches.get e.notify = b.watches.get e.notify

theorem Same.refl (session : String) (τ : Nat) (a : TaskStore) : Same session τ a a :=
  ⟨fun _ _ _ _ => Iff.rfl, fun _ _ _ _ _ => rfl⟩

theorem Same.symm (h : Same session τ a b) : Same session τ b a where
  task id e hs hexp := (h.task id e hs hexp).symm
  watch id e hs hexp he := (h.watch id e hs hexp ((h.task id e hs hexp).mpr he)).symm

theorem Same.trans (h : Same session τ a b) (h' : Same session τ b c) : Same session τ a c where
  task id e hs hexp := (h.task id e hs hexp).trans (h'.task id e hs hexp)
  watch id e hs hexp he :=
    (h.watch id e hs hexp he).trans (h'.watch id e hs hexp ((h.task id e hs hexp).mp he))

theorem Same.mono {τ' : Nat} (hle : τ ≤ τ') (h : Same session τ a b) : Same session τ' a b where
  task id e hs hexp := h.task id e hs (TaskEntry.unexpired_mono hle hexp)
  watch id e hs hexp := h.watch id e hs (TaskEntry.unexpired_mono hle hexp)

/-- A purge that comes no later takes no unexpired task. -/
theorem same_purge (session : String) (a : TaskStore) (hle : now ≤ τ) :
    Same session τ a (a.purgeExpired now) where
  task id e _ hexp := by
    rw [get_purged_iff]
    exact (and_iff_left (TaskEntry.unexpired_mono hle hexp)).symm
  watch _ _ _ _ _ := rfl

theorem Same.purge (h : Same session now a b) :
    Same session now (a.purgeExpired now) (b.purgeExpired now) :=
  ((same_purge session a (Nat.le_refl now)).symm.trans h).trans
    (same_purge session b (Nat.le_refl now))

/-- After a purge the session looks up the same. -/
theorem Same.own (h : Same session now a b) (id : String) :
    (a.purgeExpired now).own session id = (b.purgeExpired now).own session id := by
  refine Option.ext fun e => ?_
  rw [own_eq_some, own_eq_some, get_purged_iff, get_purged_iff]
  constructor
  · rintro ⟨⟨he, hexp⟩, hs⟩
    exact ⟨⟨(h.task id e hs hexp).mp he, hexp⟩, hs⟩
  · rintro ⟨⟨he, hexp⟩, hs⟩
    exact ⟨⟨(h.task id e hs hexp).mpr he, hexp⟩, hs⟩

theorem own_purged_iff : (a.purgeExpired now).own session id = some e ↔
    (a.inner.get id = some e ∧ e.expired now = false) ∧ e.sessionId = session := by
  rw [own_eq_some, get_purged_iff]

/-! ### Watch channels -/

/-- A channel that no unexpired task of the session has. -/
def Detached (session : String) (τ : Nat) (a : TaskStore) (notify : Nat) : Prop :=
  ∀ id e, e.sessionId = session → e.expired τ = false → a.inner.get id = some e →
    e.notify ≠ notify

theorem same_modify {notify : Nat} (hdetached : Detached session τ a notify) (f : Watch → Watch) :
    Same session τ a { a with watches := a.watches.modify notify f } where
  task _ _ _ _ := Iff.rfl
  watch id e hs hexp he := by
    have hne : notify ≠ e.notify := (hdetached id e hs hexp he).symm
    simp [Dict.get_modify, hne]

theorem Same.modify (h : Same session τ a b) (notify : Nat) (f : Watch → Watch) :
    Same session τ { a with watches := a.watches.modify notify f }
      { b with watches := b.watches.modify notify f } where
  task := h.task
  watch id e hs hexp he := by
    dsimp only
    rw [Dict.get_modify, Dict.get_modify, h.watch id e hs hexp he]

theorem Sound.detached (hsound : a.Sound) (he : a.inner.get id = some e)
    (hother : e.sessionId = session → e.expired τ = true) : Detached session τ a e.notify := by
  intro id' e' hs hexp he' heq
  obtain rfl := hsound.apart id' e' id e he' he heq
  obtain rfl := Option.some.inj (he'.symm.trans he)
  rw [hother hs] at hexp
  cases hexp

/-! ### Tasks that end -/

theorem same_finish (hsound : a.Sound) {e' : TaskEntry} {r : TaskResult}
    (he : a.inner.get id = some e) (hfinishes : Finishes e e' r)
    (hother : e.sessionId = session → e.expired τ = true) :
    Same session τ a ((a.setEntry id e').send e.notify) := by
  have hset : Same session τ a (a.setEntry id e') := by
    refine ⟨?_, fun _ _ _ _ _ => rfl⟩
    intro id₁ e₁ hs hexp
    unfold setEntry
    rw [Dict.get_insert]
    split
    · rename_i hid
      subst hid
      -- neither entry is an unexpired one of the session
      constructor
      · intro he₁
        obtain rfl := Option.some.inj (he.symm.trans he₁)
        rw [hother hs] at hexp
        cases hexp
      · intro he₁
        obtain rfl := Option.some.inj he₁
        rw [hfinishes.expired, hother (hfinishes.session.symm.trans hs)] at hexp
        cases hexp
    · exact Iff.rfl
  refine hset.trans (same_modify ?_ _)
  intro id₁ e₁ hs hexp he₁
  exact hsound.detached he hother id₁ e₁ hs hexp ((hset.task id₁ e₁ hs hexp).mpr he₁)

theorem Same.finish (h : Same session τ a b) {e' : TaskEntry} (notify : Nat)
    (hnotify : a.watches.get e'.notify = b.watches.get e'.notify) :
    Same session τ ((a.setEntry id e').send notify) ((b.setEntry id e').send notify) := by
  have hset : Same session τ (a.setEntry id e') (b.setEntry id e') := by
    refine ⟨?_, ?_⟩
    · intro id₁ e₁ hs hexp
      unfold setEntry
      rw [Dict.get_insert, Dict.get_insert]
      split
      · exact Iff.rfl
      · exact h.task id₁ e₁ hs hexp
    · intro id₁ e₁ hs hexp he₁
      unfold setEntry at he₁ ⊢
      rw [Dict.get_insert] at he₁
      split at he₁
      · obtain rfl := Option.some.inj he₁
        exact hnotify
      · exact h.watch id₁ e₁ hs hexp he₁
  exact hset.modify notify _

/-- `complete` on a task that the session does not have, or no longer. -/
theorem same_complete (hsound : a.Sound) (nowWall : Nat) (r : TaskResult)
    (hother : ∀ e, a.inner.get id = some e → e.sessionId = session → e.expired τ = true) :
    Same session τ a (a.complete nowWall id r) := by
  rcases complete_cases a nowWall id r with hsame | ⟨e, e', he, hfin, hst⟩
  · rw [hsame]
    exact Same.refl session τ a
  · rw [hst]
    exact same_finish hsound he hfin (hother e he)

theorem Same.complete (h : Same session τ a b) (ha : a.Sound) (hb : b.Sound) (nowWall : Nat)
    (r : TaskResult) : Same session τ (a.complete nowWall id r) (b.complete nowWall id r) := by
  by_cases hlive : ∃ e, e.sessionId = session ∧ e.expired τ = false ∧ a.inner.get id = some e
  · obtain ⟨e, hs, hexp, he⟩ := hlive
    have he' := (h.task id e hs hexp).mp he
    rcases hterm : e.status.isTerminal with _ | _
    · rw [complete_of_get he hterm, complete_of_get he' hterm]
      refine h.finish e.notify ?_
      rw [(finishes_ended hterm nowWall r).notify]
      exact h.watch id e hs hexp he
    · rw [complete_of_terminal he hterm, complete_of_terminal he' hterm]
      exact h
  · -- an unexpired task of the session is in neither store
    refine ((same_complete ha nowWall r ?_).symm.trans h).trans (same_complete hb nowWall r ?_)
    · intro e he hs
      rcases hexp : e.expired τ with _ | _
      · exact absurd ⟨e, hs, hexp, he⟩ hlive
      · rfl
    · intro e he hs
      rcases hexp : e.expired τ with _ | _
      · exact absurd ⟨e, hs, hexp, (h.task id e hs hexp).mpr he⟩ hlive
      · rfl

variable {rfc3339 : Nat → String} {nowWall : Nat} {caller : String}

theorem same_cancel (hsound : a.Sound) (hcaller : caller ≠ session) (hle : now ≤ τ) :
    Same session τ a (a.cancel rfc3339 now nowWall caller id).1 := by
  rcases cancel_cases a rfc3339 now nowWall caller id with hsame | ⟨e, e', hown, hfin, hst⟩
  · rw [hsame]
    exact same_purge session a hle
  · rw [hst]
    obtain ⟨he, hs⟩ := own_eq_some.mp hown
    have hother : e.sessionId = session → e.expired τ = true :=
      fun hs' => absurd (hs.symm.trans hs') hcaller
    obtain ⟨hout, hmade, hapart⟩ := hsound.purgeExpired now
    have hfired : Sound { a.purgeExpired now with
        fired := (a.purgeExpired now).fired ++ [e.cancel] } := ⟨hout, hmade, hapart⟩
    have hpurge : Same session τ a { a.purgeExpired now with
        fired := (a.purgeExpired now).fired ++ [e.cancel] } :=
      ⟨(same_purge session a hle).task, (same_purge session a hle).watch⟩
    exact hpurge.trans (same_finish hfired he hfin hother)

theorem Same.cancel (h : Same session now a b) (rfc3339 : Nat → String) (nowWall : Nat)
    (id : String) :
    (a.cancel rfc3339 now nowWall session id).2 = (b.cancel rfc3339 now nowWall session id).2 ∧
    Same session now (a.cancel rfc3339 now nowWall session id).1
      (b.cancel rfc3339 now nowWall session id).1 := by
  have hown := h.own id
  rcases hget : (a.purgeExpired now).own session id with _ | e
  · rw [hget] at hown
    unfold TaskStore.cancel
    dsimp only
    rw [hget, ← hown]
    exact ⟨rfl, h.purge⟩
  · rw [hget] at hown
    rcases hterm : e.status.isTerminal with _ | _
    · rw [cancel_of_own hget hterm, cancel_of_own hown.symm hterm]
      refine ⟨rfl, ?_⟩
      have hp := h.purge
      have hfired : Same session now
          { a.purgeExpired now with fired := (a.purgeExpired now).fired ++ [e.cancel] }
          { b.purgeExpired now with fired := (b.purgeExpired now).fired ++ [e.cancel] } :=
        ⟨hp.task, hp.watch⟩
      refine hfired.finish e.notify ?_
      obtain ⟨⟨he, hexp⟩, hs⟩ := own_purged_iff.mp hget
      exact h.watch id e hs hexp he
    · unfold TaskStore.cancel
      dsimp only
      rw [hget, ← hown]
      dsimp only
      rw [if_pos hterm, if_pos hterm]
      exact ⟨rfl, h.purge⟩

theorem get_fst (st : TaskStore) (rfc3339 : Nat → String) (now : Nat) (session id : String) :
    (st.get rfc3339 now session id).1 = st.purgeExpired now := by
  unfold TaskStore.get
  dsimp only
  split
  · rfl
  · rfl

theorem Same.get (h : Same session now a b) :
    (a.get rfc3339 now session id).2 = (b.get rfc3339 now session id).2 := by
  unfold TaskStore.get
  dsimp only
  rw [h.own id]
  split
  · rfl
  · rfl

/-! ### Tasks that are created -/

theorem same_create {notify cancel : Nat} {ttl : Option Int} (hcaller : caller ≠ session)
    (hle : now ≤ τ) (hid : a.inner.get id = none) (hnotify : Detached session τ a notify) :
    Same session τ a (a.create rfc3339 now nowWall id notify caller ttl cancel).1 := by
  unfold TaskStore.create
  dsimp only
  split
  · exact same_purge session a hle
  · refine (same_purge session a hle).trans ⟨?_, ?_⟩
    · intro id₁ e₁ hs hexp
      unfold setEntry
      rw [Dict.get_insert]
      split
      · rename_i heq
        subst heq
        constructor
        · intro he₁
          rw [get_purged_iff, hid] at he₁
          cases he₁.1
        · intro he₁
          obtain rfl := Option.some.inj he₁
          exact absurd hs hcaller
      · exact Iff.rfl
    · intro id₁ e₁ hs hexp he₁
      have hne := hnotify id₁ e₁ hs hexp (get_of_purged he₁)
      dsimp only
      rw [Dict.get_insert, if_neg hne.symm]

theorem Same.create {notify cancel : Nat} {ttl : Option Int} (h : Same session now a b)
    (ha : (a.create rfc3339 now nowWall id notify session ttl cancel).2 ≠
      .error .capacityExhausted)
    (hb : (b.create rfc3339 now nowWall id notify session ttl cancel).2 ≠
      .error .capacityExhausted) :
    (a.create rfc3339 now nowWall id notify session ttl cancel).2 =
      (b.create rfc3339 now nowWall id notify session ttl cancel).2 ∧
    Same session now (a.create rfc3339 now nowWall id notify session ttl cancel).1
      (b.create rfc3339 now nowWall id notify session ttl cancel).1 := by
  unfold TaskStore.create at ha hb ⊢
  dsimp only at ha hb ⊢
  split at ha
  · exact absurd rfl ha
  · rename_i hroom
    split at hb
    · exact absurd rfl hb
    · rename_i hroom'
      rw [if_neg hroom, if_neg hroom']
      refine ⟨rfl, ?_, ?_⟩
      · intro id₁ e₁ hs hexp
        unfold setEntry
        dsimp only
        rw [Dict.get_insert, Dict.get_insert]
        split
        · exact Iff.rfl
        · exact h.purge.task id₁ e₁ hs hexp
      · intro id₁ e₁ hs hexp he₁
        unfold setEntry at he₁
        dsimp only at he₁ ⊢
        rw [Dict.get_insert] at he₁
        rw [Dict.get_insert, Dict.get_insert]
        split
        · rfl
        · rename_i hne
          split at he₁
          · obtain rfl := Option.some.inj he₁
            exact absurd rfl hne
          · exact h.purge.watch id₁ e₁ hs hexp he₁

/-! ### Waiters -/

theorem same_check (hsound : a.Sound) (hcaller : caller ≠ session) (hle : now ≤ τ) (w : Nat) :
    Same session τ a (a.check now w caller id).1 := by
  unfold TaskStore.check
  dsimp only
  rcases hown : (a.purgeExpired now).own caller id with _ | e
  · exact same_purge session a hle
  · obtain ⟨he, hs⟩ := own_eq_some.mp hown
    dsimp only
    split
    · exact same_purge session a hle
    · refine (same_purge session a hle).trans (same_modify ?_ _)
      refine (hsound.purgeExpired now).detached he ?_
      intro hs'
      exact absurd (hs.symm.trans hs') hcaller

theorem Same.check (h : Same session now a b) (w : Nat) (id : String) :
    (a.check now w session id).2 = (b.check now w session id).2 ∧
    Same session now (a.check now w session id).1 (b.check now w session id).1 := by
  have hown := h.own id
  unfold TaskStore.check
  dsimp only
  rw [← hown]
  rcases hget : (a.purgeExpired now).own session id with _ | e
  · exact ⟨rfl, h.purge⟩
  · obtain ⟨⟨he, hexp⟩, hs⟩ := own_purged_iff.mp hget
    have hwatch : (a.purgeExpired now).watches.get e.notify =
        (b.purgeExpired now).watches.get e.notify := h.watch id e hs hexp he
    dsimp only
    split
    · exact ⟨rfl, h.purge⟩
    · rw [hwatch]
      exact ⟨rfl, h.purge.modify e.notify _⟩

/-! ### Listings -/

theorem mem_listing {order : List String} {p : String × TaskEntry} :
    p ∈ (order.filterMap fun id => (a.own session id).map fun e => (id, e)) ↔
      p.1 ∈ order ∧ a.own session p.1 = some p.2 := by
  rw [List.mem_filterMap]
  constructor
  · rintro ⟨id, hid, hp⟩
    obtain ⟨e, he, rfl⟩ := Option.map_eq_some_iff.mp hp
    exact ⟨hid, he⟩
  · rintro ⟨hid, hown⟩
    refine ⟨p.1, hid, ?_⟩
    rw [hown]
    rfl

theorem nodup_listing {order : List String} (hnodup : order.Nodup) :
    (order.filterMap fun id => (a.own session id).map fun e => (id, e)).Nodup := by
  refine hnodup.filterMap ?_
  intro id id' p hp hp'
  obtain ⟨e, -, rfl⟩ := Option.map_eq_some_iff.mp hp
  obtain ⟨e', -, heq⟩ := Option.map_eq_some_iff.mp hp'
  exact (congrArg Prod.fst heq).symm

/-- Two listings hold the same tasks. -/
theorem Same.listed_perm (h : Same session now a b) {order order' : List String}
    (horder : order.Perm (a.purgeExpired now).inner.keys)
    (horder' : order'.Perm (b.purgeExpired now).inner.keys) :
    ((a.purgeExpired now).listed session order).Perm
      ((b.purgeExpired now).listed session order') := by
  unfold listed
  refine ((List.perm_insertionSort _ _).trans ?_).trans (List.perm_insertionSort _ _).symm
  have hnodup := horder.nodup_iff.mpr (a.purgeExpired now).inner.nodup
  have hnodup' := horder'.nodup_iff.mpr (b.purgeExpired now).inner.nodup
  rw [List.perm_ext_iff_of_nodup (nodup_listing hnodup) (nodup_listing hnodup')]
  -- a task that is looked up is one of the table's keys, in whatever order
  have hkey {st : TaskStore} {id : String} {e : TaskEntry} (hown : st.own session id = some e) :
      id ∈ st.inner.keys := by
    rw [Dict.mem_keys, (own_eq_some.mp hown).1]
    rfl
  intro p
  rw [mem_listing, mem_listing, h.own p.1]
  constructor
  · rintro ⟨-, hown⟩
    exact ⟨horder'.mem_iff.mpr (hkey hown), hown⟩
  · rintro ⟨-, hown⟩
    exact ⟨horder.mem_iff.mpr (hkey ((h.own p.1).trans hown)), hown⟩

theorem listed_pairwise (st : TaskStore) (session : String) (order : List String) :
    (st.listed session order).Pairwise fun p q => p.2.created ≤ q.2.created := by
  let older (p q : String × TaskEntry) : Prop := p.2.created ≤ q.2.created
  have htotal : Std.Total older := ⟨fun _ _ => Nat.le_total _ _⟩
  have htrans : IsTrans _ older := ⟨fun _ _ _ => Nat.le_trans⟩
  exact List.pairwise_insertionSort older _

/-! ### Tokens -/

theorem fired_purged {token : Nat} (h : token ∈ (a.purgeExpired now).fired) : token ∈ a.fired ∨
    ∃ id e, a.inner.get id = some e ∧ e.cancel = token ∧ e.expired now = true := by
  unfold purgeExpired at h
  rw [List.mem_append] at h
  rcases h with h | h
  · exact Or.inl h
  · obtain ⟨⟨id, e⟩, hmem, rfl⟩ := List.mem_map.mp h
    obtain ⟨hentry, hexp⟩ := List.mem_filter.mp hmem
    rw [Bool.and_eq_true] at hexp
    exact Or.inr ⟨id, e, (Dict.get_eq_some_iff ..).mpr hentry, rfl, hexp.1⟩

theorem check_fired (st : TaskStore) (now w : Nat) (session id : String) :
    (st.check now w session id).1.fired = (st.purgeExpired now).fired := by
  unfold TaskStore.check
  dsimp only
  split
  · rfl
  · split
    · rfl
    · rfl

theorem resume_fired (st : TaskStore) (now w : Nat) (waiter : Waiter) :
    (st.resume now w waiter).1.fired = st.fired ∨
      (st.resume now w waiter).1.fired = (st.purgeExpired now).fired := by
  unfold TaskStore.resume
  rcases waiter.phase with _ | ⟨notify, seen⟩ | result
  · exact Or.inr (check_fired ..)
  · dsimp only
    split
    · exact Or.inl rfl
    · split
      · exact Or.inl rfl
      · exact Or.inl rfl
  · exact Or.inl rfl

end TaskStore

namespace TaskRoom

open TaskStore

variable {rfc3339 : Nat → String} {s t s' t' u : TaskRoom} {c c' : TaskCall} {session : String}
  {τ : Nat}

/-! ## Where a waiter stands -/

/-- What a waiter is parked on is its task's channel, and the task is its
session's own. -/
structure Kept (s : TaskRoom) : Prop extends s.Attentive where
  placed : ∀ w waiter notify seen, s.waiters.get w = some waiter →
    waiter.phase = .parked notify seen → waiter.id ∈ s.minted ∧
      ∀ e, s.store.inner.get waiter.id = some e →
        e.notify = notify ∧ e.sessionId = waiter.sessionId

/-- A task of the next state that was minted before was there before. -/
theorem entry_of_minted (h : Step rfc3339 s c t) {id : String} {e' : TaskEntry}
    (hmint : id ∈ s.minted) (he' : t.store.inner.get id = some e') :
    ∃ e, s.store.inner.get id = some e ∧ e'.notify = e.notify ∧ e'.sessionId = e.sessionId ∧
      ∀ now, e'.expired now = e.expired now := by
  rcases entry_cases h he' with hsame | ⟨hnew, -⟩ | ⟨e, r, he, hfin, -⟩
  · exact ⟨e', hsame, rfl, rfl, fun _ => rfl⟩
  · exact absurd hmint hnew
  · exact ⟨e, he, hfin.notify, hfin.session, hfin.expired⟩

theorem check_parked {st : TaskStore} {now w notify seen : Nat} {id : String}
    (h : (st.check now w session id).2 = .parked notify seen) :
    ∃ e, st.inner.get id = some e ∧ e.notify = notify ∧ e.sessionId = session := by
  unfold TaskStore.check at h
  dsimp only at h
  rcases hown : (st.purgeExpired now).own session id with _ | e
  · rw [hown] at h
    cases h
  · rw [hown] at h
    dsimp only at h
    split at h
    · cases h
    · obtain ⟨hnotify, -⟩ := WaitPhase.parked.inj h
      obtain ⟨he, hs⟩ := own_eq_some.mp hown
      exact ⟨e, get_of_purged he, hnotify, hs⟩

theorem kept_initial (capacity : Nat) : (initial capacity).Kept where
  toAttentive := attentive_initial capacity
  placed := by
    intro w waiter notify seen hw
    cases hw

theorem kept_step (h : Step rfc3339 s c t) (hs : s.Kept) : t.Kept where
  toAttentive := attentive_step h hs.toAttentive
  placed := by
    intro w waiter' notify seen hw hphase
    -- what held of the stored task before holds of it now
    have hkeeps (waiter : Waiter) (hmint : waiter.id ∈ s.minted)
        (hall : ∀ e, s.store.inner.get waiter.id = some e →
          e.notify = notify ∧ e.sessionId = waiter.sessionId) :
        waiter.id ∈ t.minted ∧ ∀ e, t.store.inner.get waiter.id = some e →
          e.notify = notify ∧ e.sessionId = waiter.sessionId := by
      refine ⟨minted_mono h hmint, ?_⟩
      intro e' he'
      obtain ⟨e, he, hnotify, hsession, -⟩ := entry_of_minted h hmint he'
      rw [hnotify, hsession]
      exact hall e he
    rcases waiter_cases h hw with ⟨hold, -⟩ | ⟨id, -, rfl⟩ | ⟨waiter, -, hold, rfl, -⟩
    · obtain ⟨hmint, hall⟩ := hs.placed w waiter' notify seen hold hphase
      exact hkeeps waiter' hmint hall
    · cases hphase
    · replace hphase : (s.store.resume c.now w waiter).2 = .parked notify seen := hphase
      rcases hbefore : waiter.phase with _ | ⟨notify', seen'⟩ | result
      · unfold TaskStore.resume at hphase
        rw [hbefore] at hphase
        obtain ⟨e, he, hnotify, hsession⟩ := check_parked hphase
        refine hkeeps waiter (hs.minted _ e he) ?_
        intro e₁ he₁
        obtain rfl := Option.some.inj (he.symm.trans he₁)
        exact ⟨hnotify, hsession⟩
      · obtain ⟨hmint, hall⟩ := hs.placed w waiter notify' seen' hold hbefore
        unfold TaskStore.resume at hphase
        rw [hbefore] at hphase
        dsimp only at hphase
        split at hphase
        · cases hphase
        · split at hphase
          · cases hphase
          · obtain ⟨rfl, rfl⟩ := WaitPhase.parked.inj hphase
            exact hkeeps waiter hmint hall
      · unfold TaskStore.resume at hphase
        rw [hbefore] at hphase
        cases hphase

/-- The channel that a waiter is parked on is no other task's. -/
theorem Kept.detached (hs : s.Kept) {w notify seen : Nat} {waiter : Waiter}
    (hw : s.waiters.get w = some waiter) (hphase : waiter.phase = .parked notify seen)
    (hother : ∀ e, s.store.inner.get waiter.id = some e → e.sessionId = session →
      e.expired τ = true) : Detached session τ s.store notify := by
  intro id e hsession hexp he hnotify
  obtain ⟨watch, -, -, -, htask⟩ := hs.parked w waiter notify seen hw hphase
  obtain ⟨rfl, -⟩ := htask id e he hnotify
  rw [hother e he hsession] at hexp
  cases hexp

/-! ## The same to a session -/

/-- The waiter, if it is the session's own. -/
def under (s : TaskRoom) (session : String) (w : Nat) : Option Waiter :=
  (s.waiters.get w).filter (·.sessionId = session)

/-- A task of the past: it was minted, and the session no longer has it unexpired. -/
def Past (session : String) (τ : Nat) (s : TaskRoom) (id : String) : Prop :=
  id ∈ s.minted ∧
    ∀ e, s.store.inner.get id = some e → e.sessionId = session → e.expired τ = true

/-- If the waiter has returned, it has not found its task. -/
def Fading (p : WaitPhase) : Prop := ∀ r, p = .returned r → r = .error .notFound

/-- The same waiter, or one whose task is past in both. -/
inductive SameWaiter (session : String) (τ : Nat) (s t : TaskRoom) :
    Option Waiter → Option Waiter → Prop
  | absent : SameWaiter session τ s t none none
  | same (waiter : Waiter) : SameWaiter session τ s t (some waiter) (some waiter)
  | past {id : String} {p q : WaitPhase} : Past session τ s id → Past session τ t id →
      Fading p → Fading q → SameWaiter session τ s t (some ⟨session, id, p⟩) (some ⟨session, id, q⟩)

/-- What the session can tell apart, it does not. -/
structure Indistinct (session : String) (τ : Nat) (s t : TaskRoom) : Prop where
  store : Same session τ s.store t.store
  waiters : ∀ w, SameWaiter session τ s t (s.under session w) (t.under session w)

theorem indistinct_refl (session : String) (τ : Nat) (s : TaskRoom) :
    Indistinct session τ s s := by
  refine ⟨Same.refl session τ s.store, ?_⟩
  intro w
  rcases s.under session w with _ | waiter
  · exact SameWaiter.absent
  · exact SameWaiter.same waiter

theorem Past.mono {τ' : Nat} (hle : τ ≤ τ') {id : String} (h : Past session τ s id) :
    Past session τ' s id :=
  ⟨h.1, fun e he hs => TaskEntry.expired_mono hle (h.2 e he hs)⟩

theorem SameWaiter.symm {o o' : Option Waiter} (h : SameWaiter session τ s t o o') :
    SameWaiter session τ t s o' o := by
  rcases h with _ | waiter | ⟨hs, ht, hp, hq⟩
  · exact SameWaiter.absent
  · exact SameWaiter.same waiter
  · exact SameWaiter.past ht hs hq hp

theorem SameWaiter.mono {τ' : Nat} (hle : τ ≤ τ') {o o' : Option Waiter}
    (h : SameWaiter session τ s t o o') : SameWaiter session τ' s t o o' := by
  rcases h with _ | waiter | ⟨hs, ht, hp, hq⟩
  · exact SameWaiter.absent
  · exact SameWaiter.same waiter
  · exact SameWaiter.past (hs.mono hle) (ht.mono hle) hp hq

theorem Indistinct.symm (h : Indistinct session τ s t) : Indistinct session τ t s :=
  ⟨h.store.symm, fun w => (h.waiters w).symm⟩

theorem Indistinct.mono {τ' : Nat} (hle : τ ≤ τ') (h : Indistinct session τ s t) :
    Indistinct session τ' s t :=
  ⟨h.store.mono hle, fun w => (h.waiters w).mono hle⟩

/-- What is past stays past. -/
theorem Past.step (h : Step rfc3339 s c t) {id : String} (hpast : Past session τ s id) :
    Past session τ t id := by
  refine ⟨minted_mono h hpast.1, ?_⟩
  intro e' he' hsession
  obtain ⟨e, he, -, hsame, hexp⟩ := entry_of_minted h hpast.1 he'
  rw [hexp]
  exact hpast.2 e he (hsame.symm.trans hsession)

theorem SameWaiter.step_left (h : Step rfc3339 s c t) {o o' : Option Waiter}
    (hsame : SameWaiter session τ s u o o') : SameWaiter session τ t u o o' := by
  rcases hsame with _ | waiter | ⟨hs, ht, hp, hq⟩
  · exact SameWaiter.absent
  · exact SameWaiter.same waiter
  · exact SameWaiter.past (hs.step h) ht hp hq

theorem SameWaiter.step_right (h : Step rfc3339 s c t) {o o' : Option Waiter}
    (hsame : SameWaiter session τ u s o o') : SameWaiter session τ u t o o' :=
  (hsame.symm.step_left h).symm

/-! ## Steps of another session -/

theorem under_eq_some {w : Nat} {waiter : Waiter} :
    s.under session w = some waiter ↔
      s.waiters.get w = some waiter ∧ waiter.sessionId = session := by
  unfold under
  rw [Option.filter_eq_some_iff, decide_eq_true_eq]

theorem under_step (h : Step rfc3339 s c t) (hc : c.session ≠ session) (w : Nat) :
    t.under session w = s.under session w := by
  refine Option.ext fun waiter => ?_
  rw [under_eq_some, under_eq_some]
  obtain ⟨hadm, rfl⟩ := h
  obtain ⟨now, nowWall, caller, act⟩ := c
  refine and_congr_left fun hsession => ?_
  cases act with
  | wait w' id =>
      show (s.waiters.insert w' ⟨caller, id, .ready⟩).get w = some waiter ↔ _
      rw [Dict.get_insert]
      split
      · rename_i heq
        subst heq
        rw [show s.waiters.get w' = none from hadm]
        refine iff_of_false ?_ (fun heq => by cases heq)
        intro heq
        obtain rfl := Option.some.inj heq
        exact hc hsession
      · exact Iff.rfl
  | resume w' =>
      unfold TaskRoom.act
      dsimp only
      rcases hw' : s.waiters.get w' with _ | waiter'
      · exact Iff.rfl
      · have hcaller : waiter'.sessionId = caller := hadm waiter' hw'
        dsimp only
        rw [Dict.get_insert]
        split
        · rename_i heq
          subst heq
          rw [hw']
          refine iff_of_false ?_ ?_
          · intro heq
            obtain rfl := Option.some.inj heq
            exact hc (hcaller.symm.trans hsession)
          · intro heq
            obtain rfl := Option.some.inj heq
            exact hc (hcaller.symm.trans hsession)
        · exact Iff.rfl
  | abandon w' =>
      show (s.waiters.remove w').get w = some waiter ↔ _
      rw [Dict.get_remove]
      split
      · rename_i heq
        subst heq
        refine iff_of_false (fun heq => by cases heq) ?_
        intro hw
        exact hc ((hadm waiter hw).symm.trans hsession)
      · exact Iff.rfl
  | _ => exact Iff.rfl

theorem same_unsubscribe (hs : s.Kept) {w notify seen : Nat} {waiter : Waiter}
    (hw : s.waiters.get w = some waiter) (hphase : waiter.phase = .parked notify seen)
    (hother : ∀ e, s.store.inner.get waiter.id = some e → e.sessionId = session →
      e.expired τ = true) : Same session τ s.store (s.store.unsubscribe notify w) :=
  same_modify (hs.detached hw hphase hother) _

/-- **Respect**: a step of another session changes nothing for this one. -/
theorem same_step (h : Step rfc3339 s c t) (hs : s.Kept) (hc : c.session ≠ session)
    (hle : c.now ≤ τ) : Same session τ s.store t.store := by
  obtain ⟨hadm, rfl⟩ := h
  obtain ⟨now, nowWall, caller, act⟩ := c
  have hparked {w notify seen : Nat} {waiter : Waiter} (hw : s.waiters.get w = some waiter)
      (hphase : waiter.phase = .parked notify seen) (hcaller : waiter.sessionId = caller) :
      Same session τ s.store (s.store.unsubscribe notify w) := by
    refine same_unsubscribe hs hw hphase ?_
    intro e he hsession
    rw [((hs.placed w waiter notify seen hw hphase).2 e he).2, hcaller] at hsession
    exact absurd hsession hc
  cases act with
  | create ttl cancel id notify =>
      refine same_create hc hle ?_ ?_
      · rcases he : s.store.inner.get id with _ | e
        · rfl
        · exact absurd (hs.minted id e he) hadm.1
      · rintro id' e - - he rfl
        have hmade := hs.sound.made id' e he
        rw [hadm.2] at hmade
        cases hmade
  | complete id outcome =>
      refine same_complete hs.sound nowWall outcome ?_
      intro e he hsession
      exact absurd ((hadm e he).symm.trans hsession) hc
  | cancel id => exact same_cancel hs.sound hc hle
  | get id =>
      show Same session τ s.store (s.store.get rfc3339 now caller id).1
      rw [get_fst]
      exact same_purge session s.store hle
  | list cursor pageSize order =>
      show Same session τ s.store (s.store.list rfc3339 now order caller cursor pageSize).1
      unfold TaskStore.list
      split
      · exact Same.refl session τ s.store
      · exact same_purge session s.store hle
  | wait w id => exact Same.refl session τ s.store
  | resume w =>
      unfold TaskRoom.act
      dsimp only
      rcases hw : s.waiters.get w with _ | waiter
      · exact Same.refl session τ s.store
      · have hcaller : waiter.sessionId = caller := hadm waiter hw
        show Same session τ s.store (s.store.resume now w waiter).1
        unfold TaskStore.resume
        rcases hphase : waiter.phase with _ | ⟨notify, seen⟩ | result
        · rw [hcaller]
          exact same_check hs.sound hc hle w
        · dsimp only
          split
          · exact hparked hw hphase hcaller
          · split
            · exact hparked hw hphase hcaller
            · exact Same.refl session τ s.store
        · exact Same.refl session τ s.store
  | abandon w =>
      show Same session τ s.store (s.unsubscribed w)
      unfold unsubscribed
      split
      · rename_i caller' id notify seen hw
        exact hparked hw rfl (hadm _ hw)
      · exact Same.refl session τ s.store

theorem indistinct_high (h : Step rfc3339 s c t) (hs : s.Kept) (hc : c.session ≠ session)
    (hle : c.now ≤ τ) (hR : Indistinct session τ s u) : Indistinct session τ t u := by
  refine ⟨(same_step h hs hc hle).symm.trans hR.store, ?_⟩
  intro w
  rw [under_step h hc]
  exact (hR.waiters w).step_left h

/-! ## Steps of the session -/

/-- A waiter whose task is past comes to nothing, and changes nothing. -/
theorem resume_past (hs : s.Kept) {now w : Nat} {waiter : Waiter}
    (hw : s.waiters.get w = some waiter) (hsession : waiter.sessionId = session)
    (hpast : Past session now s waiter.id) (hfading : Fading waiter.phase) :
    Fading (s.store.resume now w waiter).2 ∧
      Same session now s.store (s.store.resume now w waiter).1 := by
  unfold TaskStore.resume
  rcases hphase : waiter.phase with _ | ⟨notify, seen⟩ | result
  · dsimp only
    have hown : (s.store.purgeExpired now).own waiter.sessionId waiter.id = none := by
      rw [Option.eq_none_iff_forall_ne_some]
      intro e he
      obtain ⟨⟨he, hexp⟩, hs'⟩ := own_purged_iff.mp he
      rw [hpast.2 e he (hs'.trans hsession)] at hexp
      cases hexp
    unfold TaskStore.check
    dsimp only
    rw [hown]
    refine ⟨?_, same_purge session s.store (Nat.le_refl now)⟩
    intro r hr
    exact (WaitPhase.returned.inj hr).symm
  · dsimp only
    split
    · exact ⟨nofun, same_unsubscribe hs hw hphase hpast.2⟩
    · split
      · refine ⟨?_, same_unsubscribe hs hw hphase hpast.2⟩
        intro r hr
        exact (WaitPhase.returned.inj hr).symm
      · exact ⟨nofun, Same.refl session now s.store⟩
  · rw [hphase] at hfading
    exact ⟨hfading, Same.refl session now s.store⟩

/-- A waiter that stands where it stands in the other run gets to where it gets
there, unless its task is past. -/
theorem resume_same (hs : s.Kept) (ht : t.Kept) {now w : Nat} {waiter : Waiter}
    (hw : s.waiters.get w = some waiter) (hw' : t.waiters.get w = some waiter)
    (hsession : waiter.sessionId = session) (h : Same session now s.store t.store) :
    ((s.store.resume now w waiter).2 = (t.store.resume now w waiter).2 ∨
      Past session now s waiter.id ∧ Past session now t waiter.id ∧
        Fading (s.store.resume now w waiter).2 ∧ Fading (t.store.resume now w waiter).2) ∧
    Same session now (s.store.resume now w waiter).1 (t.store.resume now w waiter).1 := by
  rcases hphase : waiter.phase with _ | ⟨notify, seen⟩ | result
  · unfold TaskStore.resume
    rw [hphase, hsession]
    obtain ⟨hsame, hstore⟩ := h.check w waiter.id
    exact ⟨Or.inl hsame, hstore⟩
  · obtain ⟨hmint, hplaced⟩ := hs.placed w waiter notify seen hw hphase
    obtain ⟨hmint', hplaced'⟩ := ht.placed w waiter notify seen hw' hphase
    by_cases hlive : ∃ e, e.sessionId = session ∧ e.expired now = false ∧
        s.store.inner.get waiter.id = some e
    · -- the task runs on: both see the same channel
      obtain ⟨e, hs', hexp, he⟩ := hlive
      have he' := (h.task _ e hs' hexp).mp he
      obtain ⟨rfl, -⟩ := hplaced e he
      have hchanged : s.store.changed e.notify seen = t.store.changed e.notify seen := by
        unfold changed
        rw [h.watch _ e hs' hexp he]
      have hopen {st : TaskStore} (hget : st.inner.get waiter.id = some e) :
          st.closed e.notify = false := by
        unfold closed
        rw [List.all_eq_false]
        exact ⟨(waiter.id, e), (Dict.get_eq_some_iff ..).mp hget, by simp⟩
      unfold TaskStore.resume
      rw [hphase]
      dsimp only
      rw [hchanged, hopen he, hopen he']
      split
      · exact ⟨Or.inl rfl, h.modify e.notify _⟩
      · exact ⟨Or.inl rfl, h⟩
    · have hgone {e : TaskEntry} (hs' : e.sessionId = session)
          (he : s.store.inner.get waiter.id = some e) : e.expired now = true := by
        rcases hexp : e.expired now with _ | _
        · exact absurd ⟨e, hs', hexp, he⟩ hlive
        · rfl
      have hpast : Past session now s waiter.id := ⟨hmint, fun e he hs' => hgone hs' he⟩
      have hpast' : Past session now t waiter.id := by
        refine ⟨hmint', ?_⟩
        intro e he hs'
        rcases hexp : e.expired now with _ | _
        · rw [hgone hs' ((h.task _ e hs' hexp).mpr he)] at hexp
          cases hexp
        · rfl
      have hfading : Fading waiter.phase := by
        rw [hphase]
        exact nofun
      obtain ⟨hp, hstore⟩ := resume_past hs hw hsession hpast hfading
      obtain ⟨hq, hstore'⟩ := resume_past ht hw' hsession hpast' hfading
      exact ⟨Or.inr ⟨hpast, hpast', hp, hq⟩, (hstore.symm.trans h).trans hstore'⟩
  · unfold TaskStore.resume
    rw [hphase]
    exact ⟨Or.inl rfl, h⟩

theorem under_insert {w : Nat} (waiter : Waiter) (store : TaskStore)
    (hsession : waiter.sessionId = session) (w₁ : Nat) :
    under { s with store, waiters := s.waiters.insert w waiter } session w₁ =
      if w = w₁ then some waiter else s.under session w₁ := by
  unfold under
  dsimp only
  rw [Dict.get_insert]
  split
  · exact Option.filter_eq_some_iff.mpr ⟨rfl, decide_eq_true hsession⟩
  · rfl

theorem under_of_own {w : Nat} (h : ∀ waiter, s.waiters.get w = some waiter →
    waiter.sessionId = session) : s.under session w = s.waiters.get w := by
  refine Option.ext fun waiter => ?_
  rw [under_eq_some]
  exact and_iff_left_of_imp (h waiter)

variable {now nowWall : Nat}

theorem act_resume {w : Nat} {waiter : Waiter} (hw : s.waiters.get w = some waiter) :
    (s.act rfc3339 ⟨now, nowWall, session, .resume w⟩).1 =
      { s with
        store := (s.store.resume now w waiter).1
        waiters := s.waiters.insert w { waiter with phase := (s.store.resume now w waiter).2 } } := by
  unfold TaskRoom.act
  dsimp only
  rw [hw]

theorem act_resume_none {w : Nat} (hw : s.waiters.get w = none) :
    (s.act rfc3339 ⟨now, nowWall, session, .resume w⟩).1 = s := by
  unfold TaskRoom.act
  dsimp only
  rw [hw]

/-- A step that brings one waiter of the session to where it stands next. -/
theorem indistinct_insert {w : Nat} {waiter waiter' : Waiter} {store store' : TaskStore}
    (h : Step rfc3339 s c t) (h' : Step rfc3339 s' c' t')
    (ht : { s with store, waiters := s.waiters.insert w waiter } = t)
    (ht' : { s' with store := store', waiters := s'.waiters.insert w waiter' } = t')
    (hsession : waiter.sessionId = session) (hsession' : waiter'.sessionId = session)
    (hstore : Same session τ store store')
    (hw : SameWaiter session τ t t' (some waiter) (some waiter'))
    (hR : Indistinct session τ s s') : Indistinct session τ t t' := by
  refine ⟨?_, ?_⟩
  · rw [← ht, ← ht']
    exact hstore
  · intro w₁
    have hold := ((hR.waiters w₁).step_left h).step_right h'
    have hunder := under_insert (s := s) (w := w) waiter store hsession w₁
    have hunder' := under_insert (s := s') (w := w) waiter' store' hsession' w₁
    rw [ht] at hunder
    rw [ht'] at hunder'
    rw [hunder, hunder']
    split
    · exact hw
    · exact hold

/-- The waiter's step in both runs. -/
theorem indistinct_resume (hs : s.Kept) (hs' : s'.Kept) {w : Nat}
    (h : Step rfc3339 s ⟨now, nowWall, session, .resume w⟩ t)
    (h' : Step rfc3339 s' ⟨now, nowWall, session, .resume w⟩ t')
    (hR : Indistinct session now s s') : Indistinct session now t t' := by
  have hw := hR.waiters w
  rw [under_of_own h.1, under_of_own h'.1] at hw
  have ht := h.2
  have ht' := h'.2
  generalize ho : s.waiters.get w = o at hw
  generalize ho' : s'.waiters.get w = o' at hw
  rcases hw with _ | waiter | ⟨hpast, hpast', hp, hq⟩
  · rw [act_resume_none ho] at ht
    rw [act_resume_none ho'] at ht'
    rw [← ht, ← ht']
    exact hR
  · rw [act_resume ho] at ht
    rw [act_resume ho'] at ht'
    have hsession : waiter.sessionId = session := h.1 waiter ho
    obtain ⟨hphases, hstore⟩ := resume_same hs hs' ho ho' hsession hR.store
    refine indistinct_insert h h' ht ht' hsession hsession hstore ?_ hR
    rcases hphases with heq | ⟨hpast, hpast', hp, hq⟩
    · rw [heq]
      exact SameWaiter.same _
    · obtain ⟨_, id, phase⟩ := waiter
      cases hsession
      exact SameWaiter.past (hpast.step h) (hpast'.step h') hp hq
  · rw [act_resume ho] at ht
    rw [act_resume ho'] at ht'
    obtain ⟨hp', hstore⟩ := resume_past hs ho rfl hpast hp
    obtain ⟨hq', hstore'⟩ := resume_past hs' ho' rfl hpast' hq
    refine indistinct_insert h h' ht ht' rfl rfl
      ((hstore.symm.trans hR.store).trans hstore') ?_ hR
    exact SameWaiter.past (hpast.step h) (hpast'.step h') hp' hq'

theorem under_remove {w : Nat} (session : String) (store : TaskStore) (w₁ : Nat) :
    under { s with store, waiters := s.waiters.remove w } session w₁ =
      if w = w₁ then none else s.under session w₁ := by
  unfold under
  dsimp only
  rw [Dict.get_remove]
  split
  · rfl
  · rfl

theorem same_unsubscribed (hs : s.Kept) {w : Nat} {waiter : Waiter}
    (hw : s.waiters.get w = some waiter) (hpast : Past session τ s waiter.id) :
    Same session τ s.store (s.unsubscribed w) := by
  unfold unsubscribed
  split
  · rename_i hw'
    obtain rfl := Option.some.inj (hw.symm.trans hw')
    exact same_unsubscribe hs hw rfl hpast.2
  · exact Same.refl session τ s.store

theorem same_abandon (hs : s.Kept) (hs' : s'.Kept) {w : Nat} (hstore : Same session τ s.store s'.store)
    (hw : SameWaiter session τ s s' (s.waiters.get w) (s'.waiters.get w)) :
    Same session τ (s.unsubscribed w) (s'.unsubscribed w) := by
  generalize ho : s.waiters.get w = o at hw
  generalize ho' : s'.waiters.get w = o' at hw
  rcases hw with _ | waiter | ⟨hpast, hpast', -, -⟩
  · unfold unsubscribed
    rw [ho, ho']
    exact hstore
  · unfold unsubscribed
    rw [ho, ho']
    obtain ⟨_, id, _ | ⟨notify, seen⟩ | result⟩ := waiter
    · exact hstore
    · exact hstore.modify notify _
    · exact hstore
  · exact ((same_unsubscribed hs ho hpast).symm.trans hstore).trans
      (same_unsubscribed hs' ho' hpast')

/-- A step that leaves the waiters as they are. -/
theorem indistinct_of_waiters (h : Step rfc3339 s c t) (h' : Step rfc3339 s' c' t')
    (hwaiters : t.waiters = s.waiters) (hwaiters' : t'.waiters = s'.waiters)
    (hstore : Same session τ t.store t'.store) (hR : Indistinct session τ s s') :
    Indistinct session τ t t' := by
  refine ⟨hstore, ?_⟩
  intro w
  have hw := ((hR.waiters w).step_left h).step_right h'
  unfold under at hw ⊢
  rw [hwaiters, hwaiters']
  exact hw

/-! ## What the session is shown -/

/-- The same reply, but that tasks created at one instant may be listed in a
different order. -/
inductive SameReply (rfc3339 : Nat → String) : TaskReply → TaskReply → Prop
  | same (reply : TaskReply) : SameReply rfc3339 reply reply
  | page {all all' : List (String × TaskEntry)} (offset pageSize : Nat) : all.Perm all' →
      all.Pairwise (fun p q => p.2.created ≤ q.2.created) →
      all'.Pairwise (fun p q => p.2.created ≤ q.2.created) →
      SameReply rfc3339 (.page (.ok (TaskStore.page rfc3339 all offset pageSize)))
        (.page (.ok (TaskStore.page rfc3339 all' offset pageSize)))

/-- No two tasks that the session can look up were created at one instant. -/
def Spaced (session : String) (now : Nat) (s : TaskRoom) : Prop :=
  ∀ id e id' e', (s.store.purgeExpired now).own session id = some e →
    (s.store.purgeExpired now).own session id' = some e' → e.created = e'.created → id = id'

/-- Two steps of the session that show it the same. -/
structure Alike (rfc3339 : Nat → String) (session : String)
    (x y : TaskRoom × TaskCall × TaskRoom) : Prop where
  reply : SameReply rfc3339 (x.1.act rfc3339 x.2.1).2 (y.1.act rfc3339 y.2.1).2
  spaced : Spaced session x.2.1.now x.1 →
    (x.1.act rfc3339 x.2.1).2 = (y.1.act rfc3339 y.2.1).2
  waiters : ∀ w, SameWaiter session x.2.1.now x.2.2 y.2.2 (x.2.2.under session w)
    (y.2.2.under session w)

theorem listed_eq (hstore : Same session now s.store s'.store) (hspaced : Spaced session now s)
    {order order' : List String}
    (horder : order.Perm (s.store.purgeExpired now).inner.keys)
    (horder' : order'.Perm (s'.store.purgeExpired now).inner.keys) :
    (s.store.purgeExpired now).listed session order =
      (s'.store.purgeExpired now).listed session order' := by
  have hperm := hstore.listed_perm horder horder'
  have hown {p : String × TaskEntry}
      (hp : p ∈ (s.store.purgeExpired now).listed session order) :
      (s.store.purgeExpired now).own session p.1 = some p.2 := by
    unfold listed at hp
    rw [List.mem_insertionSort] at hp
    exact (mem_listing.mp hp).2
  refine hperm.eq_of_pairwise ?_ (listed_pairwise _ session order) (listed_pairwise _ session order')
  intro p q hp hq hpq hqp
  have hownp := hown hp
  have hownq := hown (hperm.mem_iff.mpr hq)
  have hid := hspaced p.1 p.2 q.1 q.2 hownp hownq (Nat.le_antisymm hpq hqp)
  rw [hid] at hownp
  exact Prod.ext hid (Option.some.inj (hownp.symm.trans hownq))

/-! ## Two runs -/

/-- The call, but for the order in which it finds the table. -/
def unordered (c : TaskCall) : TaskCall :=
  match c.act with
  | .list cursor pageSize _ => { c with act := .list cursor pageSize [] }
  | _ => c

theorem now_unordered (c : TaskCall) : (unordered c).now = c.now := by
  unfold unordered
  split
  · rfl
  · rfl

theorem eq_of_unordered (h : unordered c = unordered c') : c = c' ∨
    ∃ now nowWall session cursor pageSize order order',
      c = ⟨now, nowWall, session, .list cursor pageSize order⟩ ∧
      c' = ⟨now, nowWall, session, .list cursor pageSize order'⟩ := by
  obtain ⟨now, nowWall, session, act⟩ := c
  obtain ⟨now', nowWall', session', act'⟩ := c'
  rcases act with _ | _ | _ | _ | ⟨cursor, pageSize, order⟩ | _ | _ | _
  case list =>
    rcases act' with _ | _ | _ | _ | ⟨cursor', pageSize', order'⟩ | _ | _ | _
    case list =>
      simp only [unordered, TaskCall.mk.injEq, TaskAct.list.injEq] at h
      obtain ⟨rfl, rfl, rfl, rfl, rfl, -⟩ := h
      exact Or.inr ⟨now, nowWall, session, cursor, pageSize, order, order', rfl, rfl⟩
    all_goals simp [unordered] at h
  all_goals
    rcases act' with _ | _ | _ | _ | ⟨cursor', pageSize', order'⟩ | _ | _ | _
    all_goals first
      | exact Or.inl h
      | simp [unordered] at h

/-- A step in which no task is refused for want of room. -/
def Proceeds (rfc3339 : Nat → String) (s : TaskRoom) (c : TaskCall) (t : TaskRoom) : Prop :=
  Step rfc3339 s c t ∧ (s.act rfc3339 c).2 ≠ .snapshot (.error .capacityExhausted)

/-- A listing in both runs. -/
theorem alike_list {cursor : Option String} {pageSize : Nat}
    {order order' : List String}
    (h : Step rfc3339 s ⟨now, nowWall, session, .list cursor pageSize order⟩ t)
    (h' : Step rfc3339 s' ⟨now, nowWall, session, .list cursor pageSize order'⟩ t')
    (hR : Indistinct session now s s') :
    Indistinct session now t t' ∧
      Alike rfc3339 session (s, ⟨now, nowWall, session, .list cursor pageSize order⟩, t)
        (s', ⟨now, nowWall, session, .list cursor pageSize order'⟩, t') := by
  have hperm := hR.store.listed_perm h.1 h'.1
  have heq : Spaced session now s → _ := fun hspaced => listed_eq hR.store hspaced h.1 h'.1
  have hreply : SameReply rfc3339
      (.page (s.store.list rfc3339 now order session cursor pageSize).2)
      (.page (s'.store.list rfc3339 now order' session cursor pageSize).2) := by
    unfold TaskStore.list
    split
    · exact SameReply.same _
    · exact SameReply.page _ _ hperm (listed_pairwise ..) (listed_pairwise ..)
  have hspaced : Spaced session now s →
      (s.store.list rfc3339 now order session cursor pageSize).2 =
        (s'.store.list rfc3339 now order' session cursor pageSize).2 := by
    intro hspaced
    unfold TaskStore.list
    split
    · rfl
    · dsimp only
      rw [heq hspaced]
  have hstore : Same session now (s.store.list rfc3339 now order session cursor pageSize).1
      (s'.store.list rfc3339 now order' session cursor pageSize).1 := by
    unfold TaskStore.list
    split
    · exact hR.store
    · exact hR.store.purge
  have hnext : Indistinct session now t t' := by
    refine indistinct_of_waiters h h' ?_ ?_ ?_ hR
    · rw [← h.2]
      rfl
    · rw [← h'.2]
      rfl
    · rw [← h.2, ← h'.2]
      exact hstore
  exact ⟨hnext, hreply, fun hsp => congrArg TaskReply.page (hspaced hsp), hnext.waiters⟩

/-- The same call in both runs, of whatever kind but a listing. -/
theorem alike_act (hs : s.Kept) (hs' : s'.Kept) {act : TaskAct}
    (hlist : ∀ cursor pageSize order, act ≠ .list cursor pageSize order)
    (h : Proceeds rfc3339 s ⟨now, nowWall, session, act⟩ t)
    (h' : Proceeds rfc3339 s' ⟨now, nowWall, session, act⟩ t')
    (hR : Indistinct session now s s') :
    Indistinct session now t t' ∧
      (s.act rfc3339 ⟨now, nowWall, session, act⟩).2 =
        (s'.act rfc3339 ⟨now, nowWall, session, act⟩).2 := by
  obtain ⟨hstep, hroom⟩ := h
  obtain ⟨hstep', hroom'⟩ := h'
  have hplain (hwaiters : (s.act rfc3339 ⟨now, nowWall, session, act⟩).1.waiters = s.waiters)
      (hwaiters' : (s'.act rfc3339 ⟨now, nowWall, session, act⟩).1.waiters = s'.waiters)
      (hstore : Same session now (s.act rfc3339 ⟨now, nowWall, session, act⟩).1.store
        (s'.act rfc3339 ⟨now, nowWall, session, act⟩).1.store) : Indistinct session now t t' := by
    refine indistinct_of_waiters hstep hstep' ?_ ?_ ?_ hR
    · rw [← hstep.2]
      exact hwaiters
    · rw [← hstep'.2]
      exact hwaiters'
    · rw [← hstep.2, ← hstep'.2]
      exact hstore
  cases act with
  | create ttl cancel id notify =>
      have hok {r} (hne : TaskReply.snapshot r ≠ .snapshot
          (.error TaskError.capacityExhausted)) : r ≠ .error .capacityExhausted := by
        rintro rfl
        exact hne rfl
      have hcreated : (s.store.create rfc3339 now nowWall id notify session ttl cancel).2 ≠
          .error .capacityExhausted := hok hroom
      have hcreated' : (s'.store.create rfc3339 now nowWall id notify session ttl cancel).2 ≠
          .error .capacityExhausted := hok hroom'
      obtain ⟨hreply, hstore⟩ := hR.store.create hcreated hcreated'
      exact ⟨hplain rfl rfl hstore, congrArg TaskReply.snapshot hreply⟩
  | complete id outcome =>
      exact ⟨hplain rfl rfl (hR.store.complete hs.sound hs'.sound nowWall outcome), rfl⟩
  | cancel id =>
      obtain ⟨hreply, hstore⟩ := hR.store.cancel rfc3339 nowWall id
      exact ⟨hplain rfl rfl hstore, congrArg TaskReply.snapshot hreply⟩
  | get id =>
      refine ⟨hplain rfl rfl ?_, congrArg TaskReply.snapshot hR.store.get⟩
      show Same session now (s.store.get rfc3339 now session id).1
        (s'.store.get rfc3339 now session id).1
      rw [get_fst, get_fst]
      exact hR.store.purge
  | list cursor pageSize order => exact absurd rfl (hlist cursor pageSize order)
  | wait w id =>
      exact ⟨indistinct_insert hstep hstep' hstep.2 hstep'.2 rfl rfl hR.store
        (SameWaiter.same ⟨session, id, .ready⟩) hR, rfl⟩
  | resume w =>
      refine ⟨indistinct_resume hs hs' hstep hstep' hR, ?_⟩
      have hsilent (s : TaskRoom) :
          (s.act rfc3339 ⟨now, nowWall, session, .resume w⟩).2 = .silent := by
        unfold TaskRoom.act
        dsimp only
        split
        · rfl
        · rfl
      rw [hsilent s, hsilent s']
  | abandon w =>
      refine ⟨⟨?_, ?_⟩, rfl⟩
      · rw [← hstep.2, ← hstep'.2]
        refine same_abandon hs hs' hR.store ?_
        rw [← under_of_own hstep.1, ← under_of_own hstep'.1]
        exact hR.waiters w
      · intro w₁
        have hw := ((hR.waiters w₁).step_left hstep).step_right hstep'
        have hunder := under_remove (s := s) (w := w) session (s.unsubscribed w) w₁
        have hunder' := under_remove (s := s') (w := w) session (s'.unsubscribed w) w₁
        have ht : { s with store := s.unsubscribed w, waiters := s.waiters.remove w } = t := hstep.2
        have ht' : { s' with store := s'.unsubscribed w, waiters := s'.waiters.remove w } = t' :=
          hstep'.2
        rw [ht] at hunder
        rw [ht'] at hunder'
        rw [hunder, hunder']
        split
        · exact SameWaiter.absent
        · exact hw

/-- **Unwinding**: what another session does is not seen, and the same calls of
the session show it the same. -/
theorem unwinding (rfc3339 : Nat → String) (session : String) :
    Unwinding (Proceeds rfc3339) (fun c => c.session = session) unordered TaskCall.now Kept
      (Indistinct session) (Alike rfc3339 session) where
  inv h hs := kept_step h.1 hs
  clock_view {c c'} h := by
    rw [← now_unordered c, h, now_unordered c']
  mono hle h := h.mono hle
  symm h := h.symm
  high h hs hc hle hR := indistinct_high h.1 hs (of_decide_eq_false hc) hle hR
  low {s c t s' c' t'} h h' hs hs' hc hc' hview hR := by
    rcases eq_of_unordered hview with rfl | ⟨now, nowWall, session', cursor, pageSize, order, order',
      rfl, rfl⟩
    · obtain ⟨now, nowWall, session', act⟩ := c
      obtain rfl : session' = session := of_decide_eq_true hc
      by_cases hlist : ∃ cursor pageSize order, act = .list cursor pageSize order
      · obtain ⟨cursor, pageSize, order, rfl⟩ := hlist
        exact alike_list h.1 h'.1 hR
      · have hne : ∀ cursor pageSize order, act ≠ .list cursor pageSize order :=
          fun cursor pageSize order heq => hlist ⟨cursor, pageSize, order, heq⟩
        obtain ⟨hnext, hreply⟩ := alike_act hs hs' hne h h' hR
        refine ⟨hnext, ?_, fun _ => hreply, hnext.waiters⟩
        dsimp only
        rw [hreply]
        exact SameReply.same _
    · obtain rfl : session' = session := of_decide_eq_true hc
      exact alike_list h.1 h'.1 hR

/-! ## What another session can do -/

/-- The tokens a step fires are of expired tasks, or of the caller's own. -/
theorem fired_step (h : Step rfc3339 s c t) : ∀ token ∈ t.store.fired, token ∈ s.store.fired ∨
    ∃ id e, s.store.inner.get id = some e ∧ e.cancel = token ∧
      (e.expired c.now = true ∨ e.sessionId = c.session) := by
  obtain ⟨-, rfl⟩ := h
  obtain ⟨now, nowWall, caller, act⟩ := c
  have hpurged {token : Nat} (h : token ∈ (s.store.purgeExpired now).fired) :
      token ∈ s.store.fired ∨ ∃ id e, s.store.inner.get id = some e ∧ e.cancel = token ∧
        (e.expired now = true ∨ e.sessionId = caller) := by
    rcases fired_purged h with hold | ⟨id, e, he, htoken, hexp⟩
    · exact Or.inl hold
    · exact Or.inr ⟨id, e, he, htoken, Or.inl hexp⟩
  intro token htoken
  cases act with
  | create ttl cancel id notify =>
      replace htoken : token ∈
        (s.store.create rfc3339 now nowWall id notify caller ttl cancel).1.fired := htoken
      unfold TaskStore.create at htoken
      dsimp only at htoken
      split at htoken
      · exact hpurged htoken
      · exact hpurged htoken
  | complete id outcome =>
      replace htoken : token ∈ (s.store.complete nowWall id outcome).fired := htoken
      rcases complete_cases s.store nowWall id outcome with hsame | ⟨e, e', -, -, hst⟩
      · rw [hsame] at htoken
        exact Or.inl htoken
      · rw [hst] at htoken
        exact Or.inl htoken
  | cancel id =>
      replace htoken : token ∈ (s.store.cancel rfc3339 now nowWall caller id).1.fired := htoken
      rcases cancel_cases s.store rfc3339 now nowWall caller id with hsame | ⟨e, e', hown, -, hst⟩
      · rw [hsame] at htoken
        exact hpurged htoken
      · rw [hst] at htoken
        replace htoken : token ∈ (s.store.purgeExpired now).fired ++ [e.cancel] := htoken
        rw [List.mem_append, List.mem_singleton] at htoken
        rcases htoken with hold | rfl
        · exact hpurged hold
        · obtain ⟨he, hsession⟩ := own_eq_some.mp hown
          exact Or.inr ⟨id, e, get_of_purged he, rfl, Or.inr hsession⟩
  | get id =>
      replace htoken : token ∈ (s.store.get rfc3339 now caller id).1.fired := htoken
      rw [get_fst] at htoken
      exact hpurged htoken
  | list cursor pageSize order =>
      replace htoken : token ∈ (s.store.list rfc3339 now order caller cursor pageSize).1.fired :=
        htoken
      unfold TaskStore.list at htoken
      split at htoken
      · exact Or.inl htoken
      · exact hpurged htoken
  | wait w id => exact Or.inl htoken
  | resume w =>
      rcases hw : s.waiters.get w with _ | waiter
      · rw [act_resume_none hw] at htoken
        exact Or.inl htoken
      · rw [act_resume hw] at htoken
        replace htoken : token ∈ (s.store.resume now w waiter).1.fired := htoken
        rcases resume_fired s.store now w waiter with heq | heq
        · rw [heq] at htoken
          exact Or.inl htoken
        · rw [heq] at htoken
          exact hpurged htoken
  | abandon w =>
      replace htoken : token ∈ (s.unsubscribed w).fired := htoken
      unfold unsubscribed at htoken
      split at htoken
      · exact Or.inl htoken
      · exact Or.inl htoken

/-- A step of another session that leaves the session's tasks alone: it drops
none that has not expired, changes none, and fires no token but those of
expired tasks and of its own. -/
structure LeavesAlone (session : String) (x : TaskRoom × TaskCall × TaskRoom) : Prop where
  kept : ∀ id e, x.1.store.inner.get id = some e → e.sessionId = session →
    x.2.2.store.inner.get id = some e ∨
      x.2.2.store.inner.get id = none ∧ e.expired x.2.1.now = true
  old : ∀ id e, x.2.2.store.inner.get id = some e → e.sessionId = session →
    x.1.store.inner.get id = some e
  fired : ∀ token ∈ x.2.2.store.fired, token ∈ x.1.store.fired ∨
    ∃ id e, x.1.store.inner.get id = some e ∧ e.cancel = token ∧
      (e.expired x.2.1.now = true ∨ e.sessionId = x.2.1.session)

theorem leavesAlone_step (h : Step rfc3339 s c t) (hs : s.Kept) (hc : c.session ≠ session) :
    LeavesAlone session (s, c, t) := by
  have hold {id : String} {e' : TaskEntry} (he' : t.store.inner.get id = some e')
      (hsession : e'.sessionId = session) : s.store.inner.get id = some e' := by
    rcases entry_cases h he' with hsame | ⟨-, -, -, -, hcaller⟩ | ⟨e, r, -, hfin, hcaller, -⟩
    · exact hsame
    · exact absurd (hcaller.symm.trans hsession) hc
    · exact absurd (hcaller.symm.trans (hfin.session.symm.trans hsession)) hc
  refine ⟨?_, fun id e => hold, fired_step h⟩
  intro id e he hsession
  have hkept : e.expired c.now = false → t.store.inner.get id = some e := fun hexp =>
    ((same_step h hs hc (Nat.le_refl c.now)).task id e hsession hexp).mp he
  rcases hget : t.store.inner.get id with _ | e'
  · rcases hexp : e.expired c.now with _ | _
    · rw [hkept hexp] at hget
      cases hget
    · exact Or.inr ⟨rfl, rfl⟩
  · obtain ⟨e₀, he₀, -, hsame, -⟩ := entry_of_minted h (hs.minted id e he) hget
    obtain rfl := Option.some.inj (he.symm.trans he₀)
    have hagain := hold hget (hsame.trans hsession)
    exact Or.inl (congrArg some (Option.some.inj (hagain.symm.trans he)))

/-- **Isolation**: whatever other sessions do, a session that does the same is
shown the same, but for the order of tasks created at one instant and for when
a waiter learns that its task has expired; and what another session does leaves
its tasks alone. -/
theorem isolated (rfc3339 : Nat → String) (session : String) (capacity : Nat)
    (tr tr' : List (TaskCall × TaskRoom))
    (hrun : Run (Proceeds rfc3339) (initial capacity) tr)
    (hrun' : Run (Proceeds rfc3339) (initial capacity) tr')
    (hclock : Clocked TaskCall.now tr) (hclock' : Clocked TaskCall.now tr')
    (hagree : lows (fun c => c.session = session) unordered tr =
      lows (fun c => c.session = session) unordered tr') :
    List.Forall₂ (Alike rfc3339 session)
      (lowSteps (fun c => c.session = session) (initial capacity) tr)
      (lowSteps (fun c => c.session = session) (initial capacity) tr') ∧
    ∀ x ∈ steps (initial capacity) tr, x.2.1.session ≠ session → LeavesAlone session x := by
  have hkept : ∀ s ∈ states (initial capacity) tr, s.Kept :=
    hrun.invariant (kept_initial capacity) fun _ _ _ h => kept_step h.1
  refine ⟨?_, ?_⟩
  · refine (unwinding rfc3339 session).forall₂_lowSteps hrun hrun' (kept_initial capacity)
      (kept_initial capacity) (indistinct_refl session 0 (initial capacity)) hclock hclock' ?_ hagree
    exact fun x _ _ => Nat.zero_le x.1.now
  · intro x hx hc
    exact leavesAlone_step (hrun x hx).1 (hkept x.1 (source_mem_states hx)) hc

/-- The run on a list of calls. -/
def runOf (calls : List TaskCall) : List (TaskCall × TaskRoom) :=
  trace (fun s c => (s.act (fun _ => "") c).1) (initial 2) calls

/-- Whether every call of the list may be made, and is not refused for want of room. -/
def allowed (calls : List TaskCall) : Bool :=
  checked (fun s c => (s.act (fun _ => "") c).1)
    (fun s c => s.Admissible c ∧ (s.act (fun _ => "") c).2 ≠ .snapshot (.error .capacityExhausted))
    (initial 2) calls

theorem run_runOf {calls : List TaskCall} (h : allowed calls = true) :
    Run (Proceeds fun _ => "") (initial 2) (runOf calls) := by
  refine run_trace_of_checked ?_ h
  intro s c hc
  obtain ⟨hadm, hroom⟩ := of_decide_eq_true hc
  exact ⟨⟨hadm, rfl⟩, hroom⟩

/-- Another session guesses the id of a task of the session, to no effect. -/
theorem isolated_guess :
    let quiet : List TaskCall := [⟨0, 0, "s", .create none 1 "t" 1⟩, ⟨2, 2, "s", .get "t"⟩]
    let guessed : List TaskCall := [⟨0, 0, "s", .create none 1 "t" 1⟩, ⟨1, 1, "r", .cancel "t"⟩,
      ⟨2, 2, "s", .get "t"⟩]
    (List.Forall₂ (Alike (fun _ => "") "s")
      (lowSteps (fun c => c.session = "s") (initial 2) (runOf guessed))
      (lowSteps (fun c => c.session = "s") (initial 2) (runOf quiet)) ∧
    ∀ x ∈ steps (initial 2) (runOf guessed), x.2.1.session ≠ "s" → LeavesAlone "s" x) ∧
    (final (initial 2) (runOf guessed)).store.fired = [] :=
  ⟨isolated (fun _ => "") "s" 2 _ _ (run_runOf (by decide)) (run_runOf (by decide))
    (by unfold Clocked; decide) (by unfold Clocked; decide) (by decide), by decide⟩

/-- What is seen of another session after all: its purge fires the token of an
expired task and ends the wait for it, which else would go on; and where two
tasks were created at one instant, the table's order decides the page. -/
theorem seen_through_purge :
    let waits : List TaskCall := [⟨0, 0, "s", .create (some 0) 7 "t" 1⟩, ⟨0, 0, "s", .wait 1 "t"⟩,
      ⟨0, 0, "s", .resume 1⟩]
    let purged := waits ++ [⟨1, 1, "r", .get "x"⟩]
    let polls : List TaskCall := [⟨1, 1, "s", .resume 1⟩]
    let pages (order : List String) : List TaskCall := [⟨0, 0, "s", .create none 1 "t" 1⟩,
      ⟨0, 0, "s", .create none 2 "u" 2⟩, ⟨0, 0, "s", .list none 1 order⟩]
    allowed (purged ++ polls) = true ∧ allowed (waits ++ polls) = true ∧
    lows (fun c => c.session = "s") unordered (runOf (purged ++ polls)) =
      lows (fun c => c.session = "s") unordered (runOf (waits ++ polls)) ∧
    (final (initial 2) (runOf (purged ++ polls))).waiters.get 1 =
      some ⟨"s", "t", .returned (.error .notFound)⟩ ∧
    (final (initial 2) (runOf (waits ++ polls))).waiters.get 1 = some ⟨"s", "t", .parked 1 0⟩ ∧
    7 ∉ (final (initial 2) (runOf waits)).store.fired ∧
    7 ∈ (final (initial 2) (runOf purged)).store.fired ∧
    allowed (pages ["t", "u"]) = true ∧ allowed (pages ["u", "t"]) = true ∧
    lows (fun c => c.session = "s") unordered (runOf (pages ["t", "u"])) =
      lows (fun c => c.session = "s") unordered (runOf (pages ["u", "t"])) ∧
    ((lowSteps (fun c => c.session = "s") (initial 2) (runOf (pages ["t", "u"]))).map fun x =>
      (x.1.act (fun _ => "") x.2.1).2) ≠
    ((lowSteps (fun c => c.session = "s") (initial 2) (runOf (pages ["u", "t"]))).map fun x =>
      (x.1.act (fun _ => "") x.2.1).2) := by
  decide

end TaskRoom

end TurboMcp.Server
