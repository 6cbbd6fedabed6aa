import TurboMcp.System.TaskHistory

/-!
# Reclaiming task subscriptions

An entry of a connection that is gone is taken out by a push that finds it gone,
and by nothing else.  So the entry is stranded once its task is finished or no
longer stored, unless a push is already on its way to the connection.
-/

namespace TurboMcp.System

open TurboMcp.Core TurboMcp.Lib TurboMcp.Server TurboMcp.ExtTasks TurboMcp.Service

variable {N : Type} {d : VersionDispatcher N} {rfc3339 : Nat → String} {connection : String}

/-! ## What keeps an entry from being stranded -/

/-- The connection's writer is registered. -/
def Shared.Registered (s : Shared) (connection : String) : Prop :=
  (Outbound.writer s.writers connection).isSome = true

/-- The task is stored and not terminal. -/
def Shared.Live (s : Shared) (t : String) : Prop :=
  ∃ entry, s.tasks.inner.get t = some entry ∧ entry.status.isTerminal = false

def Shared.Stored (s : Shared) (t : String) : Prop :=
  ∃ entry, s.tasks.inner.get t = some entry

/-- The push is to look the connection up, or to drop it. -/
def Stage.Looks (connection : String) : Stage → Prop
  | showing _ subs | found _ _ subs => ∃ sub ∈ subs, sub.connection = connection
  | dropping _ s subs => s.connection = connection ∨ ∃ sub ∈ subs, sub.connection = connection
  | _ => False

/-- Once it has read the task, which is stored, it is to look the connection up. -/
def Stage.WillLook (s : Shared) (connection : String) : Stage → Prop
  | owing t => s.Stored t ∧ ∃ sub ∈ s.taskSubs.subscribers t, sub.connection = connection
  | told t subs => s.Stored t ∧
      ∃ sub ∈ subs, sub ∈ s.taskSubs.subscribers t ∧ sub.connection = connection
  | _ => False

/-- A push is on its way to the connection. -/
def Looked (rfc3339 : Nat → String) (connection : String) (P : Server N) : Prop :=
  SomeThread (fun _ p => ∃ st : Stage, p = st.residual rfc3339 ∧ st.Looks connection) P

/-- The same, or will be. -/
def Swept (rfc3339 : Nat → String) (connection : String) (P : Server N) : Prop :=
  Looked rfc3339 connection P ∨
    SomeThread (fun _ p => ∃ st : Stage, p = st.residual rfc3339 ∧
      st.WillLook P.shared connection) P

/-- **The condition**: a connection goes only where its entries name live tasks,
an entry is recorded only for a registered connection or for live tasks, and a
purge drops a task only where its entries' connections are registered; or a push
is on its way to the connection. -/
structure Tidy (rfc3339 : Nat → String) (P : Server N) (a : Act Frame (Choice N)) : Prop where
  disconnects : ∀ n c connection k, a = .run n c →
    P.threads.get n = some (.call (.dropWriter connection) k) →
    ∀ t, ∀ sub ∈ P.shared.taskSubs.subscribers t, sub.connection = connection →
      P.shared.Live t ∨ Swept rfc3339 connection P
  subscribes : ∀ n c connection id notifications ids k, a = .run n c →
    P.threads.get n =
      some (.call (.effect (.onSubscribe extensionId connection id notifications true)) k) →
    taskIdsFilter notifications = some ids →
    P.shared.Registered connection ∨ Swept rfc3339 connection P ∨
      ∀ t ∈ filterIds ids, P.shared.Live t
  purges : ∀ n c e k t, a = .run n c → P.threads.get n = some (.call e k) →
    P.shared.Stored t → (e.purged c P.shared).inner.get t = none →
    ∀ sub ∈ P.shared.taskSubs.subscribers t,
      P.shared.Registered sub.connection ∨ Looked rfc3339 sub.connection P

/-- Every entry names a registered connection or a live task, or a push is on
its way to its connection. -/
structure Reclaimable (rfc3339 : Nat → String) (P : Server N) : Prop where
  staged : AllStaged rfc3339 P
  entries : ∀ t, ∀ sub ∈ P.shared.taskSubs.subscribers t,
    P.shared.Registered sub.connection ∨ P.shared.Live t ∨ Swept rfc3339 sub.connection P

theorem reclaimable_init (sessions : SessionStore) (taskCapacity : Nat) :
    Reclaimable rfc3339 (Pool.init (Shared.init sessions taskCapacity) : Server N) := by
  refine ⟨nofun, fun t sub hsub => ?_⟩
  cases hsub

/-! ## What a push does about a connection -/

theorem residual_ne_ret_of_looks {st : Stage} (h : st.Looks connection) :
    st.residual (N := N) rfc3339 ≠ .ret () := by
  cases st with
  | owing | told | done => exact h.elim
  | showing detailed subs =>
      cases subs with
      | nil =>
          obtain ⟨sub, hsub, -⟩ := h
          cases hsub
      | cons s subs => exact nofun
  | found | dropping => exact nofun

theorem residual_ne_ret_of_willLook {s : Shared} {st : Stage} (h : st.WillLook s connection) :
    st.residual (N := N) rfc3339 ≠ .ret () := by
  cases st with
  | owing | told => exact nofun
  | showing | found | dropping | done => exact h.elim

section

variable {n : Nat} {c : Choice N} {s s' : Shared} {a : Section} {r : Reply N a}

/-- A registered connection stays so, unless this section drops its writer. -/
theorem registered_of_answer (h : runSection n c s a = .answer r s')
    (hs : s.Registered connection) : s'.Registered connection ∨ a = .dropWriter connection := by
  unfold Shared.Registered at hs ⊢
  rw [(ran_of_answer h).writers]
  unfold Section.writersAfter
  split
  · rw [Outbound.writer_register]
    split
    · exact Or.inl rfl
    · exact Or.inl hs
  · split
    · exact Or.inl hs
    · rw [Outbound.writer_register]
      split
      · exact Or.inl rfl
      · exact Or.inl hs
  · rename_i connection'
    rw [Outbound.writer_drop]
    split
    · rename_i heq
      exact Or.inr (by rw [← heq])
    · exact Or.inl hs
  · exact Or.inl hs

/-- A stored task stays so, unless this section purges it. -/
theorem stored_of_not_purged (h : runSection n c s a = .answer r s') {t : String}
    (hs : (a.purged c s).inner.get t ≠ none) : s'.Stored t := by
  rcases task_of_answer h t with ⟨hnone, -⟩ | ⟨e, e', -, he', -⟩ | ⟨-, -, -, e', he', -⟩
  · exact absurd hnone hs
  · exact ⟨e', he'⟩
  · exact ⟨e', he'⟩

end

/-! ## One step -/

/-- Nothing is stranded at the connection: its writer is registered, or it has
no entries. -/
def Resolved (connection : String) (s : Shared) : Prop :=
  s.Registered connection ∨
    ∀ t, ∀ sub ∈ s.taskSubs.subscribers t, sub.connection ≠ connection

section

variable {P P' : Server N} {a : Act Frame (Choice N)} {t : String} {sub : Subscriber}

theorem registered_step (h : (server d rfc3339).Step P a P')
    (hP : P.shared.Registered connection) : P'.shared.Registered connection ∨
      ∃ n c k, a = .run n c ∧ P.threads.get n = some (.call (.dropWriter connection) k) := by
  by_cases hdrop : ∃ n c k, a = .run n c ∧
      P.threads.get n = some (.call (.dropWriter connection) k)
  · exact Or.inr hdrop
  · refine Or.inl (shared_step h (I := fun s => s.Registered connection) hP (fun s b hs => hs) ?_)
    rintro n c e k r s rfl hget hx
    refine (registered_of_answer hx hP).resolve_right ?_
    rintro rfl
    exact hdrop ⟨n, c, k, rfl, hget⟩

/-- An entry stays, unless its connection is dropped altogether. -/
theorem entry_step (h : (server d rfc3339).Step P a P')
    (hsub : sub ∈ P.shared.taskSubs.subscribers t) :
    sub ∈ P'.shared.taskSubs.subscribers t ∨ Resolved sub.connection P'.shared := by
  refine shared_step h (I := fun s => sub ∈ s.taskSubs.subscribers t ∨ Resolved sub.connection s)
    (Or.inl hsub) (fun s b hs => hs) ?_
  intro n c e k r s _ _ hx
  refine (subscribers_mono hx hsub).imp_right fun hdrop => Or.inr fun t' sub' hsub' => ?_
  exact dropped_of_answer hx hdrop hsub'

/-- **A push on its way** gets there. -/
theorem looked_step (h : (server d rfc3339).Step P a P') (hnum : Machine.Numbered P)
    (hP : Looked rfc3339 connection P) :
    Looked rfc3339 connection P' ∨ Resolved connection P'.shared := by
  refine SomeThread.step h hnum hP ?_ ?_ ?_ fun n p _ hJ => Or.inl hJ
  · rintro n ⟨st, heq, hst⟩
    exact residual_ne_ret_of_looks hst heq.symm
  · rintro n c e k r s rfl hget ⟨st, hst, hlooks⟩ hx
    have hx : runSection n c P.shared e = .answer r s := hx
    rw [Machine.Step.resumed h hget hx]
    obtain ⟨st', hmoves, hk⟩ := Stage.moves hst.symm r
    cases hmoves with
    | nobody | told | missing | read => exact hlooks.elim
    | @found detailed s₀ subs =>
        obtain ⟨sub, hsub, rfl⟩ := hlooks
        rcases List.mem_cons.mp hsub with rfl | hsub
        · refine Or.inr (Or.inl ?_)
          injection hx with hlive hstate
          subst hstate
          exact hlive
        · exact Or.inl ⟨_, hk, sub, hsub, rfl⟩
    | @lost detailed s₀ subs =>
        obtain ⟨sub, hsub, rfl⟩ := hlooks
        rcases List.mem_cons.mp hsub with rfl | hsub
        · exact Or.inl ⟨_, hk, Or.inl rfl⟩
        · exact Or.inl ⟨_, hk, Or.inr ⟨sub, hsub, rfl⟩⟩
    | sent => exact Or.inl ⟨_, hk, hlooks⟩
    | refused => exact Or.inl ⟨_, hk, Or.inr hlooks⟩
    | @dropped detailed s₀ subs =>
        rcases hlooks with rfl | hlooks
        · exact Or.inr (Or.inr fun t sub hsub => dropped_of_answer hx rfl hsub)
        · exact Or.inl ⟨_, hk, hlooks⟩
  · rintro n c e k s rfl hget ⟨st, hst, -⟩ hx
    exact absurd hx (not_panic_of_residual hst)

/-- **A purge strands nothing**: where the step drops the task, its entries'
connections are registered or looked up. -/
theorem resolved_of_purged (h : (server d rfc3339).Step P a P') (hG : Tidy rfc3339 P a)
    (hnum : Machine.Numbered P) (hstored : P.shared.Stored t) (hpurged : ¬ P'.shared.Stored t)
    (hsub : sub ∈ P.shared.taskSubs.subscribers t) :
    Looked rfc3339 sub.connection P' ∨ Resolved sub.connection P'.shared := by
  -- the step is one of a section that purges
  obtain ⟨n, c, e, k, rfl, hget, hnone⟩ : ∃ n c e k, a = .run n c ∧
      P.threads.get n = some (.call e k) ∧ (e.purged c P.shared).inner.get t = none := by
    by_contra hno
    refine hpurged (shared_step h (I := fun s => s.Stored t) hstored (fun s b hs => hs) ?_)
    rintro n c e k r s rfl hget hx
    exact stored_of_not_purged hx fun hnone => hno ⟨n, c, e, k, rfl, hget, hnone⟩
  rcases hG.purges n c e k t rfl hget hstored hnone sub hsub with hregistered | hlooked
  · rcases registered_step h hregistered with hregistered' | ⟨n', c', k', hact, hget'⟩
    · exact Or.inr (Or.inl hregistered')
    · cases hact
      rw [hget] at hget'
      cases hget'
      obtain ⟨entry, hentry⟩ := hstored
      have hnone : P.shared.tasks.inner.get t = none := hnone
      rw [hentry] at hnone
      cases hnone
  · exact looked_step h hnum hlooked

/-- **A push that is still to read** goes on, where its task is not purged. -/
theorem swept_step (h : (server d rfc3339).Step P a P') (hG : Tidy rfc3339 P a)
    (hP : Reclaimable rfc3339 P) (hswept : Swept rfc3339 connection P) :
    Swept rfc3339 connection P' ∨ Resolved connection P'.shared := by
  have hnum := hP.staged.numbered
  rcases hswept with hlooked | hwill
  · exact (looked_step h hnum hlooked).imp_left Or.inl
  have hdone (hlooked : Looked rfc3339 connection P' ∨ Resolved connection P'.shared) :
      Swept rfc3339 connection P' ∨ Resolved connection P'.shared := hlooked.imp_left Or.inl
  refine (SomeThread.step (D := Looked rfc3339 connection P' ∨ Resolved connection P'.shared)
    (I := fun _ p => ∃ st : Stage, p = st.residual rfc3339 ∧ st.WillLook P'.shared connection)
    h hnum hwill ?_ ?_ ?_ ?_).elim (fun hwill' => Or.inl (Or.inr hwill')) hdone
  · rintro n ⟨st, heq, hst⟩
    exact residual_ne_ret_of_willLook hst heq.symm
  · rintro n c e k r s rfl hget ⟨st, hst, hwill⟩ hx
    have hx : runSection n c P.shared e = .answer r s := hx
    have hP' := Machine.Step.resumed h hget hx
    obtain ⟨st', hmoves, hk⟩ := Stage.moves hst.symm r
    cases hmoves with
    | nobody =>
        obtain ⟨-, sub, hsub, -⟩ := hwill
        injection hx with hnobody
        rw [show P.shared.taskSubs.subscribers _ = [] from hnobody] at hsub
        cases hsub
    | told hne =>
        obtain ⟨hstored, sub, hsub, hconnection⟩ := hwill
        injection hx with hsubs hstate
        subst hstate
        rw [hP']
        refine Or.inl ⟨_, hk, hstored, sub, ?_, hsub, hconnection⟩
        rw [← hsubs]
        exact hsub
    | @missing t subs =>
        obtain ⟨hstored, sub, -, hsub, rfl⟩ := hwill
        refine Or.inr (resolved_of_purged h hG hnum hstored ?_ hsub)
        rintro ⟨entry, hentry⟩
        injection hx with hnone hstate
        rw [hP', Pool.resumed, ← hstate] at hentry
        have hnone := Option.map_eq_none_iff.mp hnone
        have hentry : (P.shared.tasks.purgeExpired c.now).inner.get t = some entry := hentry
        rw [hentry] at hnone
        cases hnone
    | read =>
        obtain ⟨-, sub, hsub, -, hconnection⟩ := hwill
        refine Or.inr (Or.inl ⟨n, k _, ?_, _, hk, sub, hsub, hconnection⟩)
        rw [hP', Pool.get_resumed, if_pos rfl]
    | found | lost | sent | refused | dropped => exact hwill.elim
  · rintro n c e k s rfl hget ⟨st, hst, -⟩ hx
    exact absurd hx (not_panic_of_residual hst)
  · rintro n p - ⟨st, hst, hwill⟩
    cases st with
    | owing t =>
        obtain ⟨hstored, sub, hsub, rfl⟩ := hwill
        rcases entry_step h hsub with hsub' | hresolved
        · by_cases hstored' : P'.shared.Stored t
          · exact Or.inl ⟨_, hst, hstored', sub, hsub', rfl⟩
          · exact Or.inr (resolved_of_purged h hG hnum hstored hstored' hsub)
        · exact Or.inr (Or.inr hresolved)
    | told t subs =>
        obtain ⟨hstored, sub, hmem, hsub, rfl⟩ := hwill
        rcases entry_step h hsub with hsub' | hresolved
        · by_cases hstored' : P'.shared.Stored t
          · exact Or.inl ⟨_, hst, hstored', sub, hmem, hsub', rfl⟩
          · exact Or.inr (resolved_of_purged h hG hnum hstored hstored' hsub)
        · exact Or.inr (Or.inr hresolved)
    | showing | found | dropping | done => exact hwill.elim

/-- **A live task** stays live, or is purged, or is pushed by the task of the
server that finished it. -/
theorem live_step (h : (server d rfc3339).Step P a P') (hP : Reclaimable rfc3339 P)
    (hlive : P.shared.Live t) : P'.shared.Live t ∨ ¬ P'.shared.Stored t ∨
      ∀ sub ∈ P'.shared.taskSubs.subscribers t, Swept rfc3339 sub.connection P' := by
  cases h.stepped with
  | spawn => exact Or.inl hlive
  | finish hget => exact Or.inl hlive
  | panic hget hx =>
      rw [eq_of_panic hx]
      exact Or.inl hlive
  | @answer n c e k r s hget hx =>
      have hx : runSection n c P.shared e = .answer r s := hx
      obtain ⟨entry, hentry, hstatus⟩ := hlive
      rcases task_of_answer hx t with ⟨-, hnone⟩ | ⟨e₀, e', he₀, he', hsame | ⟨-, hann⟩⟩ |
        ⟨-, -, -, e', he', hworking⟩
      · refine Or.inr (Or.inl ?_)
        rintro ⟨entry', hentry'⟩
        have hentry' : s.tasks.inner.get t = some entry' := hentry'
        rw [hnone] at hentry'
        cases hentry'
      · refine Or.inl ⟨e', he', ?_⟩
        have hsome := get_of_get_purged he₀
        rw [hentry] at hsome
        cases hsome
        rw [hsame]
        exact hstatus
      · refine Or.inr (Or.inr fun sub hsub => Or.inr ⟨n, k r, ?_, .owing t, ?_, ?_⟩)
        · rw [Pool.get_resumed, if_pos rfl]
        · obtain ⟨f, hf, hstaged⟩ := hP.staged n _ hget
          rcases hstaged with ⟨-, hk⟩ | ⟨st, hst⟩
          · exact (hk r).1 t hann
          · obtain ⟨st', hmoves, -⟩ := Stage.moves hst.symm r
            cases hmoves <;> cases hann
        · exact ⟨⟨e', he'⟩, sub, hsub, rfl⟩
      · refine Or.inl ⟨e', he', ?_⟩
        rw [hworking]
        rfl

theorem reclaimable_step (h : (server d rfc3339).Step P a P') (hG : Tidy rfc3339 P a)
    (hP : Reclaimable rfc3339 P) : Reclaimable rfc3339 P' := by
  have hnum := hP.staged.numbered
  refine ⟨allStaged_step h hP.staged, fun t sub hsub => ?_⟩
  have hresolved (hresolved : Resolved sub.connection P'.shared) :
      P'.shared.Registered sub.connection :=
    hresolved.resolve_right fun hnone => hnone t sub hsub rfl
  have hswept (hswept : Swept rfc3339 sub.connection P) : P'.shared.Registered sub.connection ∨
      P'.shared.Live t ∨ Swept rfc3339 sub.connection P' :=
    (swept_step h hG hP hswept).elim (fun hswept' => Or.inr (Or.inr hswept'))
      fun hres => Or.inl (hresolved hres)
  have hold : sub ∈ P.shared.taskSubs.subscribers t ∨ ∃ n c notifications ids k,
      a = .run n c ∧ P.threads.get n = some (.call (.effect (.onSubscribe extensionId
        sub.connection sub.subscriptionId notifications true)) k) ∧
      taskIdsFilter notifications = some ids ∧ t ∈ filterIds ids := by
    by_cases hsub₀ : sub ∈ P.shared.taskSubs.subscribers t
    · exact Or.inl hsub₀
    · refine Or.inr ?_
      by_contra hno
      refine (shared_step h (I := fun s => sub ∉ s.taskSubs.subscribers t) hsub₀
        (fun s b hs => hs) ?_) hsub
      rintro n c e k r s rfl hget hx hsub'
      rcases subscribers_of_answer hx hsub' with hsub' | ⟨notifications, ids, rfl, hids, ht⟩
      · exact hsub₀ hsub'
      · exact hno ⟨n, c, notifications, ids, k, rfl, hget, hids, ht⟩
  have hlive (hlive : P.shared.Live t) (hkept : P.shared.Stored t → ¬ P'.shared.Stored t →
      Looked rfc3339 sub.connection P' ∨ Resolved sub.connection P'.shared) :
      P'.shared.Registered sub.connection ∨ P'.shared.Live t ∨
        Swept rfc3339 sub.connection P' := by
    rcases live_step h hP hlive with hlive' | hgone | hpushed
    · exact Or.inr (Or.inl hlive')
    · obtain ⟨entry, hentry, -⟩ := hlive
      rcases hkept ⟨entry, hentry⟩ hgone with hlooked | hres
      · exact Or.inr (Or.inr (Or.inl hlooked))
      · exact Or.inl (hresolved hres)
    · exact Or.inr (Or.inr (hpushed sub hsub))
  rcases hold with hsub₀ | ⟨n, c, notifications, ids, k, rfl, hget, hids, ht⟩
  · have hkept (hstored : P.shared.Stored t) (hgone : ¬ P'.shared.Stored t) :=
      resolved_of_purged h hG hnum hstored hgone hsub₀
    rcases hP.entries t sub hsub₀ with hregistered | hlive₀ | hswept₀
    · rcases registered_step h hregistered with hregistered' | ⟨n, c, k, rfl, hget⟩
      · exact Or.inl hregistered'
      · rcases hG.disconnects n c _ k rfl hget t sub hsub₀ rfl with hlive₀ | hswept₀
        · exact hlive hlive₀ hkept
        · exact hswept hswept₀
    · exact hlive hlive₀ hkept
    · exact hswept hswept₀
  · rcases hG.subscribes n c _ _ notifications ids k rfl hget hids with
      hregistered | hswept₀ | hlive₀
    · rcases registered_step h hregistered with hregistered' | ⟨n', c', k', hact, hget'⟩
      · exact Or.inl hregistered'
      · cases hact
        rw [hget] at hget'
        cases hget'
    · exact hswept hswept₀
    · refine hlive (hlive₀ t ht) fun hstored hgone => absurd ?_ hgone
      refine shared_step h (I := fun s => s.Stored t) hstored (fun s b hs => hs) ?_
      intro n' c' e k' r s hact hget' hx
      cases hact
      rw [hget] at hget'
      cases hget'
      obtain ⟨entry, hentry⟩ := hstored
      refine ⟨entry, ?_⟩
      rw [(ran_of_answer hx).tasks]
      exact hentry

end

/-- **Task subscriptions are reclaimed**: along a run whose steps all meet the
condition, in every state without a push in progress, every entry names a
connection whose writer is registered, or a task that is stored and not
terminal. -/
theorem subscriptions_reclaimed (d : VersionDispatcher N) (rfc3339 : Nat → String)
    (sessions : SessionStore) (taskCapacity : Nat)
    {tr : List (Act Frame (Choice N) × Server N)}
    (hrun : Run (server d rfc3339).Step (Pool.init (Shared.init sessions taskCapacity)) tr)
    (hG : ∀ x ∈ steps (Pool.init (Shared.init sessions taskCapacity)) tr,
      Tidy rfc3339 x.1 x.2.1) :
    ∀ P ∈ states (Pool.init (Shared.init sessions taskCapacity)) tr, NoPush rfc3339 P →
      ∀ t, ∀ sub ∈ P.shared.taskSubs.subscribers t,
        P.shared.Registered sub.connection ∨ P.shared.Live t := by
  intro P hP hquiet t sub hsub
  have hinv := hrun.invariant_of_guard hG (reclaimable_init sessions taskCapacity)
    (fun _ _ _ h hG hP => reclaimable_step h hG hP) P hP
  rcases hinv.entries t sub hsub with hregistered | hlive | hlooked | hwill
  · exact Or.inl hregistered
  · exact Or.inr hlive
  · obtain ⟨n, p, hget, st, rfl, hlooks⟩ := hlooked
    exact absurd (hquiet n st hget) (residual_ne_ret_of_looks hlooks)
  · obtain ⟨n, p, hget, st, rfl, hlooks⟩ := hwill
    exact absurd (hquiet n st hget) (residual_ne_ret_of_willLook hlooks)

/-! ## A client that listens and goes -/

/-- A listen request for a task that does not exist, and the connection goes. -/
def strandingRun : List (Act Frame (Choice Unit)) :=
  listening ["nope"] ++ List.replicate 8 (.run 2 (.declined "")) ++
    .spawn (.disconnect "c") :: List.replicate 2 (.run 3 (.declined ""))

/-- **A stranded entry**: nothing is left in progress, the connection is gone and
the task has never been. -/
theorem entry_stranded :
    ∃ tr, Run (server taskServer fun _ => "").Step
        (Pool.init (Shared.init (SessionStore.withCapacity 8) 8)) tr ∧
      ∃ P ∈ states (Pool.init (Shared.init (SessionStore.withCapacity 8) 8)) tr,
        P.threads.keys = [] ∧ ⟨"c", .number 7⟩ ∈ P.shared.taskSubs.subscribers "nope" ∧
          ¬ P.shared.Registered "c" ∧ ¬ P.shared.Live "nope" := by
  have hleft : (reach (server taskServer fun _ => "").step
      (Pool.init (Shared.init (SessionStore.withCapacity 8) 8)) strandingRun).map
        (fun P => (P.threads.keys, P.shared.taskSubs.subscribers "nope",
          (Outbound.writer P.shared.writers "c").isSome,
          (P.shared.tasks.inner.get "nope").isSome)) =
        some ([], [⟨"c", .number 7⟩], false, false) := by
    decide +kernel
  obtain ⟨P, hreach, hP⟩ := Option.map_eq_some_iff.mp hleft
  rw [Prod.mk.injEq, Prod.mk.injEq, Prod.mk.injEq] at hP
  obtain ⟨tr, hrun, hmem, -⟩ := exists_run_of_reach hreach
  refine ⟨tr, hrun, P, hmem, hP.1, ?_, ?_, ?_⟩
  · rw [hP.2.1]
    exact List.mem_singleton_self _
  · rw [Shared.Registered, hP.2.2.1]
    exact Bool.false_ne_true
  · rintro ⟨entry, hentry, -⟩
    rw [hentry] at hP
    cases hP.2.2.2

/-- A step that purges nothing, records entries for registered connections only
and drops no writer but of a connection all whose tasks are live. -/
def tidy (P : Server N) : Act Frame (Choice N) → Bool
  | .spawn _ => true
  | .run n c =>
      match P.threads.get n with
      | some (.call e _) =>
          (P.shared.tasks.inner.keys.all fun t => ((e.purged c P.shared).inner.get t).isSome) &&
          match e with
          | .dropWriter connection => P.shared.taskSubs.entries.all fun entry =>
              (entry.2.all fun sub => sub.connection ≠ connection) ||
                (P.shared.tasks.inner.get entry.1).any fun task => !task.status.isTerminal
          | .effect (.onSubscribe _ connection _ _ _) =>
              (Outbound.writer P.shared.writers connection).isSome
          | _ => true
      | _ => true

theorem tidy_of_check {P : Server N} {a : Act Frame (Choice N)} (h : tidy P a = true) :
    Tidy rfc3339 P a := by
  refine ⟨?_, ?_, ?_⟩
  · rintro n c connection k rfl hget t sub hsub hconnection
    simp only [tidy, hget, Bool.and_eq_true, List.all_eq_true, Bool.or_eq_true] at h
    refine Or.inl ?_
    unfold TaskSubscriptions.subscribers at hsub
    cases hlist : P.shared.taskSubs.get t with
    | none =>
        rw [hlist] at hsub
        cases hsub
    | some list =>
        rw [hlist] at hsub
        rcases h.2 _ ((Dict.get_eq_some_iff ..).mp hlist) with hnone | hlive
        · exact absurd hconnection (of_decide_eq_true (hnone sub hsub))
        · cases hentry : P.shared.tasks.inner.get t with
          | none =>
              rw [hentry] at hlive
              cases hlive
          | some entry =>
              rw [hentry, Option.any_some, Bool.not_eq_true'] at hlive
              exact ⟨entry, hentry, hlive⟩
  · rintro n c connection id notifications ids k rfl hget hids
    simp only [tidy, hget, Bool.and_eq_true] at h
    exact Or.inl h.2
  · rintro n c e k t rfl hget ⟨entry, hentry⟩ hnone
    simp only [tidy, hget, Bool.and_eq_true, List.all_eq_true] at h
    have hkey : t ∈ P.shared.tasks.inner.keys := by
      rw [Dict.mem_keys, hentry]
      rfl
    have hsome := h.1 t hkey
    rw [hnone] at hsome
    cases hsome

/-- The connection goes while the task is live; the task's end finds it gone. -/
theorem entry_reclaimed :
    ∃ tr, Run (server taskServer fun _ => "").Step
        (Pool.init (Shared.init (SessionStore.withCapacity 8) 8)) tr ∧
      ∃ P ∈ states (Pool.init (Shared.init (SessionStore.withCapacity 8) 8)) tr,
        ⟨"c", .number 7⟩ ∈ P.shared.taskSubs.subscribers "t" ∧ P.shared.Live "t" ∧
          (final (Pool.init (Shared.init (SessionStore.withCapacity 8) 8)) tr
            ).shared.taskSubs.subscribers "t" = [] := by
  have hrun : ((reach (fun P a => if tidy P a then
        (server taskServer fun _ => "").step P a else none)
      (Pool.init (Shared.init (SessionStore.withCapacity 8) 8))
      (listening ["t"] ++ List.replicate 8 (.run 2 (.declined "")) ++
        .spawn (.disconnect "c") :: List.replicate 2 (.run 3 (.declined "")))).bind
        fun P => (reach (fun P a => if tidy P a then
            (server taskServer fun _ => "").step P a else none) P
          (.spawn (.completeTask "t" (.completed .null)) ::
            List.replicate 6 (.run 4 (.declined "")))).map
          fun P' => (P.threads.keys, P.shared.taskSubs.subscribers "t",
            (Outbound.writer P.shared.writers "c").isSome,
            P'.shared.taskSubs.subscribers "t")) =
      some ([], [⟨"c", .number 7⟩], false, []) := by
    decide +kernel
  obtain ⟨P, hreach, hrun⟩ := Option.bind_eq_some_iff.mp hrun
  obtain ⟨P', hreach', hP⟩ := Option.map_eq_some_iff.mp hrun
  rw [Prod.mk.injEq, Prod.mk.injEq, Prod.mk.injEq] at hP
  obtain ⟨tr₁, hrun₁, rfl, hG₁⟩ := exists_run_of_guarded_reach
    (G := Tidy fun _ => "") (fun P a h => tidy_of_check h) hreach
  obtain ⟨tr₂, hrun₂, rfl, -⟩ := exists_run_of_guarded_reach
    (G := Tidy fun _ => "") (fun P a h => tidy_of_check h) hreach'
  have hsub : (⟨"c", .number 7⟩ : Subscriber) ∈
      (final (Pool.init (Shared.init (SessionStore.withCapacity 8) 8)) tr₁
        ).shared.taskSubs.subscribers "t" := by
    rw [hP.2.1]
    exact List.mem_singleton_self _
  have hlive := subscriptions_reclaimed taskServer (fun _ => "") _ _ hrun₁ hG₁ _
    (final_mem_states _ _) (fun n st hget => Pool.idle_of_keys hP.1 n _ hget) "t" _ hsub
  refine ⟨tr₁ ++ tr₂, run_append.mpr ⟨hrun₁, hrun₂⟩, _,
    states_subset_append _ _ _ (final_mem_states _ _), hsub, hlive.resolve_left ?_, ?_⟩
  · rw [Shared.Registered, hP.2.2.1]
    exact Bool.false_ne_true
  · rw [final_append]
    exact hP.2.2.2

end TurboMcp.System
