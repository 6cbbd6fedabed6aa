import TurboMcp.System.Recording
import TurboMcp.System.StatusOrder

/-!
# A task's last notification

The task of the server that brings a draft task to its terminal status pushes it
next.  A subscriber that has been shown any status was subscribed by then, so
the push is told of it, and where nothing is purged before it is read and every
delivery arrives, the terminal status is what it is shown last.
-/

namespace TurboMcp.System

open TurboMcp.Core TurboMcp.Lib TurboMcp.Server TurboMcp.ExtTasks TurboMcp.Service

variable {N : Type} {d : VersionDispatcher N} {rfc3339 : Nat → String} {t : String}
  {sub : Subscriber} {Q : TaskStatus → Prop}

/-! ## Up to the last -/

def Terminal (f : TaskStatus) : Prop := f.isTerminal = true

/-- The connection whose writer the push looks up, or sends on, next. -/
def Stage.target : Stage → Option String
  | showing _ (s :: _) | found _ s _ => some s.connection
  | _ => none

/-- A push is to show the subscriber the task's terminal status, which it has
read. -/
def Holding (rfc3339 : Nat → String) (t : String) (sub : Subscriber) (P : Server N) : Prop :=
  SomeThread (fun _ p => ∃ st : Stage, p = st.residual rfc3339 ∧ st.Holds t sub Terminal) P

/-- The subscriber has been shown a terminal status, or is about to be, or is
shown none of the earlier ones. -/
inductive Concluded (rfc3339 : Nat → String) (t : String) (sub : Subscriber) (P : Server N) :
    Prop
  | shown {f : TaskStatus} (hf : f ∈ shown P.shared.log t sub) (hterminal : Terminal f)
  | holding (h : Holding rfc3339 t sub P)
  | unheard (hshown : shown P.shared.log t sub = [])
      (htasks : ∀ n p, P.threads.get n = some p → ¬ MayShow t sub NonTerminal p)

/-- **The condition on deliveries**: the pushes reach the subscriber's
connection, and no purge drops the task in its terminal status before that has
been read for the subscriber. -/
structure Delivered (rfc3339 : Nat → String) (t : String) (sub : Subscriber) (P : Server N)
    (a : Act Frame (Choice N)) : Prop where
  reachable : ∀ n c (st : Stage), a = .run n c →
    P.threads.get n = some (st.residual rfc3339) → st.target = some sub.connection →
    P.shared.Reachable sub.connection
  unpurged : ∀ n c e k entry, a = .run n c → P.threads.get n = some (.call e k) →
    P.shared.tasks.inner.get t = some entry → Terminal entry.status →
    (e.purged c P.shared).inner.get t = none → Concluded rfc3339 t sub P

/-- The push is still to read the task, or who is subscribed to it. -/
inductive Stage.Reading (s : Shared) (t : String) (sub : Subscriber) : Stage → Prop
  | owing (hsub : sub ∈ s.taskSubs.subscribers t) : Reading s t sub (owing t)
  | told {subs : List Subscriber} (hsub : sub ∈ subs) : Reading s t sub (told t subs)

/-- A task that may show the subscriber a status has heard of it from the
table, where it stays. -/
structure Heard (t : String) (sub : Subscriber) (s : Shared) (p : Proc N Unit) : Prop where
  subscribed : MayShow t sub (fun _ => True) p ∨ Told t sub p → sub ∈ s.taskSubs.subscribers t
  kept : ∀ k, p ≠ .call (.dropConnection sub.connection) k

section

variable {n : Nat} {c : Choice N} {s s' : Shared} {a : Section} {r : Reply N a}
  {k : Reply N a → Proc N Unit}

theorem subscribed_of_answer (h : runSection n c s a = .answer r s')
    (ha : a ≠ .dropConnection sub.connection) (hsub : sub ∈ s.taskSubs.subscribers t) :
    sub ∈ s'.taskSubs.subscribers t :=
  (subscribers_mono h hsub).resolve_right ha

/-- Only a push that has just read the subscribers is told of one. -/
theorem told_residual {st : Stage} (h : Told t sub (st.residual (N := N) rfc3339)) :
    ∃ subs, st = .told t subs ∧ sub ∈ subs := by
  obtain ⟨k, r, heq, h⟩ := h
  cases st with
  | owing taskId => cases heq
  | told taskId subs =>
      cases heq
      refine ⟨subs, rfl, ?_⟩
      obtain ⟨detailed, rfl⟩ : ∃ detailed : Option DetailedTask, detailed = r := ⟨r, rfl⟩
      cases detailed with
      | none => cases h
      | some detailed => exact (mayShow_deliverStatus h).2.2
  | showing detailed subs => cases subs <;> cases heq
  | found detailed s subs => cases heq
  | dropping detailed s subs => cases heq
  | done => cases heq

theorem dropping_of_residual {st : Stage} {connection : String}
    {k : Reply N (.dropConnection connection) → Proc N Unit}
    (h : st.residual rfc3339 = .call (.dropConnection connection) k) :
    ∃ detailed s subs, st = .dropping detailed s subs ∧ s.connection = connection := by
  cases st with
  | owing taskId => cases h
  | told taskId subs => cases h
  | showing detailed subs => cases subs <;> cases h
  | found detailed s subs => cases h
  | dropping detailed s subs =>
      cases h
      exact ⟨detailed, s, subs, rfl, rfl⟩
  | done => cases h

/-- **The task that moves** goes on knowing only subscribers of the table. -/
theorem Heard.after (h : runSection n c s a = .answer r s')
    (hstaged : Staged rfc3339 (.call a k)) (hp : Heard t sub s (.call a k))
    (hreach : ∀ st : Stage, .call a k = st.residual (N := N) rfc3339 →
      st.target = some sub.connection → s.Reachable sub.connection) :
    Heard t sub s' (k r) := by
  have ha : a ≠ .dropConnection sub.connection := by
    rintro rfl
    exact hp.kept k rfl
  have hsubscribed (hsub : sub ∈ s.taskSubs.subscribers t) :
      sub ∈ s'.taskSubs.subscribers t := subscribed_of_answer h ha hsub
  constructor
  · rintro (hm | htold)
    · refine hsubscribed (hp.subscribed ?_)
      by_cases htask : ∀ op, a ≠ .task op
      · exact Or.inl (.later htask hm)
      · push Not at htask
        obtain ⟨op, htask⟩ := htask
        exact Or.inr (read_of_mayShow htask hstaged h hm).2
    · rcases hstaged with ⟨-, hk⟩ | ⟨st, hst⟩
      · cases hann : announced a r with
        | none => exact absurd htold (not_told_of_prelude ((hk r).2 hann))
        | some taskId =>
            rw [(hk r).1 taskId hann] at htold
            obtain ⟨subs, heq, -⟩ := told_residual htold
            cases heq
      · obtain ⟨st', hmoves, hk⟩ := Stage.moves hst.symm r
        rw [hk] at htold
        obtain ⟨subs, rfl, hsub⟩ := told_residual htold
        cases hmoves
        refine hsubscribed ?_
        cases h
        exact hsub
  · intro k' hk'
    rcases hstaged with ⟨-, hk⟩ | ⟨st, hst⟩
    · cases hann : announced a r with
      | none =>
          have hprelude := (hk r).2 hann
          rw [hk'] at hprelude
          exact hprelude.1 trivial
      | some taskId =>
          rw [(hk r).1 taskId hann] at hk'
          cases hk'
    · obtain ⟨st', hmoves, hk⟩ := Stage.moves hst.symm r
      rw [hk] at hk'
      obtain ⟨detailed, s₀, subs, rfl, hconnection⟩ := dropping_of_residual hk'
      cases hmoves with
      | lost =>
          have hlive := (hreach _ hst (congrArg some hconnection)).1
          rw [← hconnection] at hlive
          simp only [runSection, runEffect, hlive] at h
          cases h
      | refused =>
          have hopen := (hreach _ hst (congrArg some hconnection)).2
          rw [← hconnection] at hopen
          simp only [runSection, runEffect, hopen, if_false] at h
          cases h

end

/-- What ends a task's statuses: every delivery reaches the subscriber, and a
terminal status in the log is shown in the end. -/
structure ShownToTheEnd (rfc3339 : Nat → String) (t : String) (sub : Subscriber) (P : Server N) :
    Prop where
  inOrder : ShownInOrder rfc3339 t sub P
  tasks : Threads (fun s _ _ p => Heard t sub s p) P
  heard : shown P.shared.log t sub ≠ [] → sub ∈ P.shared.taskSubs.subscribers t
  owed : ∀ f, .status t f ∈ P.shared.log → Terminal f → Concluded rfc3339 t sub P ∨
    (∃ entry, P.shared.tasks.inner.get t = some entry) ∧
      SomeThread (fun _ p => ∃ st : Stage, p = st.residual rfc3339 ∧
        st.Reading P.shared t sub) P

theorem shownToTheEnd_init (sessions : SessionStore) (taskCapacity : Nat) :
    ShownToTheEnd rfc3339 t sub
      (Pool.init (Shared.init sessions taskCapacity) : Server N) := by
  refine ⟨shownInOrder_init sessions taskCapacity, nofun, fun h => absurd rfl h, fun f hf => ?_⟩
  cases hf

theorem residual_ne_ret_of_holds {st : Stage} (h : st.Holds t sub Q) :
    st.residual (N := N) rfc3339 ≠ .ret () := by
  obtain ⟨detailed, hsnapshot, -, -, hsub⟩ := h
  cases st with
  | owing | told | done => cases hsnapshot
  | showing detailed' subs =>
      cases subs with
      | nil => cases hsub
      | cons s subs => exact nofun
  | found | dropping => exact nofun

theorem residual_ne_ret_of_reading {s : Shared} {st : Stage} (h : st.Reading s t sub) :
    st.residual (N := N) rfc3339 ≠ .ret () := by
  cases h with
  | owing | told => exact nofun

section

variable {P P' : Server N} {a : Act Frame (Choice N)}

theorem shown_step (h : (server d rfc3339).Step P a P') {f : TaskStatus}
    (hf : f ∈ shown P.shared.log t sub) : f ∈ shown P'.shared.log t sub := by
  refine shared_step h (I := fun s => f ∈ shown s.log t sub) hf (fun s b hs => hs) ?_
  intro n c e k r s _ _ hx
  rw [shown_of_answer hx]
  exact List.mem_append_left _ hf

/-- A push that holds the terminal status goes on holding it, or shows it. -/
theorem holding_step (h : (server d rfc3339).Step P a P') (hG : Delivered rfc3339 t sub P a)
    (hnum : Machine.Numbered P) (hP : Holding rfc3339 t sub P) :
    Holding rfc3339 t sub P' ∨ ∃ f ∈ shown P'.shared.log t sub, Terminal f := by
  refine SomeThread.step h hnum hP ?_ ?_ ?_ fun n p _ hJ => Or.inl hJ
  · rintro n ⟨st, heq, hholds⟩
    exact residual_ne_ret_of_holds hholds heq.symm
  · rintro n c e k r s rfl hget ⟨st, hst, detailed, hsnapshot, ht, hterminal, hsub⟩ hx
    have hx : runSection n c P.shared e = .answer r s := hx
    have hreach := hG.reachable n c st rfl (hst ▸ hget)
    obtain ⟨st', hmoves, hk⟩ := Stage.moves hst.symm r
    have hgoes (hsnapshot' : st'.snapshot = some detailed) (hsub' : sub ∈ st'.remaining) :
        (∃ st : Stage, k r = st.residual rfc3339 ∧ st.Holds t sub Terminal) ∨
          ∃ f ∈ shown P'.shared.log t sub, Terminal f :=
      Or.inl ⟨st', hk, detailed, hsnapshot', ht, hterminal, hsub'⟩
    cases hmoves with
    | nobody | told | missing | read => cases hsnapshot
    | found => exact hgoes hsnapshot hsub
    | @lost detailed' s₀ subs =>
        refine hgoes hsnapshot ((List.mem_cons.mp hsub).resolve_left ?_)
        rintro rfl
        have hlive := (hreach rfl).1
        simp only [runSection, runEffect, hlive] at hx
        cases hx
    | @sent detailed' s₀ subs =>
        rcases List.mem_cons.mp hsub with rfl | hsub
        · cases hsnapshot
          refine Or.inr ⟨detailed.task.status, ?_, hterminal⟩
          rw [Machine.Step.resumed h hget hx]
          show _ ∈ shown s.log t sub
          rw [shown_of_send rfl hx, if_pos ⟨rfl, ht, (hreach rfl).2⟩]
          exact List.mem_append_right _ (List.mem_singleton_self _)
        · exact hgoes hsnapshot hsub
    | @refused detailed' s₀ subs =>
        refine hgoes hsnapshot ((List.mem_cons.mp hsub).resolve_left ?_)
        rintro rfl
        have hopen := (hreach rfl).2
        simp only [runSection, runEffect, hopen, if_false] at hx
        cases hx
    | dropped => exact hgoes hsnapshot hsub
  · rintro n c e k s rfl hget ⟨st, hst, -⟩ hx
    exact absurd hx (not_panic_of_residual hst)

/-- **Concluded for good.** -/
theorem concluded_step (h : (server d rfc3339).Step P a P') (hG : Delivered rfc3339 t sub P a)
    (hinv : ShownInOrder rfc3339 t sub P) {f : TaskStatus} (hf : .status t f ∈ P.shared.log)
    (hterminal : Terminal f) (hP : Concluded rfc3339 t sub P) : Concluded rfc3339 t sub P' := by
  cases hP with
  | shown hg hg' => exact .shown (shown_step h hg) hg'
  | holding hholding =>
      rcases holding_step h hG hinv.tasks.numbered hholding with h' | ⟨g, hg, hg'⟩
      · exact .holding h'
      · exact .shown hg hg'
  | unheard hshown htasks =>
      have htasks' : Threads (fun _ _ _ p => ¬ MayShow t sub NonTerminal p) P' := by
        have hnow : Threads (fun _ _ _ p => ¬ MayShow t sub NonTerminal p) P := by
          intro n p hget
          obtain ⟨f, hf, -⟩ := hinv.tasks n p hget
          exact ⟨f, hf, htasks n p hget⟩
        refine threads_step h hnow ?_ (fun s b n f p hJ => hJ) ?_
          (fun n c e k r s m f p _ _ _ _ _ _ hJ => hJ)
        · intro f _
          exact not_mayShow_of_prelude (prelude_startFrame d rfc3339 f)
        · intro n f' c e k r s _ hget _ hJ hx hm
          by_cases htask : ∀ op, e ≠ .task op
          · exact hJ (.later htask hm)
          · push Not at htask
            obtain ⟨op, htask⟩ := htask
            obtain ⟨⟨entry, hentry, hstatus⟩, -⟩ :=
              read_of_mayShow htask (hinv.showing hget).staged hx hm
            have hlast := (remembers_after hinv.remembers hx).last t f entry
              (status_of_answer hx hf) hterminal hentry
            rw [NonTerminal, hlast, hterminal] at hstatus
            cases hstatus
      have hshown' : shown P'.shared.log t sub = [] ∨
          ∃ g ∈ shown P'.shared.log t sub, Terminal g := by
        refine shared_step h (I := fun s => shown s.log t sub = [] ∨
          ∃ g ∈ shown s.log t sub, Terminal g) (Or.inl hshown) (fun s b hs => hs) ?_
        intro n c e k r s _ hget hx
        rcases shown_of_staged t sub (hinv.showing hget).staged hx with
          hsame | ⟨detailed, subs, hfound, ht, -, -, hshown'⟩
        · rw [hsame]
          exact Or.inl hshown
        · refine Or.inr ⟨detailed.task.status, ?_, ?_⟩
          · rw [hshown']
            exact List.mem_append_right _ (List.mem_singleton_self _)
          · by_contra hstatus
            refine htasks n _ hget ?_
            rw [hfound]
            refine .now ?_ (Bool.eq_false_iff.mpr hstatus)
              (forSubscription_statusNotification rfc3339 detailed sub)
            rw [statusShown_statusNotification, if_pos ht]
      rcases hshown' with hnone | ⟨g, hg, hg'⟩
      · refine .unheard hnone fun n p hget => ?_
        obtain ⟨-, -, hJ⟩ := htasks' n p hget
        exact hJ
      · exact .shown hg hg'

theorem ShownToTheEnd.hears (hP : ShownToTheEnd rfc3339 t sub P) {n : Nat} {p : Proc N Unit}
    (hget : P.threads.get n = some p) : Heard t sub P.shared p := by
  obtain ⟨-, -, h⟩ := hP.tasks n p hget
  exact h

/-- Nobody drops the subscriber. -/
theorem subscribed_step (h : (server d rfc3339).Step P a P')
    (hP : ShownToTheEnd rfc3339 t sub P) (hsub : sub ∈ P.shared.taskSubs.subscribers t) :
    sub ∈ P'.shared.taskSubs.subscribers t := by
  refine shared_step h (I := fun s => sub ∈ s.taskSubs.subscribers t) hsub (fun s b hs => hs) ?_
  rintro n c e k r s - hget hx
  refine subscribed_of_answer hx ?_ hsub
  rintro rfl
  exact (hP.hears hget).kept k rfl

/-- A purged terminal status has been read in time. -/
theorem concluded_of_purged (h : (server d rfc3339).Step P a P')
    (hG : Delivered rfc3339 t sub P a) {entry : Entry}
    (hstored : P.shared.tasks.inner.get t = some entry) (hterminal : Terminal entry.status)
    (hpurged : P'.shared.tasks.inner.get t = none) : Concluded rfc3339 t sub P := by
  have hsame {s : Shared} (hs : s.tasks = P.shared.tasks) (hnone : s.tasks.inner.get t = none) :
      Concluded rfc3339 t sub P := by
    rw [hs, hstored] at hnone
    cases hnone
  cases h.stepped with
  | spawn => exact hsame rfl hpurged
  | finish hget => exact hsame rfl hpurged
  | @answer n c e k r s hget hx =>
      have hx : runSection n c P.shared e = .answer r s := hx
      refine hG.unpurged n c e k entry rfl hget hstored hterminal ?_
      rcases task_of_answer hx t with ⟨hnone, -⟩ | ⟨e₀, e', -, hget', -⟩ | ⟨-, -, -, e', hget', -⟩
      · exact hnone
      · have hpurged : s.tasks.inner.get t = none := hpurged
        rw [hget'] at hpurged
        cases hpurged
      · have hpurged : s.tasks.inner.get t = none := hpurged
        rw [hget'] at hpurged
        cases hpurged
  | panic hget hx =>
      refine hsame ?_ hpurged
      rw [eq_of_panic hx]
      rfl

/-- **An old terminal status** goes on being read for the subscriber. -/
theorem reading_step (h : (server d rfc3339).Step P a P') (hG : Delivered rfc3339 t sub P a)
    (hP : ShownToTheEnd rfc3339 t sub P) {f : TaskStatus} (hf : .status t f ∈ P.shared.log)
    (hterminal : Terminal f) {entry : Entry}
    (hstored : P.shared.tasks.inner.get t = some entry)
    (hreading : SomeThread (fun _ p => ∃ st : Stage, p = st.residual rfc3339 ∧
      st.Reading P.shared t sub) P) :
    Concluded rfc3339 t sub P' ∨ (∃ entry, P'.shared.tasks.inner.get t = some entry) ∧
      SomeThread (fun _ p => ∃ st : Stage, p = st.residual rfc3339 ∧
        st.Reading P'.shared t sub) P' := by
  have hremembers := hP.inOrder.remembers
  have hentry : Terminal entry.status := by
    rw [hremembers.last t f entry hf hterminal hstored]
    exact hterminal
  cases hstored' : P'.shared.tasks.inner.get t with
  | none =>
      exact Or.inl (concluded_step h hG hP.inOrder hf hterminal
        (concluded_of_purged h hG hstored hentry hstored'))
  | some entry' =>
      refine (SomeThread.step (D := Concluded rfc3339 t sub P') h hP.inOrder.tasks.numbered
        hreading ?_ ?_ ?_ ?_).symm.imp_right fun hreading' => ⟨⟨entry', rfl⟩, hreading'⟩
      · rintro n ⟨st, heq, hst⟩
        exact residual_ne_ret_of_reading hst heq.symm
      · rintro n c e k r s rfl hget ⟨st, hst, hreads⟩ hx
        have hx : runSection n c P.shared e = .answer r s := hx
        have hP' := Machine.Step.resumed h hget hx
        obtain ⟨st', hmoves, hk⟩ := Stage.moves hst.symm r
        cases hreads with
        | owing hsub =>
            cases hmoves with
            | nobody =>
                injection hx with hnobody
                have hnobody : P.shared.taskSubs.subscribers t = [] := hnobody
                rw [hnobody] at hsub
                cases hsub
            | told hne =>
                injection hx with hsubs
                refine Or.inl ⟨_, hk, .told ?_⟩
                rw [← hsubs]
                exact hsub
        | told hsub =>
            cases hmoves with
            | missing =>
                injection hx with hnone hstate
                rw [hP', Pool.resumed, ← hstate] at hstored'
                have hnone := Option.map_eq_none_iff.mp hnone
                have hstored' : (P.shared.tasks.purgeExpired c.now).inner.get t = some entry' :=
                  hstored'
                rw [hstored'] at hnone
                cases hnone
            | @read _ _ detailed =>
                injection hx with hread hstate
                obtain ⟨e', hget', rfl⟩ := Option.map_eq_some_iff.mp hread
                have hlast : e'.status = f :=
                  hremembers.last t f e' hf hterminal (get_of_get_purged (c := c)
                    (a := .task (.get t)) hget')
                refine Or.inr (.holding ⟨n, k (some (e'.detailed t)), ?_, _, hk, _, rfl, rfl, ?_,
                  hsub⟩)
                · rw [hP', Pool.get_resumed, if_pos rfl]
                · show Terminal e'.status
                  rw [hlast]
                  exact hterminal
      · rintro n c e k s rfl hget ⟨st, hst, -⟩ hx
        exact absurd hx (not_panic_of_residual hst)
      · rintro n p hget ⟨st, hst, hreads⟩
        refine Or.inl ⟨st, hst, ?_⟩
        cases hreads with
        | owing hsub => exact .owing (subscribed_step h hP hsub)
        | told hsub => exact .told hsub

/-- **A new terminal status** is pushed by the task that brought it about. -/
theorem owed_of_new (h : (server d rfc3339).Step P a P')
    (hP : ShownToTheEnd rfc3339 t sub P) {f : TaskStatus} (hold : .status t f ∉ P.shared.log)
    (hnew : .status t f ∈ P'.shared.log) (hterminal : Terminal f) :
    Concluded rfc3339 t sub P' ∨ (∃ entry, P'.shared.tasks.inner.get t = some entry) ∧
      SomeThread (fun _ p => ∃ st : Stage, p = st.residual rfc3339 ∧
        st.Reading P'.shared t sub) P' := by
  cases h.stepped with
  | spawn => exact absurd hnew hold
  | finish hget => exact absurd hnew hold
  | panic hget hx =>
      rw [eq_of_panic hx] at hnew
      exact absurd hnew hold
  | @answer n c e k r s hget hx =>
      have hx : runSection n c P.shared e = .answer r s := hx
      have hran := ran_of_answer hx
      have hstaged := (hP.inOrder.showing hget).staged
      have hevent : .status t f ∈ e.events n c P.shared := by
        change .status t f ∈ s.log at hnew
        rw [hran.log, List.mem_append] at hnew
        exact hnew.resolve_left hold
      obtain ⟨e', hget', hstatus, hne⟩ := status_mem_events hevent
      rw [← hran.tasks] at hget'
      have hann : announced e r = some t := by
        rcases task_of_answer hx t with ⟨-, hnone⟩ | ⟨e₀, e'', he₀, he'', hchange⟩ |
          ⟨-, -, -, e'', he'', hworking⟩
        · rw [hnone] at hget'
          cases hget'
        · rw [he''] at hget'
          cases hget'
          rcases hchange with hsame | ⟨-, hann⟩
          · refine absurd ?_ hne
            rw [get_of_get_purged he₀, Option.map_some, ← hsame, hstatus]
          · exact hann
        · rw [he''] at hget'
          cases hget'
          rw [← hstatus, hworking] at hterminal
          cases hterminal
      obtain ⟨op, rfl, -⟩ := task_of_announced hann
      have hk : k r = (Stage.owing t).residual rfc3339 := by
        rcases hstaged with ⟨-, hk⟩ | ⟨st, hst⟩
        · exact (hk r).1 t hann
        · obtain ⟨st', hmoves, -⟩ := Stage.moves hst.symm r
          cases hmoves <;> cases hann
      have htaskSubs : s.taskSubs = P.shared.taskSubs := hran.taskSubs
      by_cases hsub : sub ∈ P.shared.taskSubs.subscribers t
      · refine Or.inr ⟨⟨e', hget'⟩, n, k r, ?_, _, hk, .owing ?_⟩
        · rw [Pool.get_resumed, if_pos rfl]
        · show sub ∈ s.taskSubs.subscribers t
          rw [htaskSubs]
          exact hsub
      · refine Or.inl (.unheard ?_ fun m p hm => ?_)
        · show shown s.log t sub = []
          rw [shown_of_not_ofPush hx id]
          by_contra hshown
          exact hsub (hP.heard hshown)
        · rw [Pool.get_resumed] at hm
          split at hm
          · cases hm
            rw [hk]
            intro hm
            obtain ⟨detailed, hsnapshot, -⟩ := holds_of_mayShow hm
            cases hsnapshot
          · intro hmay
            exact hsub ((hP.hears hm).subscribed (Or.inl (hmay.mono fun _ _ => trivial)))

theorem shownToTheEnd_step (h : (server d rfc3339).Step P a P')
    (hO : InOrder rfc3339 t sub P a) (hG : Delivered rfc3339 t sub P a)
    (hP : ShownToTheEnd rfc3339 t sub P) : ShownToTheEnd rfc3339 t sub P' := by
  refine ⟨shownInOrder_step h hO hP.inOrder, ?_, ?_, fun f hf hterminal => ?_⟩
  · refine threads_step h hP.tasks ?_ ?_ ?_ ?_
    · intro f _
      have hprelude := prelude_startFrame d rfc3339 f
      refine ⟨?_, fun k hk => ?_⟩
      · rintro (hm | htold)
        · exact absurd hm (not_mayShow_of_prelude hprelude)
        · exact absurd htold (not_told_of_prelude hprelude)
      · rw [hk] at hprelude
        exact hprelude.1 trivial
    · intro s b n f p hJ
      exact ⟨hJ.subscribed, hJ.kept⟩
    · intro n f c e k r s ha hget _ hJ hx
      refine hJ.after hx (hP.inOrder.showing hget).staged fun st hst htarget => ?_
      exact hG.reachable n c st ha (hst ▸ hget) htarget
    · intro n c e k r s m f p _ hget hx _ _ _ hJ
      refine ⟨fun hm => subscribed_of_answer hx ?_ (hJ.subscribed hm), hJ.kept⟩
      rintro rfl
      exact (hP.hears hget).kept k rfl
  · intro hshown
    have hheard : shown P'.shared.log t sub ≠ [] → sub ∈ P.shared.taskSubs.subscribers t := by
      refine shared_step h (I := fun s => shown s.log t sub ≠ [] →
        sub ∈ P.shared.taskSubs.subscribers t) hP.heard (fun s b hs => hs) ?_
      intro n c e k r s _ hget hx hshown
      rcases shown_of_staged t sub (hP.inOrder.showing hget).staged hx with
        hsame | ⟨detailed, subs, hfound, ht, -, -, -⟩
      · rw [hsame] at hshown
        exact hP.heard hshown
      · refine (hP.hears hget).subscribed (Or.inl ?_)
        rw [hfound]
        refine .now (f := detailed.task.status) ?_ trivial
          (forSubscription_statusNotification rfc3339 detailed sub)
        rw [statusShown_statusNotification, if_pos ht]
    exact subscribed_step h hP (hheard hshown)
  · by_cases hold : .status t f ∈ P.shared.log
    · rcases hP.owed f hold hterminal with hconcluded | ⟨⟨entry, hstored⟩, hreading⟩
      · exact Or.inl (concluded_step h hG hP.inOrder hold hterminal hconcluded)
      · exact reading_step h hG hP hold hterminal hstored hreading
    · exact owed_of_new h hP hold hf hterminal

end

/-- A terminal status that has been shown is the last. -/
theorem getLast?_of_regular {statuses : List TaskStatus} (h : Regular statuses) {g : TaskStatus}
    (hg : g ∈ statuses) (hterminal : Terminal g) : statuses.getLast? = some g := by
  rcases List.eq_nil_or_concat statuses with rfl | ⟨before, last, rfl⟩
  · cases hg
  · rw [List.concat_eq_append] at h hg ⊢
    rw [List.getLast?_append, List.getLast?_singleton, Option.some_or]
    rw [List.mem_append, List.mem_singleton] at hg
    rcases hg with hg | rfl
    · exact congrArg some
        ((List.pairwise_append.mp h).2.2 g hg last (List.mem_singleton_self _) hterminal)
    · rfl

/-- **Statuses in order**: along a run whose steps all meet the condition, a
subscriber is never shown a status after a terminal one; and where the pushes
reach it and no purge comes before them, the last status it has been shown, once
no push is in progress, is the task's terminal one. -/
theorem statuses_in_order (d : VersionDispatcher N) (rfc3339 : Nat → String)
    (sessions : SessionStore) (taskCapacity : Nat) (t : String) (sub : Subscriber)
    {tr : List (Act Frame (Choice N) × Server N)}
    (hrun : Run (server d rfc3339).Step (Pool.init (Shared.init sessions taskCapacity)) tr)
    (hO : ∀ x ∈ steps (Pool.init (Shared.init sessions taskCapacity)) tr,
      InOrder rfc3339 t sub x.1 x.2.1) :
    (∀ P ∈ states (Pool.init (Shared.init sessions taskCapacity)) tr,
      (shown P.shared.log t sub).Pairwise fun f g => f.isTerminal = true → g = f) ∧
    ((∀ x ∈ steps (Pool.init (Shared.init sessions taskCapacity)) tr,
        Delivered rfc3339 t sub x.1 x.2.1) →
      ∀ P ∈ states (Pool.init (Shared.init sessions taskCapacity)) tr, NoPush rfc3339 P →
        ∀ f, .status t f ∈ P.shared.log → f.isTerminal = true →
          shown P.shared.log t sub ≠ [] → (shown P.shared.log t sub).getLast? = some f) := by
  constructor
  · intro P hP
    exact (hrun.invariant_of_guard hO (shownInOrder_init sessions taskCapacity)
      (fun _ _ _ h hO hP => shownInOrder_step h hO hP) P hP).regular
  · intro hG P hP hquiet f hf hterminal hshown
    have hinv := hrun.invariant_of_guard (G := fun P a => InOrder rfc3339 t sub P a ∧
        Delivered rfc3339 t sub P a) (fun x hx => ⟨hO x hx, hG x hx⟩)
      (shownToTheEnd_init sessions taskCapacity)
      (fun _ _ _ h hG hP => shownToTheEnd_step h hG.1 hG.2 hP) P hP
    have hconcluded : Concluded rfc3339 t sub P := by
      rcases hinv.owed f hf hterminal with hconcluded | ⟨-, n, p, hget, st, rfl, hreads⟩
      · exact hconcluded
      · exact absurd (hquiet n st hget) (residual_ne_ret_of_reading hreads)
    obtain ⟨g, hg, hg'⟩ : ∃ g ∈ shown P.shared.log t sub, Terminal g := by
      cases hconcluded with
      | shown hg hg' => exact ⟨_, hg, hg'⟩
      | holding h =>
          obtain ⟨n, p, hget, st, rfl, hholds⟩ := h
          exact absurd (hquiet n st hget) (residual_ne_ret_of_holds hholds)
      | unheard hnone => exact absurd hnone hshown
    rw [getLast?_of_regular hinv.inOrder.regular hg hg']
    exact congrArg some (hinv.inOrder.remembers.unique t g f (hinv.inOrder.logged g hg) hg' hf
      hterminal)

/-! ## A task that asks for input and completes -/

/-- The subscriber of request 7 on connection `c`. -/
def listener : Subscriber := ⟨"c", .number 7⟩

/-- A subscribed task asks for input, and the push stops before its last send;
the task completes and is pushed; then the first push goes on. -/
def overtaking : List (Act Frame (Choice Unit)) :=
  listening ["t"] ++ List.replicate 8 (.run 2 (.declined "")) ++
    .spawn (.obtainInput "t" "k" .null) :: List.replicate 4 (.run 3 (.declined "")) ++
      .spawn (.completeTask "t" (.completed .null)) :: List.replicate 6 (.run 4 (.declined "")) ++
        List.replicate 2 (.run 3 (.declined ""))

/-- **A push is overtaken**: the subscriber is shown that the task has completed,
and then that it asks for input. -/
theorem status_after_terminal :
    ∃ tr, Run (server taskServer fun _ => "").Step
        (Pool.init (Shared.init (SessionStore.withCapacity 8) 8)) tr ∧
      ∃ P ∈ states (Pool.init (Shared.init (SessionStore.withCapacity 8) 8)) tr,
        P.threads.keys = [] ∧
        ¬ ((shown P.shared.log "t" listener).Pairwise fun f g =>
          f.isTerminal = true → g.isTerminal = true) ∧
        .status "t" .completed ∈ P.shared.log ∧
        (shown P.shared.log "t" listener).getLast? = some .inputRequired := by
  have hshown : (reach (server taskServer fun _ => "").step
      (Pool.init (Shared.init (SessionStore.withCapacity 8) 8)) overtaking).map
        (fun P => (P.threads.keys, shown P.shared.log "t" listener,
          P.shared.log.contains (.status "t" .completed))) =
          some ([], [.completed, .inputRequired], true) := by
    decide +kernel
  obtain ⟨P, hreach, hP⟩ := Option.map_eq_some_iff.mp hshown
  rw [Prod.mk.injEq, Prod.mk.injEq] at hP
  obtain ⟨tr, hrun, hmem, -⟩ := exists_run_of_reach hreach
  refine ⟨tr, hrun, P, hmem, hP.1, ?_, List.contains_iff_mem.mp hP.2.2, ?_⟩
  · rw [hP.2.1]
    decide
  · rw [hP.2.1]
    rfl

/-- A step that sends no status while another task is live, finds the
subscriber's connection reachable and purges no `t`. -/
def inTurn (t : String) (sub : Subscriber) (P : Server N) : Act Frame (Choice N) → Bool
  | .spawn _ => true
  | .run n c =>
      match P.threads.get n with
      | some (.call e _) =>
          (match e with
            | .effect (.send connection m) =>
                (!isStatus m || P.threads.keys = [n]) && (connection ≠ sub.connection ||
                  (Outbound.writer P.shared.writers connection).isSome &&
                    connection ∉ P.shared.closed)
            | .effect (.writer connection) => connection ≠ sub.connection ||
                (Outbound.writer P.shared.writers connection).isSome &&
                  connection ∉ P.shared.closed
            | _ => true) &&
          ((P.shared.tasks.inner.get t).isNone ||
            ((e.purged c P.shared).inner.get t).isSome)
      | _ => true

theorem inOrder_of_inTurn {P : Server N} {a : Act Frame (Choice N)} (h : inTurn t sub P a = true) :
    InOrder rfc3339 t sub P a := by
  cases a with
  | spawn f => trivial
  | run n c =>
      intro detailed subs hget _ _ _ m p hne hm
      simp only [inTurn, hget, Stage.residual, Bool.and_eq_true, Bool.or_eq_true,
        decide_eq_true_eq] at h
      have hkeys : P.threads.keys = [n] := h.1.1.resolve_left fun hstatus => by cases hstatus
      have hmem : m ∈ P.threads.keys := by
        rw [Dict.mem_keys, hm]
        rfl
      rw [hkeys, List.mem_singleton] at hmem
      exact absurd hmem hne

theorem delivered_of_inTurn {P : Server N} {a : Act Frame (Choice N)}
    (h : inTurn t sub P a = true) : Delivered rfc3339 t sub P a := by
  constructor
  · rintro n c st rfl hget htarget
    have hsome {connection : String} (hconnection : some connection = some sub.connection)
        (h : connection ≠ sub.connection ∨
          (Outbound.writer P.shared.writers connection).isSome = true ∧
            connection ∉ P.shared.closed) : P.shared.Reachable sub.connection := by
      obtain rfl := Option.some.inj hconnection
      exact h.resolve_left fun h => h rfl
    cases st with
    | owing | told | dropping | done => cases htarget
    | showing detailed subs =>
        cases subs with
        | nil => cases htarget
        | cons s subs =>
            have hget' : P.threads.get n = some (.call (.effect (.writer s.connection)) _) := hget
            simp only [inTurn, hget', Bool.and_eq_true, Bool.or_eq_true, decide_eq_true_eq] at h
            exact hsome htarget h.1
    | found detailed s subs =>
        simp only [inTurn, hget, Stage.residual, Bool.and_eq_true, Bool.or_eq_true,
          decide_eq_true_eq] at h
        exact hsome htarget h.1.2
  · rintro n c e k entry rfl hget hstored - hpurged
    simp only [inTurn, hget, hstored, hpurged, Option.isNone_some, Option.isSome_none,
      Bool.or_self, Bool.and_false] at h
    cases h

/-- Where the first push comes to its end before the second starts, the
subscriber is shown that the task asks for input, and then that it has
completed. -/
theorem statuses_of_task :
    ∃ tr, Run (server taskServer fun _ => "").Step
        (Pool.init (Shared.init (SessionStore.withCapacity 8) 8)) tr ∧
      ∃ P ∈ states (Pool.init (Shared.init (SessionStore.withCapacity 8) 8)) tr,
        (shown P.shared.log "t" listener).length = 2 ∧
        ((shown P.shared.log "t" listener).Pairwise fun f g => f.isTerminal = true → g = f) ∧
        (shown P.shared.log "t" listener).getLast? = some .completed := by
  have hshown : (reach (fun P a => if inTurn "t" listener P a then
        (server taskServer fun _ => "").step P a else none)
      (Pool.init (Shared.init (SessionStore.withCapacity 8) 8))
      (listening ["t"] ++ List.replicate 8 (.run 2 (.declined "")) ++
        .spawn (.obtainInput "t" "k" .null) :: List.replicate 6 (.run 3 (.declined "")) ++
          .spawn (.completeTask "t" (.completed .null)) ::
            List.replicate 6 (.run 4 (.declined "")))).map
        (fun P => (P.threads.keys, (shown P.shared.log "t" listener).length,
          P.shared.log.contains (.status "t" .completed))) = some ([], 2, true) := by
    decide +kernel
  obtain ⟨P, hreach, hP⟩ := Option.map_eq_some_iff.mp hshown
  rw [Prod.mk.injEq, Prod.mk.injEq, List.contains_iff_mem] at hP
  obtain ⟨tr, hrun, rfl, hG⟩ := exists_run_of_guarded_reach
    (G := fun P a => InOrder (fun _ => "") "t" listener P a ∧
      Delivered (fun _ => "") "t" listener P a)
    (fun P a h => ⟨inOrder_of_inTurn h, delivered_of_inTurn h⟩) hreach
  have hmem := final_mem_states (Pool.init (Shared.init (SessionStore.withCapacity 8) 8)) tr
  obtain ⟨hregular, hlast⟩ := statuses_in_order taskServer (fun _ => "") _ _ "t" listener hrun
    fun x hx => (hG x hx).1
  refine ⟨tr, hrun, _, hmem, hP.2.1, hregular _ hmem, ?_⟩
  refine hlast (fun x hx => (hG x hx).2) _ hmem (fun n st hget => ?_) _ hP.2.2 rfl fun hnil => ?_
  · exact Pool.idle_of_keys hP.1 n _ hget
  · rw [hnil] at hP
    cases hP.2.1

end TurboMcp.System
