import TurboMcp.System.Shown

/-!
# The order of a task's statuses

A push reads the task and delivers what it read later, so two pushes may
overtake each other.  Where no other push is still to show a subscriber an
earlier status when a terminal one is enqueued for it, none follows.
-/

namespace TurboMcp.System

open TurboMcp.Core TurboMcp.Lib TurboMcp.Server TurboMcp.ExtTasks

variable {N : Type} {d : VersionDispatcher N} {rfc3339 : Nat → String} {t : String}
  {sub : Subscriber}

/-! ## In order -/

def NonTerminal (f : TaskStatus) : Prop := f.isTerminal = false

/-- **The condition**: when a terminal status is enqueued for the subscriber, no
other push is still to show it an earlier one. -/
def InOrder (rfc3339 : Nat → String) (t : String) (sub : Subscriber) (P : Server N) :
    Act Frame (Choice N) → Prop
  | .spawn _ => True
  | .run n _ => ∀ detailed subs,
      P.threads.get n = some ((Stage.found detailed sub subs).residual rfc3339) →
      detailed.task.taskId = t → detailed.task.status.isTerminal = true →
      sub.connection ∉ P.shared.closed →
      ∀ m p, m ≠ n → P.threads.get m = some p → ¬ MayShow t sub NonTerminal p

/-- What a task may show is in the log; and once a terminal status has been
shown, nothing else is shown any more. -/
structure Showing (rfc3339 : Nat → String) (t : String) (sub : Subscriber) (log : List Event)
    (p : Proc N Unit) : Prop where
  staged : Staged rfc3339 p
  read : ∀ f, MayShow t sub (· = f) p → .status t f ∈ log
  settled : ∀ g ∈ shown log t sub, g.isTerminal = true → ¬ MayShow t sub NonTerminal p

/-- No status follows a terminal one. -/
def Regular (statuses : List TaskStatus) : Prop :=
  statuses.Pairwise fun f g => f.isTerminal = true → g = f

structure ShownInOrder (rfc3339 : Nat → String) (t : String) (sub : Subscriber) (P : Server N) :
    Prop where
  tasks : Threads (fun s _ _ p => Showing rfc3339 t sub s.log p) P
  remembers : P.shared.Remembers
  logged : ∀ f ∈ shown P.shared.log t sub, .status t f ∈ P.shared.log
  regular : Regular (shown P.shared.log t sub)

theorem shownInOrder_init (sessions : SessionStore) (taskCapacity : Nat) :
    ShownInOrder rfc3339 t sub
      (Pool.init (Shared.init sessions taskCapacity) : Server N) := by
  refine ⟨nofun, remembers_init sessions taskCapacity, fun f hf => ?_, List.Pairwise.nil⟩
  cases hf

theorem showing_of_prelude {log : List Event} {p : Proc N Unit} (hp : Prelude rfc3339 p) :
    Showing rfc3339 t sub log p :=
  ⟨Or.inl hp, fun _ h => absurd h (not_mayShow_of_prelude hp),
    fun _ _ _ => not_mayShow_of_prelude hp⟩

section

variable {n : Nat} {c : Choice N} {s s' : Shared} {a : Section} {r : Reply N a}
  {k : Reply N a → Proc N Unit}

theorem status_of_answer (h : runSection n c s a = .answer r s') {f : TaskStatus}
    (hf : .status t f ∈ s.log) : .status t f ∈ s'.log := by
  rw [(ran_of_answer h).log]
  exact List.mem_append_left _ hf

/-- **The task that moves.** -/
theorem Showing.after (h : runSection n c s a = .answer r s') (hs : s.Remembers)
    (hlogged : ∀ f ∈ shown s.log t sub, .status t f ∈ s.log)
    (hp : Showing rfc3339 t sub s.log (.call a k)) : Showing rfc3339 t sub s'.log (k r) := by
  have hs' := remembers_after hs h
  refine ⟨hp.staged.after r, fun f hm => ?_, fun g hg hterminal hm => ?_⟩
  · by_cases ha : ∀ op, a ≠ .task op
    · exact status_of_answer h (hp.read f (.later ha hm))
    · push Not at ha
      obtain ⟨op, ha⟩ := ha
      obtain ⟨⟨e, hget, rfl⟩, -⟩ := read_of_mayShow ha hp.staged h hm
      exact hs'.logged t e hget
  · rcases shown_of_staged t sub hp.staged h with
      hsame | ⟨detailed, subs, hfound, -, -, hk, hshown⟩
    · rw [hsame] at hg
      by_cases ha : ∀ op, a ≠ .task op
      · exact hp.settled g hg hterminal (.later ha hm)
      · push Not at ha
        obtain ⟨op, ha⟩ := ha
        obtain ⟨⟨e, hget, hstatus⟩, -⟩ := read_of_mayShow ha hp.staged h hm
        rw [NonTerminal, hs'.last t g e (status_of_answer h (hlogged g hg)) hterminal hget,
          hterminal] at hstatus
        cases hstatus
    · rw [hshown, List.mem_append, List.mem_singleton] at hg
      rcases hg with hg | rfl
      · refine hp.settled g hg hterminal (.later (r := r) ?_ hm)
        rintro op rfl
        cases hfound
      · rw [hk] at hm
        obtain ⟨-, hstatus, -⟩ := mayShow_deliverStatus hm
        rw [NonTerminal, hterminal] at hstatus
        cases hstatus

/-- **The tasks that do not move.** -/
theorem Showing.other {p : Proc N Unit} (h : runSection n c s a = .answer r s')
    (hstaged : Staged rfc3339 (.call a k))
    (hG : ∀ detailed subs, .call a k = (Stage.found detailed sub subs).residual (N := N) rfc3339 →
      detailed.task.taskId = t → detailed.task.status.isTerminal = true →
      sub.connection ∉ s.closed → ¬ MayShow t sub NonTerminal p)
    (hp : Showing rfc3339 t sub s.log p) : Showing rfc3339 t sub s'.log p := by
  refine ⟨hp.staged, fun f hm => status_of_answer h (hp.read f hm), fun g hg hterminal => ?_⟩
  rcases shown_of_staged t sub hstaged h with
    hsame | ⟨detailed, subs, hfound, ht, hopen, -, hshown⟩
  · rw [hsame] at hg
    exact hp.settled g hg hterminal
  · rw [hshown, List.mem_append, List.mem_singleton] at hg
    rcases hg with hg | rfl
    · exact hp.settled g hg hterminal
    · exact hG detailed subs hfound ht hterminal hopen

/-- **What is shown.** -/
theorem shown_after (h : runSection n c s a = .answer r s') (hs : s.Remembers)
    (hp : Showing rfc3339 t sub s.log (.call a k))
    (hlogged : ∀ f ∈ shown s.log t sub, .status t f ∈ s.log)
    (hregular : Regular (shown s.log t sub)) :
    (∀ f ∈ shown s'.log t sub, .status t f ∈ s'.log) ∧ Regular (shown s'.log t sub) := by
  rcases shown_of_staged t sub hp.staged h with
    hsame | ⟨detailed, subs, hfound, ht, hopen, hk, hshown⟩
  · rw [hsame]
    exact ⟨fun f hf => status_of_answer h (hlogged f hf), hregular⟩
  · have hnow {Q : TaskStatus → Prop} (hQ : Q detailed.task.status) :
        MayShow t sub Q (.call a k) := by
      rw [hfound]
      refine .now ?_ hQ (forSubscription_statusNotification rfc3339 detailed sub)
      rw [statusShown_statusNotification, if_pos ht]
    have hread := hp.read _ (hnow rfl)
    rw [hshown]
    refine ⟨fun f hf => ?_, ?_⟩
    · rw [List.mem_append, List.mem_singleton] at hf
      rcases hf with hf | rfl
      · exact status_of_answer h (hlogged f hf)
      · exact status_of_answer h hread
    · refine List.pairwise_append.mpr ⟨hregular, List.pairwise_singleton _ _, ?_⟩
      intro f hf g hg hterminal
      rw [List.mem_singleton] at hg
      subst hg
      have hstatus : detailed.task.status.isTerminal = true := by
        by_contra hstatus
        exact hp.settled f hf hterminal (hnow (Bool.eq_false_iff.mpr hstatus))
      exact hs.unique t _ f hread hstatus (hlogged f hf) hterminal

end

theorem ShownInOrder.showing {P : Server N} (hP : ShownInOrder rfc3339 t sub P) {n : Nat}
    {p : Proc N Unit} (hget : P.threads.get n = some p) :
    Showing rfc3339 t sub P.shared.log p := by
  obtain ⟨-, -, h⟩ := hP.tasks n p hget
  exact h

theorem shownInOrder_step {P P' : Server N} {a : Act Frame (Choice N)}
    (h : (server d rfc3339).Step P a P') (hG : InOrder rfc3339 t sub P a)
    (hP : ShownInOrder rfc3339 t sub P) : ShownInOrder rfc3339 t sub P' := by
  have hshown : (∀ f ∈ shown P'.shared.log t sub, .status t f ∈ P'.shared.log) ∧
      Regular (shown P'.shared.log t sub) := by
    refine shared_step h (I := fun s => (∀ f ∈ shown s.log t sub, .status t f ∈ s.log) ∧
      Regular (shown s.log t sub)) ⟨hP.logged, hP.regular⟩ (fun s b hs => hs) ?_
    intro n c e k r s _ hget hx
    exact shown_after hx hP.remembers (hP.showing hget) hP.logged hP.regular
  refine ⟨?_, remembers_step h hP.remembers, hshown.1, hshown.2⟩
  refine threads_step h hP.tasks ?_ ?_ ?_ ?_
  · intro f _
    exact showing_of_prelude (prelude_startFrame d rfc3339 f)
  · intro s b n f p hJ
    exact hJ
  · intro n f c e k r s _ _ _ hJ hx
    exact hJ.after hx hP.remembers hP.logged
  · rintro n c e k r s m f p rfl hget hx hne hm - hJ
    refine hJ.other hx (hP.showing hget).staged fun detailed subs hfound ht hterminal hopen => ?_
    exact hG detailed subs (hfound ▸ hget) ht hterminal hopen m p hne hm

end TurboMcp.System
