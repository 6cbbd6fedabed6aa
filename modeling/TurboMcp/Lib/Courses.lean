import TurboMcp.Lib.Pool
import TurboMcp.Lib.Protocol

/-!
# Courses

A course is a run that does not end: at each moment the system makes a step, or
rests.  What happens eventually happens on courses that are fair.  Fairness is
asked only of the threads it matters for: those with a program in `W` get their
turn again and again, for as long as they are such.  Where such turns lower a
rank that nothing raises, what is waited for comes (`Course.eventually_of_descent`).

In a pool what is left of a program goes on with its next answer, if the course
is fair to what is left of it (`Course.Left.answered`).
-/

namespace TurboMcp.Lib

variable {σ α : Type*}

structure Course (step : σ → α → σ → Prop) where
  state : Nat → σ
  /-- What happens at each moment, if anything does. -/
  label : Nat → Option α
  moves : ∀ t a, label t = some a → step (state t) a (state (t + 1))
  rests : ∀ t, label t = none → state (t + 1) = state t

namespace Course

variable {step : σ → α → σ → Prop}

theorem invariant {P : σ → Prop} (c : Course step) (h₀ : P (c.state 0))
    (hstep : ∀ s a t, step s a t → P s → P t) : ∀ t, P (c.state t) := by
  intro t
  induction t with
  | zero => exact h₀
  | succ t ih =>
      rcases hlabel : c.label t with _ | a
      · rw [c.rests t hlabel]
        exact ih
      · exact hstep _ a _ (c.moves t a hlabel) ih

/-- A run, and rest. -/
def ofRun (s : σ) (tr : List (α × σ)) (hrun : Run step s tr) : Course step where
  state t := final s (tr.take t)
  label t := (tr[t]?).map Prod.fst
  moves t a hlabel := by
    obtain ⟨⟨b, u⟩, hget, rfl⟩ := Option.map_eq_some_iff.mp hlabel
    have htake : tr.take (t + 1) = tr.take t ++ [(b, u)] := by
      rw [List.take_add_one, hget]
      rfl
    have hpart : Run step s (tr.take (t + 1)) := by
      have hall : Run step s (tr.take (t + 1) ++ tr.drop (t + 1)) := by
        rw [List.take_append_drop]
        exact hrun
      exact (run_append.mp hall).1
    rw [htake] at hpart ⊢
    rw [final_append]
    exact (run_cons.mp (run_append.mp hpart).2).1
  rests t hlabel := by
    have hlen : tr.length ≤ t := List.getElem?_eq_none_iff.mp (Option.map_eq_none_iff.mp hlabel)
    rw [List.take_of_length_le hlen, List.take_of_length_le (Nat.le_succ_of_le hlen)]

/-- Steps that are `own` get their turn: what stays `ready` for ever takes one. -/
def Fair (c : Course step) (own : α → Prop) (ready : σ → Prop) : Prop :=
  ∀ t, (∀ u, t ≤ u → ready (c.state u)) → ∃ u a, t ≤ u ∧ c.label u = some a ∧ own a

/-- What a course that is a run does at a moment is a step of the run. -/
theorem mem_steps_of_label {s : σ} {tr : List (α × σ)} {hrun : Run step s tr} {t : Nat} {a : α}
    (hlabel : (ofRun s tr hrun).label t = some a) :
    ∃ u, ((ofRun s tr hrun).state t, a, u) ∈ steps s tr := by
  obtain ⟨⟨b, u⟩, hget, rfl⟩ := Option.map_eq_some_iff.mp hlabel
  refine ⟨u, ?_⟩
  show (final s (tr.take t), b, u) ∈ steps s tr
  clear hlabel hrun
  induction tr generalizing s t with
  | nil => cases hget
  | cons y tr ih =>
      obtain ⟨b', u'⟩ := y
      cases t with
      | zero =>
          cases hget
          exact List.mem_cons_self
      | succ t => exact List.mem_cons_of_mem _ (ih hget)

/-- **Descent**: where no step leads away from `P` but to `Q`, none raises the
rank, own steps lower it, and their turn comes as long as `Q` is not reached,
`P` leads to `Q`. -/
theorem eventually_of_descent {c : Course step} {own : α → Prop} {ready P Q : σ → Prop}
    (hfair : c.Fair own ready) (rank : σ → Nat) {t : Nat}
    (hready : ∀ u, t ≤ u → P (c.state u) → ¬ Q (c.state u) → ready (c.state u))
    (hstep : ∀ u a, t ≤ u → c.label u = some a → P (c.state u) → ¬ Q (c.state u) →
      Q (c.state (u + 1)) ∨ P (c.state (u + 1)) ∧ rank (c.state (u + 1)) ≤ rank (c.state u) ∧
        (own a → rank (c.state (u + 1)) < rank (c.state u)))
    (hP : P (c.state t)) : ∃ u, t ≤ u ∧ Q (c.state u) := by
  by_contra hnever
  push Not at hnever
  induction hrank : rank (c.state t) using Nat.strongRecOn generalizing t with
  | ind n ih =>
      have hlater (d : Nat) : P (c.state (t + d)) ∧ rank (c.state (t + d)) ≤ rank (c.state t) := by
        induction d with
        | zero => exact ⟨hP, Nat.le_refl _⟩
        | succ d ihd =>
            have hd := Nat.le_add_right t d
            rw [← Nat.add_assoc]
            rcases hlabel : c.label (t + d) with _ | a
            · rw [c.rests _ hlabel]
              exact ihd
            · rcases hstep _ a hd hlabel ihd.1 (hnever _ hd) with hQ | ⟨hP', hle, -⟩
              · exact absurd hQ (hnever _ (Nat.le_succ_of_le hd))
              · exact ⟨hP', Nat.le_trans hle ihd.2⟩
      have hfrom {u : Nat} (hu : t ≤ u) :
          P (c.state u) ∧ rank (c.state u) ≤ rank (c.state t) := by
        obtain ⟨d, rfl⟩ := Nat.exists_eq_add_of_le hu
        exact hlater d
      obtain ⟨u, a, hu, hlabel, hown⟩ :=
        hfair t fun u hu => hready u hu (hfrom hu).1 (hnever u hu)
      have hafter {v : Nat} (hv : u + 1 ≤ v) : t ≤ v := Nat.le_trans hu (Nat.le_of_succ_le hv)
      rcases hstep u a hu hlabel (hfrom hu).1 (hnever u hu) with hQ | ⟨hP', -, hlt⟩
      · exact hnever (u + 1) (hafter (Nat.le_refl _)) hQ
      · refine ih _ ?_ (fun v hv => hready v (hafter hv)) (fun v a hv => hstep v a (hafter hv)) hP'
          (fun v hv => hnever v (hafter hv)) rfl
        rw [← hrank]
        exact Nat.lt_of_lt_of_le (hlt hown) (hfrom hu).2

/-- **Descent with waits**: where own turns lower a rank that nothing raises, and
who is held up by `Q` comes free again and stays so until its turn, `P` ends. -/
theorem ends_of_descent {c : Course step} {own : α → Prop} {ready P Q : σ → Prop}
    (hfair : c.Fair own ready) (rank : σ → Nat) {t : Nat}
    (hfreed : ∀ u, P (c.state u) → Q (c.state u) → ∃ v, u ≤ v ∧ ¬ Q (c.state v))
    (hready : ∀ u, P (c.state u) → ¬ Q (c.state u) → ready (c.state u))
    (hstep : ∀ u a, c.label u = some a → P (c.state u) → P (c.state (u + 1)) →
      (own a → rank (c.state (u + 1)) < rank (c.state u)) ∧
        (¬ own a → rank (c.state (u + 1)) ≤ rank (c.state u) ∧
          (¬ Q (c.state u) → ¬ Q (c.state (u + 1))))) :
    ∃ u, t ≤ u ∧ ¬ P (c.state u) := by
  by_contra hnever
  push Not at hnever
  induction hrank : rank (c.state t) using Nat.strongRecOn generalizing t with
  | ind n ih =>
      have hstep {u : Nat} {a : α} (hu : t ≤ u) (hlabel : c.label u = some a) :=
        hstep u a hlabel (hnever u hu) (hnever _ (Nat.le_succ_of_le hu))
      have hle (d : Nat) : rank (c.state (t + d)) ≤ n := by
        induction d with
        | zero => exact Nat.le_of_eq hrank
        | succ d ihd =>
            rw [← Nat.add_assoc]
            rcases hlabel : c.label (t + d) with _ | a
            · rw [c.rests _ hlabel]
              exact ihd
            · obtain ⟨hown, hother⟩ := hstep (Nat.le_add_right t d) hlabel
              by_cases ha : own a
              · exact Nat.le_trans (Nat.le_of_lt (hown ha)) ihd
              · exact Nat.le_trans (hother ha).1 ihd
      obtain ⟨d, hfree⟩ : ∃ d, ¬ Q (c.state (t + d)) := by
        by_cases hheld : Q (c.state t)
        · obtain ⟨u, hu, hfree⟩ := hfreed t (hnever t (Nat.le_refl t)) hheld
          obtain ⟨d, rfl⟩ := Nat.exists_eq_add_of_le hu
          exact ⟨d, hfree⟩
        · exact ⟨0, hheld⟩
      have hfrom {u : Nat} (hu : t + d ≤ u) : t ≤ u := Nat.le_trans (Nat.le_add_right t d) hu
      -- up to its next turn it is not held up
      obtain ⟨u, hu, hlt⟩ := eventually_of_descent
        (P := fun s => ¬ Q s ∧ rank s ≤ n) (Q := fun s => rank s < n) hfair (fun _ => 0)
        (fun u hu hP _ => hready u (hnever u (hfrom hu)) hP.1)
        (fun u a hu hlabel hP _ => by
          obtain ⟨hown, hother⟩ := hstep (hfrom hu) hlabel
          by_cases ha : own a
          · exact .inl (Nat.lt_of_lt_of_le (hown ha) hP.2)
          · obtain ⟨hle', hfree'⟩ := hother ha
            exact .inr ⟨⟨hfree' hP.1, Nat.le_trans hle' hP.2⟩, Nat.le_refl _, fun h => absurd h ha⟩)
        ⟨hfree, hle d⟩
      exact ih _ hlt (fun v hv => hnever v (Nat.le_trans (hfrom hu) hv)) rfl

/-- A course that comes to rest is fair when it ends where nothing is ready. -/
theorem fair_ofRun {s : σ} {tr : List (α × σ)} {hrun : Run step s tr} {own : α → Prop}
    {ready : σ → Prop} (hdone : ¬ ready (final s tr)) : (ofRun s tr hrun).Fair own ready := by
  intro t hready
  refine absurd (hready (t + tr.length) (Nat.le_add_right _ _)) ?_
  have hend : (ofRun s tr hrun).state (t + tr.length) = final s tr :=
    congrArg (final s) (List.take_of_length_le (Nat.le_add_left _ _))
  rw [hend]
  exact hdone

end Course

/-! ## Courses of pools -/

namespace Course

variable {S E : Type} {R : E → Type} {F C : Type} {m : Machine S E R F C}

/-- Thread `n` takes a step at `t`. -/
def Takes (c : Course m.Step) (n t : Nat) : Prop := ∃ choice, c.label t = some (.run n choice)

/-- Some thread performs the effect at `t`. -/
def Performs (c : Course m.Step) (e : E) (t : Nat) : Prop :=
  ∃ n k, c.Takes n t ∧ (c.state t).threads.get n = some (.call e k)

/-- A thread whose program is in `W` takes a step sometime. -/
def FairTo (c : Course m.Step) (W : Program E R Unit → Prop) : Prop :=
  ∀ t n p, (c.state t).threads.get n = some p → W p → ∃ t', t ≤ t' ∧ c.Takes n t'

variable {c : Course m.Step} {n : Nat} {p : Program E R Unit}

/-- A thread is as it was until it takes a step. -/
theorem stays (hnum : ∀ t, Machine.Numbered (c.state t)) {t : Nat}
    (hget : (c.state t).threads.get n = some p) (htakes : ¬ c.Takes n t) :
    (c.state (t + 1)).threads.get n = some p := by
  rcases hlabel : c.label t with _ | a
  · rw [c.rests t hlabel]
    exact hget
  · have hother {n' : Nat} {choice : C} (ha : a = .run n' choice) : n' ≠ n := by
      rintro rfl
      exact htakes ⟨choice, hlabel.trans (congrArg some ha)⟩
    have hstepped := (c.moves t a hlabel).stepped
    generalize c.state (t + 1) = P' at hstepped ⊢
    cases hstepped with
    | spawn =>
        rw [Pool.get_spawned, if_neg (Ne.symm (Nat.ne_of_lt (hnum t n p hget)))]
        exact hget
    | finish _ =>
        rw [Pool.get_ended, if_neg (hother rfl)]
        exact hget
    | answer _ _ =>
        rw [Pool.get_resumed, if_neg (hother rfl)]
        exact hget
    | panic _ _ =>
        rw [Pool.get_ended, if_neg (hother rfl)]
        exact hget

/-- Where a thread is owed a step it takes the next one as it is. -/
theorem takes_next (hnum : ∀ t, Machine.Numbered (c.state t))
    {W : Program E R Unit → Prop} (hfair : c.FairTo W) {t : Nat}
    (hget : (c.state t).threads.get n = some p) (hp : W p) :
    ∃ t', t ≤ t' ∧ c.Takes n t' ∧ (c.state t').threads.get n = some p := by
  obtain ⟨u, htu, htakes⟩ := hfair t n p hget hp
  -- on how long it takes
  induction hd : u - t generalizing t with
  | zero =>
      have hut : u = t := by omega
      subst hut
      exact ⟨u, htu, htakes, hget⟩
  | succ d ih =>
      by_cases hnow : c.Takes n t
      · exact ⟨t, Nat.le_refl t, hnow, hget⟩
      · have hlater := stays hnum hget hnow
        obtain ⟨t', hle, htakes', hget'⟩ := ih hlater (by omega) (by omega)
        exact ⟨t', by omega, htakes', hget'⟩

/-- A course that comes to rest is fair when it leaves no one waiting. -/
theorem fairTo_ofRun {s : Pool S E R F} {tr : List (Act F C × Pool S E R F)}
    {hrun : Run m.Step s tr} {W : Program E R Unit → Prop}
    (hnum : ∀ t, Machine.Numbered ((ofRun s tr hrun).state t))
    (hdone : ∀ n p, (final s tr).threads.get n = some p → ¬ W p) :
    (ofRun s tr hrun).FairTo W := by
  intro t n p hget hp
  by_contra hnever
  have hstill (d : Nat) : ((ofRun s tr hrun).state (t + d)).threads.get n = some p := by
    induction d with
    | zero => exact hget
    | succ d ih =>
        exact stays hnum ih fun htakes => hnever ⟨t + d, Nat.le_add_right t d, htakes⟩
  have hfinal : (ofRun s tr hrun).state (t + tr.length) = final s tr :=
    congrArg (final s) (List.take_of_length_le (Nat.le_add_left _ _))
  have hend := hstill tr.length
  rw [hfinal] at hend
  exact hdone n p hend hp

/-- Thread `n` performs the effect at `t`. -/
def PerformedBy (c : Course m.Step) (n : Nat) (e : E) (t : Nat) : Prop :=
  c.Takes n t ∧ ∃ k, (c.state t).threads.get n = some (.call e k)

/-- At `t` thread `n` runs `p`, which is left of `p₀`. -/
structure Left (c : Course m.Step) (p₀ : Program E R Unit) (n t : Nat) (p : Program E R Unit) :
    Prop where
  get : (c.state t).threads.get n = some p
  left : Program.LeftOf p₀ p

variable {p₀ : Program E R Unit} {e : E} {k : R e → Program E R Unit}

/-- What is left of a program that is owed its turns performs its next effect. -/
theorem Left.performs (hnum : ∀ t, Machine.Numbered (c.state t))
    (hfair : c.FairTo (Program.LeftOf p₀)) {t : Nat} (h : c.Left p₀ n t (.call e k)) :
    ∃ u, t ≤ u ∧ c.PerformedBy n e u ∧ (c.state u).threads.get n = some (.call e k) := by
  obtain ⟨u, hle, htakes, hget⟩ := takes_next hnum hfair h.get h.left
  exact ⟨u, hle, ⟨htakes, k, hget⟩, hget⟩

/-- **Its next answer**: what is left of a program that is owed its turns goes on
with the answer to an effect that does not panic. -/
theorem Left.answered (hnum : ∀ t, Machine.Numbered (c.state t))
    (hfair : c.FairTo (Program.LeftOf p₀)) {t : Nat} (h : c.Left p₀ n t (.call e k))
    (hsafe : ∀ choice s s', m.exec n choice s e ≠ .panic s') :
    ∃ u choice r, t ≤ u ∧ c.PerformedBy n e u ∧
      m.exec n choice (c.state u).shared e = .answer r (c.state (u + 1)).shared ∧
      c.Left p₀ n (u + 1) (k r) := by
  obtain ⟨u, hle, hperformed, hget⟩ := h.performs hnum hfair
  obtain ⟨choice, hlabel⟩ := hperformed.1
  rcases hx : m.exec n choice (c.state u).shared e with ⟨r, s⟩ | s
  · have hnext := (c.moves u _ hlabel).resumed hget hx
    refine ⟨u, choice, r, hle, hperformed, ?_, ?_, .answered h.left r⟩
    · rw [hnext]
      exact hx
    · rw [hnext, Pool.get_resumed, if_pos rfl]
  · exact absurd hx (hsafe choice _ s)

end Course

end TurboMcp.Lib
