import TurboMcp.Lib.Runs

/-!
# Unwinding

A two-run property of a labelled transition system whose labels carry a clock:
what is done at one level looks the same in any two runs that do the same
there.  `Unwinding` is what one step has to meet: a step of another level keeps
either side of a relation between states, and two steps of the level that look
alike keep it and show the same.  The relation may depend on the time, and only
grows weaker with it.
-/

namespace TurboMcp.Lib

variable {σ α β : Type*}

/-- What a run does at the level `low`, as it looks there. -/
def lows (low : α → Bool) (view : α → β) (tr : List (α × σ)) : List β :=
  ((tr.map Prod.fst).filter low).map view

/-- The steps a run takes at the level `low`. -/
def lowSteps (low : α → Bool) (s : σ) (tr : List (α × σ)) : List (σ × α × σ) :=
  (steps s tr).filter fun x => low x.2.1

/-- The clock of a run never goes back. -/
def Clocked (clock : α → Nat) (tr : List (α × σ)) : Prop :=
  (tr.map fun x => clock x.1).Pairwise (· ≤ ·)

section

variable {low : α → Bool} {view : α → β} {clock : α → Nat} {s t : σ} {a : α}
  {tr : List (α × σ)}

theorem lows_cons_of_low (h : low a = true) :
    lows low view ((a, t) :: tr) = view a :: lows low view tr := by
  unfold lows
  rw [List.map_cons, List.filter_cons_of_pos h, List.map_cons]

theorem lows_cons_of_high (h : low a = false) :
    lows low view ((a, t) :: tr) = lows low view tr := by
  unfold lows
  rw [List.map_cons, List.filter_cons_of_neg (Bool.eq_false_iff.mp h)]

theorem lowSteps_cons_of_low (h : low a = true) :
    lowSteps low s ((a, t) :: tr) = (s, a, t) :: lowSteps low t tr := by
  unfold lowSteps
  rw [steps_cons]
  exact List.filter_cons_of_pos h

theorem lowSteps_cons_of_high (h : low a = false) :
    lowSteps low s ((a, t) :: tr) = lowSteps low t tr := by
  unfold lowSteps
  rw [steps_cons]
  exact List.filter_cons_of_neg (Bool.eq_false_iff.mp h)

theorem clocked_cons :
    Clocked clock ((a, t) :: tr) ↔ (∀ x ∈ tr, clock a ≤ clock x.1) ∧ Clocked clock tr := by
  unfold Clocked
  rw [List.map_cons, List.pairwise_cons, List.forall_mem_map]

end

/-- **Clocked invariant rule**: an invariant that speaks of the time of the last
step holds at some time in every state. -/
theorem clocked_invariant {clock : α → Nat} {P : Nat → σ → Prop} {s : σ} {τ : Nat}
    {tr : List (α × σ)} (hclock : Clocked clock tr) (hτ : ∀ x ∈ tr, τ ≤ clock x.1) (hs : P τ s)
    (hstep : ∀ x ∈ steps s tr, ∀ τ, τ ≤ clock x.2.1 → P τ x.1 → P (clock x.2.1) x.2.2) :
    ∀ t ∈ states s tr, ∃ τ, P τ t := by
  induction tr generalizing s τ with
  | nil =>
      intro t ht
      rw [states_nil, List.mem_singleton] at ht
      subst ht
      exact ⟨τ, hs⟩
  | cons y tr ih =>
      obtain ⟨a, t⟩ := y
      obtain ⟨hnow, hclock⟩ := clocked_cons.mp hclock
      rw [steps_cons, List.forall_mem_cons] at hstep
      rw [states_cons, List.forall_mem_cons]
      refine ⟨⟨τ, hs⟩, ih hclock hnow ?_ hstep.2⟩
      exact hstep.1 τ (hτ (a, t) List.mem_cons_self) hs

/-- What a step has to meet, from states that meet the invariant `I`. -/
structure Unwinding (step : σ → α → σ → Prop) (low : α → Bool) (view : α → β)
    (clock : α → Nat) (I : σ → Prop) (R : Nat → σ → σ → Prop)
    (O : σ × α × σ → σ × α × σ → Prop) : Prop where
  inv : ∀ {s a t}, step s a t → I s → I t
  /-- What looks alike is done at the same time. -/
  clock_view : ∀ {a a'}, view a = view a' → clock a = clock a'
  mono : ∀ {τ τ' s t}, τ ≤ τ' → R τ s t → R τ' s t
  symm : ∀ {τ s t}, R τ s t → R τ t s
  high : ∀ {s a t u τ}, step s a t → I s → low a = false → clock a ≤ τ → R τ s u → R τ t u
  low : ∀ {s a t s' a' t'}, step s a t → step s' a' t' → I s → I s' → low a = true →
    low a' = true → view a = view a' → R (clock a) s s' →
    R (clock a) t t' ∧ O (s, a, t) (s', a', t')

namespace Unwinding

variable {step : σ → α → σ → Prop} {low : α → Bool} {view : α → β} {clock : α → Nat}
  {I : σ → Prop} {R : Nat → σ → σ → Prop} {O : σ × α × σ → σ × α × σ → Prop}

/-- A step at the level is done at a time of the other run's steps there. -/
theorem le_clock_of_lows (h : Unwinding step low view clock I R O) {τ : Nat}
    {tr tr' : List (α × σ)} (hlows : lows low view tr = lows low view tr')
    (hτ : ∀ x ∈ tr, low x.1 = true → τ ≤ clock x.1) :
    ∀ x ∈ tr', low x.1 = true → τ ≤ clock x.1 := by
  intro x hx hlow
  have hmem : view x.1 ∈ lows low view tr' :=
    List.mem_map_of_mem (List.mem_filter.mpr ⟨List.mem_map_of_mem hx, hlow⟩)
  rw [← hlows] at hmem
  obtain ⟨a, ha, hview⟩ := List.mem_map.mp hmem
  obtain ⟨hmem, hlow'⟩ := List.mem_filter.mp ha
  obtain ⟨y, hy, rfl⟩ := List.mem_map.mp hmem
  rw [← h.clock_view hview]
  exact hτ y hy hlow'

/-- **Unwinding rule**: two runs that do the same at the level show the same
there, step by step. -/
theorem forall₂_lowSteps (h : Unwinding step low view clock I R O) {s s' : σ} {τ : Nat}
    {tr tr' : List (α × σ)} (hrun : Run step s tr) (hrun' : Run step s' tr') (hs : I s)
    (hs' : I s') (hR : R τ s s') (hclock : Clocked clock tr) (hclock' : Clocked clock tr')
    (hτ : ∀ x ∈ tr, low x.1 = true → τ ≤ clock x.1)
    (hlows : lows low view tr = lows low view tr') :
    List.Forall₂ O (lowSteps low s tr) (lowSteps low s' tr') := by
  induction tr generalizing s s' τ tr' with
  | nil =>
      -- nothing is left at the level in the other run either
      have hnone : lowSteps low s' tr' = [] := by
        unfold lowSteps
        rw [List.filter_eq_nil_iff]
        intro x hx hlow
        have hmem : view x.2.1 ∈ lows low view tr' := by
          refine List.mem_map_of_mem (List.mem_filter.mpr ⟨?_, hlow⟩)
          rw [← map_label_steps s' tr']
          exact List.mem_map_of_mem hx
        rw [← hlows] at hmem
        cases hmem
      rw [hnone]
      exact List.Forall₂.nil
  | cons x tr ih =>
      obtain ⟨a, t⟩ := x
      obtain ⟨hstep, hrest⟩ := run_cons.mp hrun
      obtain ⟨hnow, hclock⟩ := clocked_cons.mp hclock
      rcases hlow : low a with _ | _
      · -- a step of another level on the left
        rw [lowSteps_cons_of_high hlow]
        rw [lows_cons_of_high hlow] at hlows
        have hR' : R (max τ (clock a)) t s' :=
          h.high hstep hs hlow (Nat.le_max_right ..) (h.mono (Nat.le_max_left ..) hR)
        refine ih hrest hrun' (h.inv hstep hs) hs' hR' hclock hclock' ?_ hlows
        intro y hy hlowy
        exact Nat.max_le.mpr ⟨hτ y (List.mem_cons_of_mem _ hy) hlowy, hnow y hy⟩
      · rw [lowSteps_cons_of_low hlow]
        rw [lows_cons_of_low hlow] at hlows
        have hτa : τ ≤ clock a := hτ (a, t) List.mem_cons_self hlow
        induction tr' generalizing s' τ with
        | nil => cases hlows
        | cons x' tr' ih' =>
            obtain ⟨a', t'⟩ := x'
            obtain ⟨hstep', hrest'⟩ := run_cons.mp hrun'
            obtain ⟨hnow', hclock'⟩ := clocked_cons.mp hclock'
            rcases hlow' : low a' with _ | _
            · -- a step of another level on the right
              rw [lowSteps_cons_of_high hlow']
              rw [lows_cons_of_high hlow'] at hlows
              have hR' : R (max τ (clock a')) s t' :=
                h.symm (h.high hstep' hs' hlow' (Nat.le_max_right ..)
                  (h.symm (h.mono (Nat.le_max_left ..) hR)))
              have hlows' : lows low view tr' = lows low view ((a, t) :: tr) := by
                rw [lows_cons_of_low hlow]
                exact hlows.symm
              have hτ' : ∀ y ∈ (a, t) :: tr, low y.1 = true → max τ (clock a') ≤ clock y.1 := by
                intro y hy hlowy
                have hlater := h.le_clock_of_lows hlows' (fun z hz _ => hnow' z hz) y hy hlowy
                exact Nat.max_le.mpr ⟨hτ y hy hlowy, hlater⟩
              exact ih' hrest' (h.inv hstep' hs') hR' hclock' hτ' hlows (hτ' _ List.mem_cons_self hlow)
            · rw [lowSteps_cons_of_low hlow']
              rw [lows_cons_of_low hlow', List.cons.injEq] at hlows
              obtain ⟨hview, hlows⟩ := hlows
              obtain ⟨hR', hO⟩ := h.low hstep hstep' hs hs' hlow hlow' hview (h.mono hτa hR)
              refine List.Forall₂.cons hO ?_
              exact ih hrest hrest' (h.inv hstep hs) (h.inv hstep' hs') hR' hclock hclock'
                (fun y hy _ => hnow y hy) hlows

end Unwinding

end TurboMcp.Lib
