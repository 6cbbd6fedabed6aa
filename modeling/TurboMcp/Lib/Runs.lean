import Mathlib.Data.List.Basic
import Mathlib.Logic.Relation

/-!
# Runs of labelled transition systems

A run from `s` is the list of its labelled steps, each with the state it ends
in.  `states` and `steps` read off what the run visits; `Run` says every step
is one of the system's.  The two rules below are the only induction a safety
proof needs: an invariant kept by every step of the run holds in every state
(`Run.invariant`), and a property that each step keeps exactly under a guard
holds throughout if and only if every step meets the guard
(`Run.forall_states_iff`).
-/

namespace TurboMcp.Lib

variable {σ α : Type*}

/-- The states a run visits, the first one included. -/
def states (s : σ) (tr : List (α × σ)) : List σ := s :: tr.map Prod.snd

/-- The steps of a run: source, label, target. -/
def steps : σ → List (α × σ) → List (σ × α × σ)
  | _, [] => []
  | s, (a, t) :: tr => (s, a, t) :: steps t tr

/-- The state a run ends in. -/
def final : σ → List (α × σ) → σ
  | s, [] => s
  | _, (_, t) :: tr => final t tr

/-- `tr` is a run of the system `step` from `s`. -/
def Run (step : σ → α → σ → Prop) (s : σ) (tr : List (α × σ)) : Prop :=
  ∀ x ∈ steps s tr, step x.1 x.2.1 x.2.2

/-- The run of a deterministic system on a list of labels. -/
def trace (f : σ → α → σ) : σ → List α → List (α × σ)
  | _, [] => []
  | s, a :: as => (a, f s a) :: trace f (f s a) as

/-- Where a partial step function gets on a list of labels. -/
def reach (f : σ → α → Option σ) : σ → List α → Option σ
  | s, [] => some s
  | s, a :: as => (f s a).bind fun t => reach f t as

@[simp] theorem states_nil (s : σ) : states s ([] : List (α × σ)) = [s] := rfl

@[simp] theorem states_cons (s t : σ) (a : α) (tr : List (α × σ)) :
    states s ((a, t) :: tr) = s :: states t tr := rfl

@[simp] theorem steps_nil (s : σ) : steps s ([] : List (α × σ)) = [] := rfl

@[simp] theorem steps_cons (s t : σ) (a : α) (tr : List (α × σ)) :
    steps s ((a, t) :: tr) = (s, a, t) :: steps t tr := rfl

@[simp] theorem run_nil {step : σ → α → σ → Prop} (s : σ) : Run step s [] := by
  simp [Run]

@[simp] theorem run_cons {step : σ → α → σ → Prop} {s t : σ} {a : α}
    {tr : List (α × σ)} :
    Run step s ((a, t) :: tr) ↔ step s a t ∧ Run step t tr := by
  simp [Run]

theorem run_trace (f : σ → α → σ) (s : σ) (as : List α) :
    Run (fun s a t => f s a = t) s (trace f s as) := by
  induction as generalizing s with
  | nil => exact run_nil s
  | cons a as ih => exact run_cons.mpr ⟨rfl, ih (f s a)⟩

/-- Whether each label of a list passes a check where it is taken. -/
def checked (f : σ → α → σ) (check : σ → α → Bool) : σ → List α → Bool
  | _, [] => true
  | s, a :: as => check s a && checked f check (f s a) as

theorem run_trace_of_checked {step : σ → α → σ → Prop} {f : σ → α → σ} {check : σ → α → Bool}
    (hcheck : ∀ s a, check s a = true → step s a (f s a)) {s : σ} {as : List α}
    (h : checked f check s as = true) : Run step s (trace f s as) := by
  induction as generalizing s with
  | nil => exact run_nil s
  | cons a as ih =>
      unfold checked at h
      rw [Bool.and_eq_true] at h
      exact run_cons.mpr ⟨hcheck s a h.1, ih h.2⟩

theorem reach_append (f : σ → α → Option σ) (s : σ) (as bs : List α) :
    reach f s (as ++ bs) = (reach f s as).bind fun t => reach f t bs := by
  induction as generalizing s with
  | nil => rfl
  | cons a as ih =>
      rw [List.cons_append, reach, reach, Option.bind_assoc]
      simp only [ih]

/-- The run on a list of labels that are all enabled. -/
theorem exists_run_to {f : σ → α → Option σ} {s t : σ} {as : List α}
    (h : reach f s as = some t) :
    ∃ tr, Run (fun s a t => f s a = some t) s tr ∧ final s tr = t ∧
      ∀ x ∈ steps s tr, x.2.1 ∈ as := by
  induction as generalizing s with
  | nil =>
      cases h
      exact ⟨[], run_nil _, rfl, by simp⟩
  | cons a as ih =>
      obtain ⟨u, hu, h⟩ := Option.bind_eq_some_iff.mp h
      obtain ⟨tr, hrun, hfinal, hlabels⟩ := ih h
      refine ⟨(a, u) :: tr, run_cons.mpr ⟨hu, hrun⟩, hfinal, ?_⟩
      rw [steps_cons, List.forall_mem_cons]
      exact ⟨List.mem_cons_self, fun x hx => List.mem_cons_of_mem _ (hlabels x hx)⟩

/-- The same, where each label is also checked before it is taken. -/
theorem exists_run_of_guarded_reach {f : σ → α → Option σ} {check : σ → α → Bool}
    {G : σ → α → Prop} (hcheck : ∀ s a, check s a = true → G s a) {s t : σ} {as : List α}
    (h : reach (fun s a => if check s a then f s a else none) s as = some t) :
    ∃ tr, Run (fun s a t => f s a = some t) s tr ∧ final s tr = t ∧
      ∀ x ∈ steps s tr, G x.1 x.2.1 := by
  induction as generalizing s with
  | nil =>
      cases h
      exact ⟨[], run_nil _, rfl, by simp⟩
  | cons a as ih =>
      obtain ⟨u, hu, h⟩ := Option.bind_eq_some_iff.mp h
      obtain ⟨tr, hrun, hfinal, hguard⟩ := ih h
      change (if check s a = true then f s a else none) = some u at hu
      split at hu
      · rename_i ha
        refine ⟨(a, u) :: tr, run_cons.mpr ⟨hu, hrun⟩, hfinal, ?_⟩
        rw [steps_cons, List.forall_mem_cons]
        exact ⟨hcheck s a ha, hguard⟩
      · cases hu

theorem final_mem_states (s : σ) (tr : List (α × σ)) : final s tr ∈ states s tr := by
  induction tr generalizing s with
  | nil => simp [final]
  | cons x tr ih =>
      obtain ⟨a, t⟩ := x
      exact List.mem_cons_of_mem _ (ih t)

/-- The run on a list of enabled labels visits the state it gets to. -/
theorem exists_run_of_reach {f : σ → α → Option σ} {s t : σ} {as : List α}
    (h : reach f s as = some t) :
    ∃ tr, Run (fun s a t => f s a = some t) s tr ∧ t ∈ states s tr ∧
      ∀ x ∈ steps s tr, x.2.1 ∈ as := by
  obtain ⟨tr, hrun, rfl, hlabels⟩ := exists_run_to h
  exact ⟨tr, hrun, final_mem_states s tr, hlabels⟩

/-- The states of a run are the sources of its steps, and its end. -/
theorem forall_states_of_steps {P : σ → Prop} {s : σ} {tr : List (α × σ)}
    (hsteps : ∀ x ∈ steps s tr, P x.1) (hfinal : P (final s tr)) : ∀ t ∈ states s tr, P t := by
  induction tr generalizing s with
  | nil =>
      rw [states_nil, List.forall_mem_singleton]
      exact hfinal
  | cons y tr ih =>
      obtain ⟨a, t⟩ := y
      rw [steps_cons, List.forall_mem_cons] at hsteps
      rw [states_cons, List.forall_mem_cons]
      exact ⟨hsteps.1, ih hsteps.2 hfinal⟩

/-! ### Runs in two parts -/

theorem run_append {step : σ → α → σ → Prop} {s : σ} {tr tr' : List (α × σ)} :
    Run step s (tr ++ tr') ↔ Run step s tr ∧ Run step (final s tr) tr' := by
  induction tr generalizing s with
  | nil => simp [final]
  | cons x tr ih =>
      obtain ⟨a, t⟩ := x
      rw [List.cons_append, run_cons, run_cons, final, ih, and_assoc]

theorem final_append (s : σ) (tr tr' : List (α × σ)) :
    final s (tr ++ tr') = final (final s tr) tr' := by
  induction tr generalizing s with
  | nil => rfl
  | cons x tr ih =>
      obtain ⟨a, t⟩ := x
      exact ih t

theorem steps_append (s : σ) (tr tr' : List (α × σ)) :
    steps s (tr ++ tr') = steps s tr ++ steps (final s tr) tr' := by
  induction tr generalizing s with
  | nil => rfl
  | cons x tr ih =>
      obtain ⟨a, t⟩ := x
      rw [List.cons_append, steps_cons, steps_cons, final, ih, List.cons_append]

theorem states_subset_append (s : σ) (tr tr' : List (α × σ)) :
    states s tr ⊆ states s (tr ++ tr') := by
  intro t ht
  unfold states at ht ⊢
  rw [List.map_append, ← List.cons_append]
  exact List.mem_append_left _ ht

theorem states_subset_append_cons (s t : σ) (a : α) (tr tr' : List (α × σ)) :
    states t tr' ⊆ states s (tr ++ (a, t) :: tr') := by
  intro u hu
  unfold states at hu ⊢
  rw [List.map_append, List.map_cons, ← List.cons_append]
  exact List.mem_append_right _ hu

/-- The source of a step of a run is a state of the run. -/
theorem source_mem_states {s : σ} {tr : List (α × σ)} {x : σ × α × σ}
    (hx : x ∈ steps s tr) : x.1 ∈ states s tr := by
  induction tr generalizing s with
  | nil => simp at hx
  | cons y tr ih =>
      obtain ⟨a, t⟩ := y
      rw [steps_cons, List.mem_cons] at hx
      rw [states_cons, List.mem_cons]
      rcases hx with rfl | hx
      · exact Or.inl rfl
      · exact Or.inr (ih hx)

/-- So is its target. -/
theorem target_mem_states {s : σ} {tr : List (α × σ)} {x : σ × α × σ}
    (hx : x ∈ steps s tr) : x.2.2 ∈ states s tr := by
  induction tr generalizing s with
  | nil => simp at hx
  | cons y tr ih =>
      obtain ⟨a, t⟩ := y
      rw [steps_cons, List.mem_cons] at hx
      rw [states_cons, List.mem_cons]
      rcases hx with rfl | hx
      · exact Or.inr List.mem_cons_self
      · exact Or.inr (ih hx)

theorem map_label_steps (s : σ) (tr : List (α × σ)) :
    (steps s tr).map (fun x => x.2.1) = tr.map Prod.fst := by
  induction tr generalizing s with
  | nil => rfl
  | cons y tr ih =>
      obtain ⟨a, t⟩ := y
      rw [steps_cons, List.map_cons, List.map_cons, ih]

/-- **Invariant rule**: what holds at the start and is kept by every step of
the run holds in every state it visits. -/
theorem invariant_of_steps {P : σ → Prop} {s : σ} {tr : List (α × σ)} (hs : P s)
    (hstep : ∀ x ∈ steps s tr, P x.1 → P x.2.2) : ∀ t ∈ states s tr, P t := by
  induction tr generalizing s with
  | nil => simpa using hs
  | cons y tr ih =>
      obtain ⟨a, t⟩ := y
      have ht : P t := hstep (s, a, t) (by simp) hs
      intro u hu
      rw [states_cons, List.mem_cons] at hu
      rcases hu with rfl | hu
      · exact hs
      · exact ih ht (fun x hx => hstep x (List.mem_cons_of_mem _ hx)) u hu

theorem Run.invariant {step : σ → α → σ → Prop} {P : σ → Prop} {s : σ}
    {tr : List (α × σ)} (hrun : Run step s tr) (hs : P s)
    (hstep : ∀ t a u, step t a u → P t → P u) : ∀ t ∈ states s tr, P t :=
  invariant_of_steps hs fun x hx => hstep x.1 x.2.1 x.2.2 (hrun x hx)

/-- What only grows along a run is all there at its end. -/
theorem Run.subset_final {β : Type*} {step : σ → α → σ → Prop} {f : σ → List β}
    (hgrows : ∀ s a t, step s a t → f s ⊆ f t) {s : σ} {tr : List (α × σ)}
    (hrun : Run step s tr) : ∀ t ∈ states s tr, f t ⊆ f (final s tr) := by
  induction tr generalizing s with
  | nil =>
      intro t ht
      rw [states_nil, List.mem_singleton] at ht
      subst ht
      exact List.Subset.refl _
  | cons y tr ih =>
      obtain ⟨a, u⟩ := y
      obtain ⟨hstep, hrun⟩ := run_cons.mp hrun
      rw [states_cons, List.forall_mem_cons]
      have hlater := ih hrun
      exact ⟨fun _ hb => hlater u (by simp [states]) (hgrows s a u hstep hb), hlater⟩

/-- The guarded form of `Run.invariant`: only steps that meet `G` have to keep
the invariant, and every step of this run does. -/
theorem Run.invariant_of_guard {step : σ → α → σ → Prop} {P : σ → Prop}
    {G : σ → α → Prop} {s : σ} {tr : List (α × σ)} (hrun : Run step s tr)
    (hG : ∀ x ∈ steps s tr, G x.1 x.2.1) (hs : P s)
    (hstep : ∀ t a u, step t a u → G t a → P t → P u) : ∀ t ∈ states s tr, P t :=
  invariant_of_steps hs fun x hx => hstep x.1 x.2.1 x.2.2 (hrun x hx) (hG x hx)

/-- **Exactness rule**: when a step that starts in `P` ends in `P` exactly if
it meets the guard, then `P` holds all along a run if and only if every step
meets the guard.  The first step that misses it is the first state outside
`P`.  `I` is an invariant the step facts may lean on. -/
theorem Run.forall_states_iff {step : σ → α → σ → Prop} {I P : σ → Prop}
    {G : σ → α → Prop} {s : σ} {tr : List (α × σ)} (hrun : Run step s tr)
    (hI : I s) (hP : P s) (hIstep : ∀ t a u, step t a u → I t → I u)
    (hiff : ∀ t a u, step t a u → I t → P t → (P u ↔ G t a)) :
    (∀ t ∈ states s tr, P t) ↔ ∀ x ∈ steps s tr, G x.1 x.2.1 := by
  induction tr generalizing s with
  | nil => simpa using hP
  | cons y tr ih =>
      obtain ⟨a, t⟩ := y
      obtain ⟨hst, hrun'⟩ := run_cons.mp hrun
      have hIt : I t := hIstep s a t hst hI
      have hstep : P t ↔ G s a := hiff s a t hst hI hP
      rw [states_cons, steps_cons, List.forall_mem_cons, List.forall_mem_cons]
      constructor
      · rintro ⟨-, hall⟩
        have hPt : P t := hall t (by simp [states])
        exact ⟨hstep.mp hPt, (ih hrun' hIt hPt).mp hall⟩
      · rintro ⟨hG, hall⟩
        exact ⟨hP, (ih hrun' hIt (hstep.mpr hG)).mpr hall⟩

/-- **Lossless rule**: when each step either meets the guard and keeps `f`, or
lowers a weight of `f` that no step raises, `f` is the same at both ends of a
run exactly when every step meets the guard. -/
theorem Run.final_eq_iff {β : Type*} {step : σ → α → σ → Prop} {I : σ → Prop}
    {G : σ → α → Prop} {f : σ → β} {w : β → Nat} {s : σ} {tr : List (α × σ)}
    (hrun : Run step s tr) (hI : I s) (hIstep : ∀ t a u, step t a u → I t → I u)
    (hkeep : ∀ t a u, step t a u → I t → G t a → f u = f t)
    (hlose : ∀ t a u, step t a u → I t → ¬ G t a → w (f u) < w (f t)) :
    f (final s tr) = f s ↔ ∀ x ∈ steps s tr, G x.1 x.2.1 := by
  -- what is lost is never made good
  have hle : ∀ (s : σ) (tr : List (α × σ)), Run step s tr → I s →
      w (f (final s tr)) ≤ w (f s) := by
    intro s tr hrun hI
    induction tr generalizing s with
    | nil => exact Nat.le_refl _
    | cons y tr ih =>
        obtain ⟨a, t⟩ := y
        obtain ⟨hst, hrun'⟩ := run_cons.mp hrun
        refine Nat.le_trans (ih t hrun' (hIstep s a t hst hI)) ?_
        by_cases hG : G s a
        · exact Nat.le_of_eq (congrArg w (hkeep s a t hst hI hG))
        · exact Nat.le_of_lt (hlose s a t hst hI hG)
  induction tr generalizing s with
  | nil => simp [final]
  | cons y tr ih =>
      obtain ⟨a, t⟩ := y
      obtain ⟨hst, hrun'⟩ := run_cons.mp hrun
      have hIt : I t := hIstep s a t hst hI
      rw [final, steps_cons, List.forall_mem_cons]
      by_cases hG : G s a
      · rw [← hkeep s a t hst hI hG]
        exact (ih hrun' hIt).trans (and_iff_right hG).symm
      · refine iff_of_false (fun heq => ?_) fun hall => hG hall.1
        have hlt := Nat.lt_of_le_of_lt (hle t tr hrun' hIt) (hlose s a t hst hI hG)
        rw [heq] at hlt
        exact Nat.lt_irrefl _ hlt

end TurboMcp.Lib
