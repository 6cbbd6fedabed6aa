import TurboMcp.Lib.Program

/-!
# Programs whose effects can fail

A failed effect ends the program with its failure.  `attempt` runs a program
against answers that also keep a state.  `stop` runs it as far as a cache of
answers goes: a re-execution from the top gets there again whatever else the
cache has come to hold (`stop_of_extends`), and an execution that answers the
cached effects alike passes through the same point (`attempt_eq`).
-/

namespace TurboMcp.Lib.Program

variable {E : Type} {R : E → Type} {α β ε σ : Type}

/-! ## Running -/

def run (ans : (e : E) → R e) : Program E R α → α
  | ret a => a
  | call e k => run ans (k (ans e))

@[simp] theorem run_ret (ans : (e : E) → R e) (a : α) : run ans (ret a) = a := rfl

@[simp] theorem run_call (ans : (e : E) → R e) (e : E) (k : R e → Program E R α) :
    run ans (call e k) = run ans (k (ans e)) := rfl

theorem run_bind (ans : (e : E) → R e) (p : Program E R α) (f : α → Program E R β) :
    run ans (p >>= f) = run ans (f (run ans p)) := by
  induction p with
  | ret a => rfl
  | call e k ih => exact ih (ans e)

/-- Run with answers that depend on a state, which they change. -/
def exec (ans : σ → (e : E) → R e × σ) : Program E R α → σ → α × σ
  | ret a, s => (a, s)
  | call e k, s => exec ans (k (ans s e).1) (ans s e).2

@[simp] theorem exec_ret (ans : σ → (e : E) → R e × σ) (a : α) (s : σ) :
    exec ans (ret a) s = (a, s) := rfl

@[simp] theorem exec_call (ans : σ → (e : E) → R e × σ) (e : E) (k : R e → Program E R α)
    (s : σ) : exec ans (call e k) s = exec ans (k (ans s e).1) (ans s e).2 := rfl

theorem exec_bind (ans : σ → (e : E) → R e × σ) (p : Program E R α)
    (f : α → Program E R β) (s : σ) :
    exec ans (p >>= f) s = exec ans (f (exec ans p s).1) (exec ans p s).2 := by
  induction p generalizing s with
  | ret a => rfl
  | call e k ih => exact ih _ _

/-! ## Failing answers -/

/-- Run with answers that may fail; what they keep is threaded along. -/
def attempt (ans : σ → (e : E) → Except ε (R e) × σ) :
    Program E R (Except ε β) → σ → Except ε β × σ
  | ret r, s => (r, s)
  | call e k, s =>
      match ans s e with
      | (.ok r, s) => attempt ans (k r) s
      | (.error x, s) => (.error x, s)

@[simp] theorem attempt_ret (ans : σ → (e : E) → Except ε (R e) × σ) (r : Except ε β) (s : σ) :
    attempt ans (ret r) s = (r, s) := rfl

theorem attempt_ok {ans : σ → (e : E) → Except ε (R e) × σ} {e : E} {s s' : σ} {r : R e}
    (h : ans s e = (.ok r, s')) (k : R e → Program E R (Except ε β)) :
    attempt ans (call e k) s = attempt ans (k r) s' := by
  rw [attempt, h]

theorem attempt_error {ans : σ → (e : E) → Except ε (R e) × σ} {e : E} {s s' : σ} {x : ε}
    (h : ans s e = (.error x, s')) (k : R e → Program E R (Except ε β)) :
    attempt ans (call e k) s = (.error x, s') := by
  rw [attempt, h]

/-- **Simulation**: answers that agree, whatever each keeps along, take a program to
the same end. -/
theorem attempt_rel {τ : Type} {ρ : σ → τ → Prop} {ans : σ → (e : E) → Except ε (R e) × σ}
    {ans' : τ → (e : E) → Except ε (R e) × τ}
    (h : ∀ s t e, ρ s t → (ans s e).1 = (ans' t e).1 ∧ ρ (ans s e).2 (ans' t e).2)
    (p : Program E R (Except ε β)) {s : σ} {t : τ} (hst : ρ s t) :
    (attempt ans p s).1 = (attempt ans' p t).1 ∧ ρ (attempt ans p s).2 (attempt ans' p t).2 := by
  induction p generalizing s t with
  | ret r => exact ⟨rfl, hst⟩
  | call e k ih =>
      obtain ⟨heq, hkept⟩ := h s t e hst
      rcases hans : ans s e with ⟨out, s'⟩
      rcases hans' : ans' t e with ⟨out', t'⟩
      rw [hans, hans'] at heq hkept
      obtain rfl : out = out' := heq
      rcases out with x | r
      · rw [attempt_error hans, attempt_error hans']
        exact ⟨rfl, hkept⟩
      · rw [attempt_ok hans, attempt_ok hans']
        exact ih r hkept

/-! ## Cached answers -/

/-- Where a program gets on cached answers: to its end, or to an effect the
cache does not hold. -/
inductive Stop (E : Type) (R : E → Type) (ε β : Type)
  | ended (r : Except ε β)
  | asking (e : E) (k : R e → Program E R (Except ε β))

def stop (cache : (e : E) → Option (Except ε (R e))) :
    Program E R (Except ε β) → Stop E R ε β
  | ret r => .ended r
  | call e k =>
      match cache e with
      | none => .asking e k
      | some (.ok r) => stop cache (k r)
      | some (.error x) => .ended (.error x)

variable {cache cache' : (e : E) → Option (Except ε (R e))} {p : Program E R (Except ε β)}

@[simp] theorem stop_ret (r : Except ε β) : stop cache (ret r) = .ended r := rfl

theorem stop_none {e : E} (h : cache e = none) (k : R e → Program E R (Except ε β)) :
    stop cache (call e k) = .asking e k := by
  rw [stop, h]

theorem stop_ok {e : E} {r : R e} (h : cache e = some (.ok r))
    (k : R e → Program E R (Except ε β)) : stop cache (call e k) = stop cache (k r) := by
  rw [stop, h]

theorem stop_error {e : E} {x : ε} (h : cache e = some (.error x))
    (k : R e → Program E R (Except ε β)) : stop cache (call e k) = .ended (.error x) := by
  rw [stop, h]

/-- **Re-execution**: under a cache that holds more, the program comes by where
it stopped before. -/
theorem stop_of_extends (h : ∀ e r, cache e = some r → cache' e = some r) :
    stop cache' p = match stop cache p with
      | .ended r => .ended r
      | .asking e k => stop cache' (call e k) := by
  induction p with
  | ret r => rfl
  | call e k ih =>
      cases hc : cache e with
      | none => rw [stop_none hc]
      | some out =>
          cases out with
          | error x => rw [stop_error hc, stop_error (h e _ hc)]
          | ok r => rw [stop_ok hc, stop_ok (h e _ hc), ih r]

/-- **Executing past the cache**: answers that agree with the cache, and keep
nothing where they do, get to where it stops. -/
theorem attempt_eq {ans : σ → (e : E) → Except ε (R e) × σ} {s : σ}
    (h : ∀ e r, cache e = some r → ans s e = (r, s)) :
    attempt ans p s = match stop cache p with
      | .ended r => (r, s)
      | .asking e k => attempt ans (call e k) s := by
  induction p with
  | ret r => rfl
  | call e k ih =>
      cases hc : cache e with
      | none => rw [stop_none hc]
      | some out =>
          cases out with
          | error x => rw [stop_error hc, attempt_error (h e _ hc)]
          | ok r => rw [stop_ok hc, attempt_ok (h e _ hc), ih r]

/-- A program never stops at an effect the cache holds. -/
theorem cache_of_stop {e : E} {k : R e → Program E R (Except ε β)}
    (h : stop cache p = .asking e k) : cache e = none := by
  induction p with
  | ret r => cases h
  | call e' k' ih =>
      cases hc : cache e' with
      | none =>
          rw [stop_none hc] at h
          cases h
          exact hc
      | some out =>
          cases out with
          | error x =>
              rw [stop_error hc] at h
              cases h
          | ok r =>
              rw [stop_ok hc] at h
              exact ih r h

/-! ## What is answered on the way -/

/-- The effects that an execution performs, each with its answer. -/
inductive Answered (ans : σ → (e : E) → Except ε (R e) × σ) :
    Program E R (Except ε β) → σ → (e : E) → Except ε (R e) → Prop
  | here (e : E) (k : R e → Program E R (Except ε β)) (s : σ) :
      Answered ans (call e k) s e (ans s e).1
  | later {e e' : E} {k : R e → Program E R (Except ε β)} {s s' : σ} {r : R e}
      {out : Except ε (R e')} (h : ans s e = (.ok r, s')) (hlater : Answered ans (k r) s' e' out) :
      Answered ans (call e k) s e' out

variable {ans : σ → (e : E) → Except ε (R e) × σ} {s : σ}

/-- The effect at which a cache gives out is performed. -/
theorem answered_of_stop (h : ∀ e r, cache e = some r → ans s e = (r, s)) {e : E}
    {k : R e → Program E R (Except ε β)} (hstop : stop cache p = .asking e k) :
    Answered ans p s e (ans s e).1 := by
  induction p with
  | ret r => cases hstop
  | call e' k' ih =>
      rcases hc : cache e' with _ | x | r
      · rw [stop_none hc] at hstop
        cases hstop
        exact .here e k s
      · rw [stop_error hc] at hstop
        cases hstop
      · rw [stop_ok hc] at hstop
        exact .later (h e' _ hc) (ih r hstop)

/-- What is performed is cached, or the effect at which the cache gives out, or comes
after it. -/
theorem answered_cases (h : ∀ e r, cache e = some r → ans s e = (r, s)) {e : E}
    {out : Except ε (R e)} (ha : Answered ans p s e out) :
    cache e = some out ∨
      ∃ e' k, stop cache p = .asking e' k ∧ Answered ans (call e' k) s e out := by
  induction p with
  | ret r => cases ha
  | call e' k' ih =>
      rcases hc : cache e' with _ | x | r
      · exact .inr ⟨e', k', stop_none hc k', ha⟩
      · left
        cases ha with
        | here =>
            rw [h e _ hc]
            exact hc
        | later hok =>
            rw [h e' _ hc] at hok
            cases hok
      · cases ha with
        | here =>
            left
            rw [h e _ hc]
            exact hc
        | later hok hlater =>
            rw [h e' _ hc] at hok
            cases hok
            rcases ih r hlater with hcached | ⟨e'', k'', hstop, hafter⟩
            · exact .inl hcached
            · exact .inr ⟨e'', k'', (stop_ok hc k').trans hstop, hafter⟩

/-- Nothing is performed after a failure. -/
theorem eq_of_answered_of_error {e e' : E} {k : R e → Program E R (Except ε β)} {s' : σ} {x : ε}
    {out : Except ε (R e')} (hfails : ans s e = (.error x, s'))
    (ha : Answered ans (call e k) s e' out) :
    (⟨e', out⟩ : Σ e, Except ε (R e)) = ⟨e, .error x⟩ := by
  cases ha with
  | here => rw [hfails]
  | later hok =>
      rw [hfails] at hok
      cases hok

end TurboMcp.Lib.Program
