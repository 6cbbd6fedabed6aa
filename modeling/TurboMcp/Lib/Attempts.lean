import Mathlib.Logic.Basic

/-!
# Attempts

A loop that tries so many times: an attempt either ends it, or hands on what the next
one starts from.  Whatever keeps an attempt from ending keeps the whole loop from it, so
two attempts that hand each other on use the loop up.
-/

namespace TurboMcp.Lib

variable {σ β : Type}

/-- The loop's outcome, and how many attempts it made. -/
def attempts (step : σ → β ⊕ σ) (exhausted : β) : Nat → σ → β × Nat
  | 0, _ => (exhausted, 0)
  | n + 1, s =>
      match step s with
      | .inl b => (b, 1)
      | .inr t => ((attempts step exhausted n t).1, (attempts step exhausted n t).2 + 1)

variable {step : σ → β ⊕ σ} {exhausted : β} {s t : σ} {b : β}

theorem attempts_done (h : step s = .inl b) (n : Nat) :
    attempts step exhausted (n + 1) s = (b, 1) := by
  rw [attempts, h]

theorem attempts_again (h : step s = .inr t) (n : Nat) :
    attempts step exhausted (n + 1) s =
      ((attempts step exhausted n t).1, (attempts step exhausted n t).2 + 1) := by
  rw [attempts, h]

/-- **Exhaustion**: attempts that only ever hand on are all made, and for nothing. -/
theorem attempts_of_closed {I : σ → Prop} (hclosed : ∀ s, I s → ∃ t, step s = .inr t ∧ I t)
    (hs : I s) (n : Nat) : attempts step exhausted n s = (exhausted, n) := by
  induction n generalizing s with
  | zero => rfl
  | succ n ih =>
      obtain ⟨t, hstep, ht⟩ := hclosed s hs
      rw [attempts_again hstep, ih ht]

/-- **Two in turn**: attempts that hand each other on. -/
theorem attempts_of_turns (hst : step s = .inr t) (hts : step t = .inr s) (n : Nat) :
    attempts step exhausted n s = (exhausted, n) := by
  apply attempts_of_closed (I := fun x => x = s ∨ x = t)
  · rintro x (rfl | rfl)
    · exact ⟨t, hst, .inr rfl⟩
    · exact ⟨s, hts, .inl rfl⟩
  · exact .inl rfl

end TurboMcp.Lib
