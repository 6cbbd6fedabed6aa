import TurboMcp.Lib.Program

/-!
# What programs perform

A trace is the effects of a program in their order, each with its answer.
`Performs p tr a` says that `p` performs `tr` and returns `a`.  `carry` runs a
program beside a state that others change meanwhile: every answer brings the
state as it is by then, and a program that looks at the state sees that one.
-/

namespace TurboMcp.Lib.Program

variable {E : Type} {R : E → Type} {α β σ : Type}

inductive Performs : Program E R α → List (Σ e, R e) → α → Prop
  | ret (a : α) : Performs (ret a) [] a
  | call {e : E} {k : R e → Program E R α} {r : R e} {tr : List (Σ e, R e)} {a : α}
      (h : Performs (k r) tr a) : Performs (call e k) (⟨e, r⟩ :: tr) a

variable {tr : List (Σ e, R e)}

@[simp] theorem performs_ret {a b : α} :
    Performs (ret a : Program E R α) tr b ↔ tr = [] ∧ b = a := by
  constructor
  · intro h
    cases h
    exact ⟨rfl, rfl⟩
  · rintro ⟨rfl, rfl⟩
    exact .ret _

@[simp] theorem performs_call {e : E} {k : R e → Program E R α} {a : α} :
    Performs (call e k) tr a ↔ ∃ r rest, tr = ⟨e, r⟩ :: rest ∧ Performs (k r) rest a := by
  constructor
  · intro h
    cases h with
    | call h => exact ⟨_, _, rfl, h⟩
  · rintro ⟨r, rest, rfl, h⟩
    exact .call h

/-- **Sequencing**: the second program performs what comes after the first one's
trace. -/
theorem performs_bind {p : Program E R α} {f : α → Program E R β} {b : β} :
    Performs (p >>= f) tr b ↔
      ∃ first second a, tr = first ++ second ∧ Performs p first a ∧ Performs (f a) second b := by
  induction p generalizing tr with
  | ret a =>
      rw [ret_bind]
      constructor
      · intro h
        exact ⟨[], tr, a, rfl, .ret a, h⟩
      · rintro ⟨first, second, a', rfl, hfirst, hsecond⟩
        obtain ⟨rfl, rfl⟩ := performs_ret.mp hfirst
        exact hsecond
  | call e k ih =>
      rw [call_bind, performs_call]
      constructor
      · rintro ⟨r, rest, rfl, h⟩
        obtain ⟨first, second, a, rfl, hfirst, hsecond⟩ := (ih r).mp h
        exact ⟨⟨e, r⟩ :: first, second, a, rfl, .call hfirst, hsecond⟩
      · rintro ⟨first, second, a, rfl, hfirst, hsecond⟩
        obtain ⟨r, rest, rfl, hrest⟩ := performs_call.mp hfirst
        exact ⟨r, rest ++ second, rfl, (ih r).mpr ⟨rest, second, a, rfl, hrest, hsecond⟩⟩

/-- What holds of every effect of a program holds along its traces. -/
theorem Performs.of_wp {C : E → Prop} {p : Program E R α} {Q : α → Prop} {a : α}
    (h : Performs p tr a) (hp : wp C (fun _ _ => True) p Q) : (∀ x ∈ tr, C x.1) ∧ Q a := by
  induction h with
  | ret a => exact ⟨nofun, hp⟩
  | call h ih =>
      obtain ⟨hrest, hQ⟩ := ih (hp.2 _ trivial)
      exact ⟨List.forall_mem_cons.mpr ⟨hp.1, hrest⟩, hQ⟩

/-! ## Beside a state -/

/-- Run a program from a state that changes while its effects are answered. -/
def carry : Program E R α → σ → Program E (fun e => R e × σ) (α × σ)
  | ret a, s => ret (a, s)
  | call e k, _ => call e fun answer => carry (k answer.1) answer.2

/-- What the program itself performed. -/
def forget (tr : List (Σ e, R e × σ)) : List (Σ e, R e) := tr.map fun x => ⟨x.1, x.2.1⟩

/-- The state with the last answer. -/
def stateAfter (s : σ) : List (Σ e, R e × σ) → σ
  | [] => s
  | x :: tr => stateAfter x.2.2 tr

theorem stateAfter_concat (s : σ) (tr : List (Σ e, R e × σ)) (x : Σ e, R e × σ) :
    stateAfter s (tr ++ [x]) = x.2.2 := by
  induction tr generalizing s with
  | nil => rfl
  | cons y tr ih => exact ih y.2.2

theorem performs_carry {p : Program E R α} {s s' : σ} {tr : List (Σ e, R e × σ)} {a : α} :
    Performs (carry p s) tr (a, s') ↔ Performs p (forget tr) a ∧ s' = stateAfter s tr := by
  induction p generalizing s tr with
  | ret b =>
      rw [carry, performs_ret, Prod.mk.injEq]
      constructor
      · rintro ⟨rfl, rfl, rfl⟩
        exact ⟨.ret _, rfl⟩
      · rintro ⟨h, hs⟩
        obtain ⟨hnil, rfl⟩ := performs_ret.mp h
        obtain rfl := List.map_eq_nil_iff.mp hnil
        exact ⟨rfl, rfl, hs⟩
  | call e k ih =>
      rw [carry, performs_call]
      constructor
      · rintro ⟨⟨r, t⟩, rest, rfl, h⟩
        obtain ⟨hk, hs⟩ := (ih r).mp h
        exact ⟨.call hk, hs⟩
      · rintro ⟨h, hs⟩
        obtain ⟨r, rest, htr, hk⟩ := performs_call.mp h
        rcases tr with _ | ⟨⟨e', r', t⟩, tr⟩
        · cases htr
        · cases htr
          exact ⟨(r', t), tr, rfl, (ih r').mpr ⟨hk, hs⟩⟩

end TurboMcp.Lib.Program
