import TurboMcp.Lib.Program

/-!
# Programs that follow a protocol

A protocol says what a program may perform given what it has learned so far,
and what it learns from each answer.  `Follows π q p Q` is `wp` with that
knowledge threaded through: from knowledge `q`, every effect of `p` is allowed
when it is performed, and `p` returns in `Q`.  `Surely` is the other direction:
`p` is bound to perform an effect before it returns.
-/

namespace TurboMcp.Lib

variable {E : Type} {R : E → Type}

structure Protocol (E : Type) (R : E → Type) (K : Type) where
  /-- What the knowledge allows. -/
  allows : K → E → Prop
  /-- What is known once an effect is answered. -/
  after : K → (e : E) → R e → K

namespace Program

variable {K α β : Type} {π : Protocol E R K}

def Follows (π : Protocol E R K) : K → Program E R α → (K → α → Prop) → Prop
  | q, ret a, Q => Q q a
  | q, call e k, Q => π.allows q e ∧ ∀ r, Follows π (π.after q e r) (k r) Q

@[simp] theorem follows_ret {q : K} {a : α} {Q : K → α → Prop} :
    Follows π q (ret a) Q ↔ Q q a := Iff.rfl

@[simp] theorem follows_call {q : K} {e : E} {k : R e → Program E R α} {Q : K → α → Prop} :
    Follows π q (call e k) Q ↔ π.allows q e ∧ ∀ r, Follows π (π.after q e r) (k r) Q :=
  Iff.rfl

theorem Follows.mono {q : K} {p : Program E R α} {Q Q' : K → α → Prop}
    (h : Follows π q p Q) (hQ : ∀ q a, Q q a → Q' q a) : Follows π q p Q' := by
  induction p generalizing q with
  | ret a => exact hQ q a h
  | call e k ih => exact ⟨h.1, fun r => ih r (h.2 r)⟩

/-- **Sequencing**: the second program starts from what the first has learned. -/
theorem Follows.seq {q : K} {p : Program E R α} {f : α → Program E R β}
    {Q : K → α → Prop} {Q' : K → β → Prop} (hp : Follows π q p Q)
    (hf : ∀ q a, Q q a → Follows π q (f a) Q') : Follows π q (p >>= f) Q' := by
  induction p generalizing q with
  | ret a => exact hf q a hp
  | call e k ih =>
      rw [call_bind, follows_call]
      exact ⟨hp.1, fun r => ih r (hp.2 r)⟩

/-- What a protocol never allows, a program that follows it never performs. -/
theorem Follows.wp {C : E → Prop} {q : K} {p : Program E R α} {Q : K → α → Prop}
    (h : Follows π q p Q) (hallows : ∀ q e, π.allows q e → C e) :
    wp C (fun _ _ => True) p fun _ => True := by
  induction p generalizing q with
  | ret a => trivial
  | call e k ih => exact ⟨hallows q e h.1, fun r _ => ih r (h.2 r)⟩

/-- Effects that are allowed anyway and teach nothing leave the knowledge alone. -/
theorem follows_of_wp {C : E → Prop} {q : K} {p : Program E R α} {P : α → Prop}
    (h : wp C (fun _ _ => True) p P) (hallows : ∀ e, C e → π.allows q e)
    (hafter : ∀ e r, C e → π.after q e r = q) : Follows π q p fun q' a => q' = q ∧ P a := by
  induction p with
  | ret a => exact ⟨rfl, h⟩
  | call e k ih =>
      obtain ⟨hC, hk⟩ := h
      refine ⟨hallows e hC, fun r => ?_⟩
      rw [hafter e r hC]
      exact ih r (hk r trivial)

/-! ## What a program is bound to do -/

/-- Whatever it is answered, the program performs an effect in `P` before it
returns. -/
def Surely (P : E → Prop) : Program E R α → Prop
  | ret _ => False
  | call e k => P e ∨ ∀ r, Surely P (k r)

@[simp] theorem surely_ret {P : E → Prop} {a : α} : ¬ Surely P (ret a : Program E R α) := id

@[simp] theorem surely_call {P : E → Prop} {e : E} {k : R e → Program E R α} :
    Surely P (call e k) ↔ P e ∨ ∀ r, Surely P (k r) := Iff.rfl

/-- An obligation that only an effect in `P` lifts, and that no program may end
with, is met. -/
theorem Follows.surely {P : E → Prop} {O : K → Prop} {q : K} {p : Program E R α}
    {Q : K → α → Prop} (h : Follows π q p Q) (hq : O q)
    (hafter : ∀ q e r, O q → ¬ P e → O (π.after q e r)) (hQ : ∀ q a, Q q a → ¬ O q) :
    Surely P p := by
  induction p generalizing q with
  | ret a => exact absurd hq (hQ q a h)
  | call e k ih =>
      rw [surely_call]
      by_cases he : P e
      · exact Or.inl he
      · exact Or.inr fun r => ih r (h.2 r) (hafter q e r hq he)

/-! ## What is left of a program -/

/-- What is left of `p₀` once some of its effects are answered. -/
inductive LeftOf (p₀ : Program E R α) : Program E R α → Prop
  | start : LeftOf p₀ p₀
  | answered {e : E} {k : R e → Program E R α} (h : LeftOf p₀ (call e k)) (r : R e) :
      LeftOf p₀ (k r)

/-! ## Implementing effects -/

variable {E' : Type} {R' : E' → Type}

/-- Perform each effect by a program over finer ones. -/
def expand (impl : (e : E) → Program E' R' (R e)) : Program E R α → Program E' R' α
  | ret a => ret a
  | call e k => impl e >>= fun r => expand impl (k r)

@[simp] theorem expand_ret (impl : (e : E) → Program E' R' (R e)) (a : α) :
    expand impl (ret a : Program E R α) = ret a := rfl

theorem expand_call (impl : (e : E) → Program E' R' (R e)) (e : E) (k : R e → Program E R α) :
    expand impl (call e k) = impl e >>= fun r => expand impl (k r) := rfl

theorem wp_expand {C : E → Prop} {A : (e : E) → R e → Prop} {C' : E' → Prop}
    {A' : (e : E') → R' e → Prop} {impl : (e : E) → Program E' R' (R e)}
    (himpl : ∀ e, C e → wp C' A' (impl e) (A e)) {p : Program E R α} {Q : α → Prop}
    (h : wp C A p Q) : wp C' A' (p.expand impl) Q := by
  induction p with
  | ret a => exact h
  | call e k ih =>
      rw [expand_call]
      exact wp_seq (himpl e h.1) fun r hr => ih r (h.2 r hr)

/-- **Refinement of protocols**: when each effect is implemented by a program
that follows the finer protocol wherever the coarser one allows the effect, and
has then learned at least as much, implementing a program keeps it in line. -/
theorem Follows.expand {K' : Type} {S : Protocol E' R' K'} {r : K → K' → Prop}
    {impl : (e : E) → Program E' R' (R e)}
    (himpl : ∀ q t e, r q t → π.allows q e →
      Follows S t (impl e) fun t a => r (π.after q e a) t)
    {q : K} {t : K'} {p : Program E R α} {Q : K → α → Prop} (h : Follows π q p Q)
    (hq : r q t) :
    Follows S t (expand impl p) fun t a => ∃ q, r q t ∧ Q q a := by
  induction p generalizing q t with
  | ret a => exact ⟨q, hq, h⟩
  | call e k ih =>
      obtain ⟨he, hk⟩ := h
      rw [expand_call]
      exact (himpl q t e hq he).seq fun t r hr => ih r (hk r) hr

end Program

end TurboMcp.Lib
