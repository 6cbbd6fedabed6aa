import Mathlib.Logic.Basic

/-!
# Programs over effects

A program either returns or performs an effect and goes on with its answer.
What it computes with is Lean; what it asks of its surroundings is an effect,
so a fact about every surroundings is a fact about the tree.  `wp C A p Q` says
that `p`, as long as its effects are answered within `A`, only performs effects
in `C` and only returns values in `Q`.
-/

namespace TurboMcp.Lib

/-- A program with effects `E`, answers `R e`, and results in `α`. -/
inductive Program (E : Type) (R : E → Type) (α : Type)
  | ret (a : α)
  | call (e : E) (k : R e → Program E R α)

namespace Program

variable {E : Type} {R : E → Type} {α β : Type}

def bind : Program E R α → (α → Program E R β) → Program E R β
  | ret a, f => f a
  | call e k, f => call e fun r => (k r).bind f

instance : Monad (Program E R) where
  pure := ret
  bind := bind

/-- Perform one effect. -/
def perform (e : E) : Program E R (R e) := call e ret

@[simp] theorem pure_eq (a : α) : (pure a : Program E R α) = ret a := rfl

@[simp] theorem ret_bind (a : α) (f : α → Program E R β) : (ret a >>= f) = f a := rfl

@[simp] theorem call_bind (e : E) (k : R e → Program E R α) (f : α → Program E R β) :
    (call e k >>= f) = call e fun r => k r >>= f := rfl

@[simp] theorem perform_bind (e : E) (f : R e → Program E R β) :
    (perform e >>= f) = call e f := rfl

theorem bind_assoc {γ : Type} (p : Program E R α) (f : α → Program E R β)
    (g : β → Program E R γ) : ((p >>= f) >>= g) = p >>= fun a => f a >>= g := by
  induction p with
  | ret a => rfl
  | call e k ih =>
      rw [call_bind, call_bind, call_bind]
      exact congrArg (call e) (funext ih)

/-! ## What a program may do and return -/

/-- `p` performs only effects in `C` and returns only values in `Q`, provided
its effects are answered within `A`. -/
def wp (C : E → Prop) (A : (e : E) → R e → Prop) : Program E R α → (α → Prop) → Prop
  | ret a, Q => Q a
  | call e k, Q => C e ∧ ∀ r, A e r → wp C A (k r) Q

variable {C : E → Prop} {A : (e : E) → R e → Prop} {Q Q' : α → Prop}

@[simp] theorem wp_ret (a : α) : wp C A (ret a : Program E R α) Q ↔ Q a := Iff.rfl

@[simp] theorem wp_call (e : E) (k : R e → Program E R α) :
    wp C A (call e k) Q ↔ C e ∧ ∀ r, A e r → wp C A (k r) Q := Iff.rfl

/-- **Sequencing**: the second program starts from what the first returns. -/
theorem wp_bind (p : Program E R α) (f : α → Program E R β) {P : β → Prop} :
    wp C A (p >>= f) P ↔ wp C A p fun a => wp C A (f a) P := by
  induction p with
  | ret a => rfl
  | call e k ih =>
      rw [call_bind, wp_call, wp_call]
      exact and_congr_right fun _ => forall_congr' fun r => imp_congr_right fun _ => ih r

theorem wp_mono {p : Program E R α} (h : wp C A p Q) (hQ : ∀ a, Q a → Q' a) :
    wp C A p Q' := by
  induction p with
  | ret a => exact hQ a h
  | call e k ih => exact ⟨h.1, fun r hr => ih r (h.2 r hr)⟩

/-- Sequencing through a named midpoint. -/
theorem wp_seq {p : Program E R α} {f : α → Program E R β} {P : β → Prop}
    (hp : wp C A p Q) (hf : ∀ a, Q a → wp C A (f a) P) : wp C A (p >>= f) P :=
  (wp_bind p f).mpr (wp_mono hp hf)

/-- Less is asked of the effects, and more promised of the answers. -/
theorem wp_weaken {C' : E → Prop} {A' : (e : E) → R e → Prop} {p : Program E R α}
    (h : wp C A p Q) (hC : ∀ e, C e → C' e) (hA : ∀ e r, A' e r → A e r) : wp C' A' p Q := by
  induction p with
  | ret a => exact h
  | call e k ih => exact ⟨hC e h.1, fun r hr => ih r (h.2 r (hA e r hr))⟩

/-- Where every effect is allowed and every result will do, nothing is asked. -/
theorem wp_of_forall (hC : ∀ e, C e) (hQ : ∀ a, Q a) (p : Program E R α) : wp C A p Q := by
  induction p with
  | ret a => exact hQ a
  | call e k ih => exact ⟨hC e, fun r _ => ih r⟩

/-! ## What a program can return -/

/-- `p` returns `a` for some answers within `A`. -/
inductive Yields (A : (e : E) → R e → Prop) : Program E R α → α → Prop
  | ret (a : α) : Yields A (ret a) a
  | call {e : E} {k : R e → Program E R α} {r : R e} {a : α} (hr : A e r)
      (hk : Yields A (k r) a) : Yields A (call e k) a

/-- What `p` returns meets what `wp` promises. -/
theorem Yields.of_wp {p : Program E R α} {a : α} (h : Yields A p a) (hp : wp C A p Q) : Q a := by
  induction h with
  | ret a => exact hp
  | call hr _ ih => exact ih (hp.2 _ hr)

theorem Yields.mono {A' : (e : E) → R e → Prop} {p : Program E R α} {a : α}
    (h : Yields A p a) (hA : ∀ e r, A e r → A' e r) : Yields A' p a := by
  induction h with
  | ret a => exact .ret a
  | call hr _ ih => exact .call (hA _ _ hr) ih

/-- Where every effect has an admitted answer, a program returns something. -/
theorem exists_yields (p : Program E R α) (hA : ∀ e, ∃ r, A e r) : ∃ a, Yields A p a := by
  induction p with
  | ret a => exact ⟨a, .ret a⟩
  | call e k ih =>
      obtain ⟨r, hr⟩ := hA e
      obtain ⟨a, ha⟩ := ih r
      exact ⟨a, .call hr ha⟩

@[simp] theorem yields_ret {a b : α} : Yields A (ret a : Program E R α) b ↔ b = a := by
  constructor
  · rintro ⟨⟩
    rfl
  · rintro rfl
    exact .ret _

@[simp] theorem yields_call {e : E} {k : R e → Program E R α} {a : α} :
    Yields A (call e k) a ↔ ∃ r, A e r ∧ Yields A (k r) a := by
  constructor
  · rintro (_ | ⟨hr, hk⟩)
    exact ⟨_, hr, hk⟩
  · rintro ⟨r, hr, hk⟩
    exact .call hr hk

theorem yields_bind {p : Program E R α} {f : α → Program E R β} {b : β} :
    Yields A (p >>= f) b ↔ ∃ a, Yields A p a ∧ Yields A (f a) b := by
  induction p with
  | ret a => simp
  | call e k ih =>
      rw [call_bind, yields_call]
      constructor
      · rintro ⟨r, hr, hk⟩
        obtain ⟨a, ha, hb⟩ := (ih r).mp hk
        exact ⟨a, .call hr ha, hb⟩
      · rintro ⟨a, ha, hb⟩
        obtain ⟨r, hr, hk⟩ := yields_call.mp ha
        exact ⟨r, hr, (ih r).mpr ⟨a, hk, hb⟩⟩

end Program

end TurboMcp.Lib
