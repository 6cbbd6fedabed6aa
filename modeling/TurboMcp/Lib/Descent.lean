import Mathlib.Data.List.Basic
import Mathlib.Logic.Relation

/-!
# Descents

A structure is walked from a point to the points listed below it.  What is met on
the way down is the point itself and what is met from those below; a list that is
closed under the steps holds all of it.
-/

namespace TurboMcp.Lib

variable {α : Type*} {next : α → List α}

/-- `b` is met on the way down from `a`. -/
def Meets (next : α → List α) (a b : α) : Prop :=
  Relation.ReflTransGen (fun a b => b ∈ next a) a b

namespace Meets

theorem refl (a : α) : Meets next a a := Relation.ReflTransGen.refl

theorem head {a b c : α} (hb : b ∈ next a) (hc : Meets next b c) : Meets next a c :=
  Relation.ReflTransGen.head hb hc

theorem trans {a b c : α} (hb : Meets next a b) (hc : Meets next b c) : Meets next a c :=
  Relation.ReflTransGen.trans hb hc

/-- What is kept on every step down holds of what is met. -/
theorem induction {P : α → Prop} {a b : α} (h : Meets next a b) (ha : P a)
    (hstep : ∀ b, Meets next a b → P b → ∀ c ∈ next b, P c) : P b := by
  induction h with
  | refl => exact ha
  | tail hab hbc ih => exact hstep _ hab ih _ hbc

end Meets

theorem meets_iff {a b : α} : Meets next a b ↔ b = a ∨ ∃ c ∈ next a, Meets next c b := by
  constructor
  · intro h
    rcases Relation.ReflTransGen.cases_head h with rfl | ⟨c, hc, hcb⟩
    · exact .inl rfl
    · exact .inr ⟨c, hc, hcb⟩
  · rintro (rfl | ⟨c, hc, hcb⟩)
    · exact .refl b
    · exact .head hc hcb

theorem mem_of_closed {points : List α} (hclosed : ∀ a ∈ points, ∀ b ∈ next a, b ∈ points)
    {a b : α} (ha : a ∈ points) (h : Meets next a b) : b ∈ points :=
  h.induction ha fun b _ hb c hc => hclosed b hb c hc

end TurboMcp.Lib
