import TurboMcp.Core.Serde

/-!
# Comparing floating-point numbers

The order of `f64`: by sign and magnitude, with the two zeros equal and a NaN
comparable to nothing.
-/

namespace TurboMcp.Core.F64

def isNaN (x : F64) : Bool := 2047 * 2 ^ 52 < x.bits.toNat % 2 ^ 63

/-- Where a number stands; one that is less stands lower. -/
def rank (x : F64) : Int :=
  if x.bits.toNat < 2 ^ 63 then x.bits.toNat else -(x.bits.toNat % 2 ^ 63 : Nat)

/-- `x <= y`. -/
def le (x y : F64) : Bool := !x.isNaN && !y.isNaN && x.rank ≤ y.rank

/-- `x < y`. -/
def lt (x y : F64) : Bool := !x.isNaN && !y.isNaN && x.rank < y.rank

theorem isNaN_of_isFinite {x : F64} (h : x.isFinite = true) : x.isNaN = false := by
  unfold isFinite at h
  unfold isNaN
  rw [decide_eq_true_eq] at h
  rw [decide_eq_false_iff_not]
  omega

theorem lt_trans {x y z : F64} (hxy : x.lt y = true) (hyz : y.lt z = true) :
    x.lt z = true := by
  simp only [lt, Bool.and_eq_true, Bool.not_eq_true', decide_eq_true_eq] at hxy hyz ⊢
  exact ⟨⟨hxy.1.1, hyz.1.2⟩, Int.lt_trans hxy.2 hyz.2⟩

/-- What is not at most a number is greater, as long as neither is a NaN. -/
theorem lt_of_not_le {x y : F64} (hx : x.isFinite = true) (hy : y.isFinite = true)
    (h : x.le y = false) : y.lt x = true := by
  simp only [le, lt, isNaN_of_isFinite hx, isNaN_of_isFinite hy, Bool.not_false, Bool.true_and,
    decide_eq_false_iff_not, decide_eq_true_eq] at h ⊢
  omega

-- -0 and 0, 1 and 2, a NaN and itself
example : le ⟨0x8000000000000000⟩ ⟨0⟩ = true ∧ le ⟨0⟩ ⟨0x8000000000000000⟩ = true ∧
    lt (ofInt 1) (ofInt 2) = true ∧ lt (ofInt (-2)) (ofInt (-1)) = true ∧
    le ⟨0x7FF8000000000000⟩ ⟨0x7FF8000000000000⟩ = false := by decide

end TurboMcp.Core.F64
