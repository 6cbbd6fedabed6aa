import Mathlib.Data.List.Nodup
import Mathlib.Data.List.Perm.Subperm
import Mathlib.Data.List.Range

/-!
# Picking a fresh name

Walk through a sequence of candidates until one is not taken.  When the
candidates are pairwise different, as many retries as there are taken names
are always enough.
-/

namespace TurboMcp.Lib

variable {α : Type*} [DecidableEq α]

/-- The first candidate from `n` on that is not in `used`, within `fuel`
retries. -/
def firstFresh (candidate : Nat → α) (used : List α) : Nat → Nat → α
  | 0, n => candidate n
  | fuel + 1, n =>
      if candidate n ∈ used then firstFresh candidate used fuel (n + 1)
      else candidate n

theorem firstFresh_mem {candidate : Nat → α} {used : List α} {fuel n : Nat}
    (h : firstFresh candidate used fuel n ∈ used) :
    ∀ i ≤ fuel, candidate (n + i) ∈ used := by
  induction fuel generalizing n with
  | zero =>
      intro i hi
      obtain rfl : i = 0 := by omega
      exact h
  | succ fuel ih =>
      rw [firstFresh] at h
      split at h
      · rename_i hn
        intro i hi
        cases i with
        | zero => exact hn
        | succ i =>
            have := ih h i (by omega)
            rwa [Nat.add_right_comm, Nat.add_assoc] at this
      · rename_i hn
        exact absurd h hn

/-- The loop stops at the first candidate that is not taken, or where its fuel
ends. -/
theorem exists_firstFresh (candidate : Nat → α) (used : List α) (fuel n : Nat) :
    ∃ i ≤ fuel, firstFresh candidate used fuel n = candidate (n + i) ∧
      ∀ j < i, candidate (n + j) ∈ used := by
  induction fuel generalizing n with
  | zero => exact ⟨0, Nat.le_refl 0, rfl, nofun⟩
  | succ fuel ih =>
      rw [firstFresh]
      split
      · rename_i hn
        obtain ⟨i, hi, heq, htaken⟩ := ih (n + 1)
        refine ⟨i + 1, Nat.succ_le_succ hi, ?_, ?_⟩
        · rw [heq, Nat.add_assoc, Nat.add_comm 1 i]
        · intro j hj
          rcases j with _ | j
          · exact hn
          · have hj' := htaken j (Nat.lt_of_succ_lt_succ hj)
            rwa [Nat.add_assoc, Nat.add_comm 1 j] at hj'
      · exact ⟨0, Nat.zero_le _, rfl, nofun⟩

/-- **Freshness**: `used.length + 1` different candidates cannot all be taken. -/
theorem firstFresh_not_mem {candidate : Nat → α}
    (hinj : Function.Injective candidate) (used : List α) :
    firstFresh candidate used used.length 0 ∉ used := by
  intro h
  have hall := firstFresh_mem h
  have hnd : ((List.range (used.length + 1)).map candidate).Nodup :=
    List.nodup_range.map hinj
  have hsub : (List.range (used.length + 1)).map candidate ⊆ used := by
    intro x hx
    obtain ⟨i, hi, rfl⟩ := List.mem_map.mp hx
    have := hall i (by rw [List.mem_range] at hi; omega)
    rwa [Nat.zero_add] at this
  have hlen := (List.subperm_of_subset hnd hsub).length_le
  rw [List.length_map, List.length_range] at hlen
  omega

end TurboMcp.Lib
