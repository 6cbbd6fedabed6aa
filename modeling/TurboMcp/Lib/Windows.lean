import Mathlib.Data.List.Basic

/-!
# Events in windows of time

Times are logged as they come.  A bound on how many of them lie in any window of
a given length can be kept one event at a time: the next one is admitted when few
enough lie so far behind it (`bounded_concat_iff`).
-/

namespace TurboMcp.Lib

/-- The times in the window of length `d` that opens at `t`; its ends belong to it. -/
def inWindow (d t : Nat) (times : List Nat) : List Nat :=
  times.filter fun x => t ≤ x ∧ x ≤ t + d

/-- The times at most `d` before `now`. -/
def recent (d now : Nat) (times : List Nat) : List Nat :=
  times.filter fun x => now ≤ x + d

/-- At most `b` of the times lie in any window. -/
def Bounded (b d : Nat) (times : List Nat) : Prop :=
  ∀ t, (inWindow d t times).length ≤ b

variable {b d now : Nat} {times : List Nat}

theorem inWindow_concat (t : Nat) :
    inWindow d t (times ++ [now]) =
      inWindow d t times ++ if t ≤ now ∧ now ≤ t + d then [now] else [] := by
  unfold inWindow
  rw [List.filter_append]
  by_cases hin : t ≤ now ∧ now ≤ t + d
  · rw [if_pos hin, List.filter_cons_of_pos (by simpa using hin), List.filter_nil]
  · rw [if_neg hin, List.filter_cons_of_neg (by simpa using hin), List.filter_nil]

theorem bounded_nil (b d : Nat) : Bounded b d [] := by
  intro t
  exact Nat.zero_le b

/-- A window that the present closes holds what is recent. -/
theorem inWindow_of_recent (hpast : ∀ x ∈ times, x ≤ now) :
    inWindow d (now - d) times = recent d now times := by
  apply List.filter_congr
  intro x hx
  have hle := hpast x hx
  rw [decide_eq_decide]
  omega

/-- The past part of a window that is open now is recent. -/
theorem length_inWindow_le_recent {t : Nat} (hopen : now ≤ t + d) :
    (inWindow d t times).length ≤ (recent d now times).length := by
  apply List.Sublist.length_le
  apply List.monotone_filter_right
  intro x hx
  rw [decide_eq_true_eq] at hx ⊢
  omega

/-- **One more event**: the bound is kept exactly if fewer events than it are recent. -/
theorem bounded_concat_iff (hpast : ∀ x ∈ times, x ≤ now) :
    Bounded b d (times ++ [now]) ↔ Bounded b d times ∧ (recent d now times).length < b := by
  constructor
  · intro h
    constructor
    · intro t
      have ht := h t
      rw [inWindow_concat, List.length_append] at ht
      omega
    · have hnow := h (now - d)
      have hin : now - d ≤ now ∧ now ≤ now - d + d := by omega
      rw [inWindow_concat, if_pos hin, List.length_append, inWindow_of_recent hpast,
        List.length_singleton] at hnow
      omega
  · rintro ⟨h, hrecent⟩ t
    rw [inWindow_concat, List.length_append]
    split
    · rename_i hin
      have hle : (inWindow d t times).length ≤ (recent d now times).length :=
        length_inWindow_le_recent hin.2
      rw [List.length_singleton]
      omega
    · exact h t

/-- Too many events at one time are all in one window. -/
theorem not_bounded_replicate {n : Nat} (h : b < n) (t : Nat) :
    ¬ Bounded b d (List.replicate n t) := by
  intro hbounded
  have ht := hbounded t
  unfold inWindow at ht
  rw [List.filter_eq_self.mpr ?_, List.length_replicate] at ht
  · omega
  · intro x hx
    rw [List.eq_of_mem_replicate hx, decide_eq_true_eq]
    omega

end TurboMcp.Lib
