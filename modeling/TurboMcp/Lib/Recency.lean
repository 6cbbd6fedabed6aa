import Mathlib.Data.List.Nodup

/-!
# Recency

A history lists operations with the times they took place at.  `lastUse` is the
time of the last operation that uses a key; under a clock that moves on with
every operation, no two keys were last used at the same time.
-/

namespace TurboMcp.Lib

variable {α κ : Type*} [DecidableEq κ]

/-- When the key was last used, if it ever was. -/
def lastUse (uses : α → Option κ) (h : List (Nat × α)) (k : κ) : Option Nat :=
  (h.filter fun e => uses e.2 = some k).getLast?.map Prod.fst

variable {uses : α → Option κ} {h : List (Nat × α)} {k k' : κ} {t : Nat}

@[simp] theorem lastUse_nil : lastUse uses [] k = none := rfl

theorem lastUse_concat (e : Nat × α) :
    lastUse uses (h ++ [e]) k = if uses e.2 = some k then some e.1 else lastUse uses h k := by
  unfold lastUse
  rw [List.filter_append]
  by_cases he : uses e.2 = some k
  · rw [if_pos he, List.filter_cons_of_pos (by simpa using he), List.filter_nil,
      List.getLast?_append]
    rfl
  · rw [if_neg he, List.filter_cons_of_neg (by simpa using he), List.filter_nil, List.append_nil]

theorem exists_of_lastUse (hlast : lastUse uses h k = some t) :
    ∃ op, (t, op) ∈ h ∧ uses op = some k := by
  obtain ⟨e, he, rfl⟩ := Option.map_eq_some_iff.mp hlast
  have hmem := List.mem_of_getLast? he
  rw [List.mem_filter] at hmem
  exact ⟨e.2, hmem.1, of_decide_eq_true hmem.2⟩

/-- Both keys have been used, the first one longer ago. -/
def UsedBefore (uses : α → Option κ) (h : List (Nat × α)) (k k' : κ) : Prop :=
  ∃ t t', lastUse uses h k = some t ∧ lastUse uses h k' = some t' ∧ t < t'

/-- **The order of last uses is strict.** -/
theorem eq_of_lastUse (hclock : (h.map Prod.fst).Pairwise (· < ·))
    (hk : lastUse uses h k = some t) (hk' : lastUse uses h k' = some t) : k = k' := by
  obtain ⟨op, hop, huses⟩ := exists_of_lastUse hk
  obtain ⟨op', hop', huses'⟩ := exists_of_lastUse hk'
  have hnodup : (h.map Prod.fst).Nodup := hclock.imp fun hlt => Nat.ne_of_lt hlt
  have hsame : (t, op) = (t, op') := List.inj_on_of_nodup_map hnodup hop hop' rfl
  cases hsame
  exact Option.some.inj (huses.symm.trans huses')

theorem usedBefore_of_le {t' : Nat} (hclock : (h.map Prod.fst).Pairwise (· < ·)) (hne : k ≠ k')
    (hk : lastUse uses h k = some t) (hk' : lastUse uses h k' = some t') (hle : t ≤ t') :
    UsedBefore uses h k k' := by
  refine ⟨t, t', hk, hk', Nat.lt_of_le_of_ne hle ?_⟩
  intro heq
  apply hne
  apply eq_of_lastUse hclock hk
  rw [hk', heq]

end TurboMcp.Lib
