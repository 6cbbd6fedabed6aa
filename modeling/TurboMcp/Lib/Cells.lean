import Mathlib.Data.List.Forall2

/-!
# Lists changed at one place

What is read off a list, cell by cell, changes with one cell as that cell does.
-/

namespace TurboMcp.Lib

variable {α β : Type*} {f : α → Option β} {l : List α} {n : Nat} {x : α}

theorem eq_of_getElem? (h : l[n]? = some x) :
    l = l.take n ++ x :: l.drop (n + 1) := by
  obtain ⟨hn, rfl⟩ := List.getElem?_eq_some_iff.mp h
  rw [← List.drop_eq_getElem_cons hn, List.take_append_drop]

theorem set_eq_of_getElem? (h : l[n]? = some x) (a : α) :
    l.set n a = l.take n ++ a :: l.drop (n + 1) := by
  obtain ⟨hn, -⟩ := List.getElem?_eq_some_iff.mp h
  exact List.set_eq_take_append_cons_drop .. |>.trans (if_pos hn)

/-- **One cell**: with what the old cell showed, the new list shows what the old list and
the new cell show. -/
theorem perm_filterMap_set (h : l[n]? = some x) (a : α) :
    ((l.set n a).filterMap f ++ (f x).toList).Perm (l.filterMap f ++ (f a).toList) := by
  rw [set_eq_of_getElem? h a]
  nth_rewrite 3 [eq_of_getElem? h]
  have hcell : ∀ y : α, (y :: l.drop (n + 1)).filterMap f =
      (f y).toList ++ (l.drop (n + 1)).filterMap f := by
    intro y
    rw [List.filterMap_cons]
    cases f y <;> rfl
  rw [List.filterMap_append, List.filterMap_append, hcell, hcell, List.append_assoc,
    List.append_assoc, List.append_assoc]
  refine List.Perm.append_left _ (List.perm_append_comm.trans ?_)
  exact List.Perm.append_right _ List.perm_append_comm

/-- Two lists that correspond go on to when corresponding cells change alike. -/
theorem forall₂_set {R : α → β → Prop} {l : List α} {l' : List β} (h : List.Forall₂ R l l')
    (n : Nat) {a : α} {b : β} (hab : R a b) : List.Forall₂ R (l.set n a) (l'.set n b) := by
  induction h generalizing n with
  | nil => exact .nil
  | cons hxy _ ih =>
      cases n with
      | zero => exact .cons hab ‹_›
      | succ n => exact .cons hxy (ih n)

theorem modify_eq_of_getElem? (h : l[n]? = some x) (g : α → α) : l.modify n g = l.set n (g x) := by
  obtain ⟨hn, rfl⟩ := List.getElem?_eq_some_iff.mp h
  rw [List.modify_eq_take_cons_drop hn, set_eq_of_getElem? h]

end TurboMcp.Lib
