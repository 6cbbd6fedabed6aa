import Mathlib.Data.List.Nodup

/-!
# Pages of a changing list

A walk asks for a list page by page, and says with each request how many items
it has been shown.  Between two requests items may go, and new ones come at the
end: the list is what is live of an order that only grows.  Nothing is shown
twice, or out of order.  What has been shown and then goes moves the rest up,
and only then can an item be passed over.
-/

namespace TurboMcp.Lib

variable {α : Type*} {live live' : α → Bool} {order shown : List α}

/-- The next `size` items after as many as have been shown. -/
def nextPage (live : α → Bool) (order shown : List α) (size : Nat) : List α :=
  ((order.filter live).drop shown.length).take size

/-! ## Where a walk stands -/

/-- What has been shown lies before some place of the order, and no more than
that is live there. -/
def Reached (live : α → Bool) (order shown : List α) : Prop :=
  ∃ before after, order = before ++ after ∧ shown.Sublist before ∧
    (before.filter live).length ≤ shown.length

/-- What is live before that place has been shown, too. -/
def CaughtUp (live : α → Bool) (order shown : List α) : Prop :=
  ∃ before after, order = before ++ after ∧ shown.Sublist before ∧
    (before.filter live).length ≤ shown.length ∧ ∀ x ∈ before, live x = true → x ∈ shown

theorem reached_nil (live : α → Bool) (order : List α) : Reached live order [] :=
  ⟨[], order, rfl, List.Sublist.refl [], Nat.le_refl 0⟩

theorem caughtUp_nil (live : α → Bool) (order : List α) : CaughtUp live order [] :=
  ⟨[], order, rfl, List.Sublist.refl [], Nat.le_refl 0, nofun⟩

theorem Reached.sublist (h : Reached live order shown) : shown.Sublist order := by
  obtain ⟨before, after, rfl, hsub, -⟩ := h
  exact hsub.trans (List.sublist_append_left before after)

theorem length_filter_le_of_imp {xs : List α} (h : ∀ x ∈ xs, live' x = true → live x = true) :
    (xs.filter live').length ≤ (xs.filter live).length := by
  rw [← List.countP_eq_length_filter, ← List.countP_eq_length_filter]
  exact List.countP_mono_left h

/-- Items go, and new ones come at the end. -/
theorem Reached.later (h : Reached live order shown)
    (hlive : ∀ x ∈ order, live' x = true → live x = true) (new : List α) :
    Reached live' (order ++ new) shown := by
  obtain ⟨before, after, rfl, hsub, hlen⟩ := h
  refine ⟨before, after ++ new, List.append_assoc .., hsub, Nat.le_trans ?_ hlen⟩
  exact length_filter_le_of_imp fun x hx => hlive x (List.mem_append_left _ hx)

theorem CaughtUp.later (h : CaughtUp live order shown)
    (hlive : ∀ x ∈ order, live' x = true → live x = true) (new : List α) :
    CaughtUp live' (order ++ new) shown := by
  obtain ⟨before, after, rfl, hsub, hlen, hall⟩ := h
  have hbefore : ∀ x ∈ before, live' x = true → live x = true :=
    fun x hx => hlive x (List.mem_append_left _ hx)
  refine ⟨before, after ++ new, List.append_assoc .., hsub, Nat.le_trans ?_ hlen, ?_⟩
  · exact length_filter_le_of_imp hbefore
  · intro x hx hx'
    exact hall x hx (hbefore x hx hx')

/-! ## A page -/

/-- A list can be cut where its filtered list is. -/
theorem exists_append_of_filter (p : α → Bool) (xs : List α) (n : Nat) : ∃ before after,
    xs = before ++ after ∧ before.filter p = (xs.filter p).take n ∧
      after.filter p = (xs.filter p).drop n := by
  have hcut : xs.filter p = (xs.filter p).take n ++ (xs.filter p).drop n :=
    (List.take_append_drop n _).symm
  exact List.filter_eq_append_iff.mp hcut

theorem Reached.page (h : Reached live order shown) (size : Nat) :
    Reached live order (shown ++ nextPage live order shown size) := by
  obtain ⟨before, after, rfl, hsub, hlen⟩ := h
  -- items that went leave room, and so many of the rest are passed over
  obtain ⟨skip, hskip⟩ := Nat.exists_eq_add_of_le hlen
  have hpage : nextPage live (before ++ after) shown size =
      ((after.filter live).drop skip).take size := by
    unfold nextPage
    rw [List.filter_append, hskip, List.drop_append, Nat.add_sub_cancel_left,
      List.drop_eq_nil_of_le (Nat.le_add_right _ _), List.nil_append]
  rw [hpage]
  obtain ⟨front, back, rfl, hfront, -⟩ := exists_append_of_filter live after (skip + size)
  have hfrontPage : ((((front ++ back).filter live).drop skip).take size).Sublist front := by
    have hsame : (((front ++ back).filter live).drop skip).take size =
        (front.filter live).drop skip := by
      rw [hfront, List.drop_take, Nat.add_sub_cancel_left]
    rw [hsame]
    exact (List.drop_sublist _ _).trans List.filter_sublist
  refine ⟨before ++ front, back, (List.append_assoc ..).symm, hsub.append hfrontPage, ?_⟩
  rw [List.filter_append, List.length_append, List.length_append, hfront, List.length_take,
    List.length_take, List.length_drop]
  omega

/-- As long as all that was shown is live, nothing is passed over. -/
theorem CaughtUp.eq (h : CaughtUp live order shown) (hshown : ∀ x ∈ shown, live x = true) :
    ∃ before after, order = before ++ after ∧ before.filter live = shown := by
  obtain ⟨before, after, rfl, hsub, hlen, -⟩ := h
  refine ⟨before, after, rfl, ?_⟩
  have hfilter : (shown.filter live).Sublist (before.filter live) := hsub.filter live
  rw [List.filter_eq_self.mpr hshown] at hfilter
  exact (hfilter.eq_of_length_le hlen).symm

theorem CaughtUp.page (h : CaughtUp live order shown) (hshown : ∀ x ∈ shown, live x = true)
    (size : Nat) : CaughtUp live order (shown ++ nextPage live order shown size) := by
  obtain ⟨before, after, rfl, hbefore⟩ := h.eq hshown
  have hpage : nextPage live (before ++ after) shown size = (after.filter live).take size := by
    unfold nextPage
    rw [List.filter_append, hbefore, List.drop_left]
  rw [hpage]
  obtain ⟨front, back, rfl, hfront, -⟩ := exists_append_of_filter live after size
  have hfilter : (before ++ front).filter live =
      shown ++ ((front ++ back).filter live).take size := by
    rw [List.filter_append, hbefore, hfront]
  refine ⟨before ++ front, back, (List.append_assoc ..).symm, ?_, ?_, ?_⟩
  · rw [← hfilter]
    exact List.filter_sublist
  · exact Nat.le_of_eq (congrArg List.length hfilter)
  · intro x hx hlive
    rw [← hfilter]
    exact List.mem_filter.mpr ⟨hx, hlive⟩

/-- At the end of the list everything live has been shown. -/
theorem CaughtUp.all (h : CaughtUp live order shown) (hshown : ∀ x ∈ shown, live x = true)
    (hend : (order.filter live).length ≤ shown.length) :
    ∀ x ∈ order, live x = true → x ∈ shown := by
  obtain ⟨before, after, rfl, hbefore⟩ := h.eq hshown
  rw [List.filter_append, hbefore, List.length_append] at hend
  have hnone : after.filter live = [] := List.eq_nil_of_length_eq_zero (by omega)
  intro x hx hlive
  have hmem : x ∈ (before ++ after).filter live := List.mem_filter.mpr ⟨hx, hlive⟩
  rw [List.filter_append, hbefore, hnone, List.append_nil] at hmem
  exact hmem

end TurboMcp.Lib
