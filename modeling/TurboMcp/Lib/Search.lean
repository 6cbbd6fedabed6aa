import Mathlib.Data.List.Basic

/-!
# Searching for a pattern that stands alone

A pattern stands alone where what is before it and what is after it, if there is
anything, are of given kinds.  `searchAlone` goes from one occurrence of the
pattern to the next, past each that does not stand alone.  Where no element of
the pattern may stand before it, this finds the first one that does.

`Quiet` says that the pattern does not stand alone anywhere in a part of a text,
in view of what is around the part; the parts of a text are looked at one by one.
-/

namespace TurboMcp.Lib

variable {α : Type*} [DecidableEq α]

/-- How far into a list a pattern first occurs. -/
def find (pattern : List α) : List α → Option Nat
  | [] => if pattern.isEmpty then some 0 else none
  | c :: l => if pattern.isPrefixOf (c :: l) then some 0 else (find pattern l).map (· + 1)

section

variable (before after : α → Bool) (pattern : List α)

/-- What is before and after an occurrence at `pos` lets it stand alone. -/
def standsAlone (l : List α) (pos : Nat) : Bool :=
  (l.take pos).getLast?.all before && (l.drop (pos + pattern.length)).head?.all after

/-- The search from `start` on.  Every round moves past an occurrence, so there
are no more rounds than elements. -/
def searchAloneFrom (l : List α) : Nat → Nat → Option Nat
  | 0, _ => none
  | rounds + 1, start =>
      match find pattern (l.drop start) with
      | none => none
      | some pos =>
          if standsAlone before after pattern l (start + pos) then some (start + pos)
          else searchAloneFrom l rounds (start + pos + pattern.length)

def searchAlone (l : List α) : Option Nat :=
  searchAloneFrom before after pattern l (l.length + 1) 0

/-! ## Quiet parts -/

/-- The pattern stands alone at the start of a list that `prev` comes before. -/
def aloneAt (prev : Option α) (l : List α) : Bool :=
  prev.all before && pattern.isPrefixOf l && (l.drop pattern.length).head?.all after

/-- The pattern does not stand alone from anywhere in `w` on, between `prev` and
`tail`. -/
def Quiet : Option α → List α → List α → Prop
  | _, [], _ => True
  | prev, c :: w, tail =>
      aloneAt before after pattern prev (c :: (w ++ tail)) = false ∧ Quiet (some c) w tail

/-- The first place where the pattern stands alone. -/
def scan : Option α → List α → Option Nat
  | _, [] => none
  | prev, c :: l =>
      if aloneAt before after pattern prev (c :: l) then some 0
      else (scan (some c) l).map (· + 1)

end

variable {before after : α → Bool} {pattern : List α}

/-- What comes before whatever follows `w`. -/
def lastOr (prev : Option α) (w : List α) : Option α := w.getLast?.or prev

omit [DecidableEq α] in
@[simp] theorem lastOr_nil (prev : Option α) : lastOr prev [] = prev := rfl

omit [DecidableEq α] in
@[simp] theorem lastOr_cons (prev : Option α) (c : α) (w : List α) :
    lastOr prev (c :: w) = lastOr (some c) w := by
  unfold lastOr
  rw [List.getLast?_cons]
  cases w.getLast? with
  | none => rfl
  | some d => rfl

@[simp] theorem quiet_nil (prev : Option α) (tail : List α) :
    Quiet before after pattern prev [] tail := trivial

theorem quiet_append (prev : Option α) (u w tail : List α) :
    Quiet before after pattern prev (u ++ w) tail ↔
      Quiet before after pattern prev u (w ++ tail) ∧
        Quiet before after pattern (lastOr prev u) w tail := by
  induction u generalizing prev with
  | nil => simp
  | cons c u ih =>
      simp only [List.cons_append, Quiet, lastOr_cons, ih, List.append_assoc, and_assoc]

/-- A part is quiet if and only if the pattern stands alone nowhere in it. -/
theorem quiet_iff {prev : Option α} {w tail : List α} :
    Quiet before after pattern prev w tail ↔
      ∀ u c v, w = u ++ c :: v →
        aloneAt before after pattern (lastOr prev u) (c :: (v ++ tail)) = false := by
  induction w generalizing prev with
  | nil => simp
  | cons d w ih =>
      rw [Quiet, ih]
      constructor
      · rintro ⟨hhead, hrest⟩ u c v heq
        rcases u with _ | ⟨e, u⟩
        · cases heq
          exact hhead
        · cases heq
          rw [lastOr_cons]
          exact hrest u c v rfl
      · intro h
        refine ⟨h [] d w rfl, ?_⟩
        intro u c v heq
        have hcons := h (d :: u) c v (by rw [heq]; rfl)
        rwa [lastOr_cons] at hcons

theorem aloneAt_of_prev {prev : α} (h : before prev = false) (l : List α) :
    aloneAt before after pattern (some prev) l = false := by
  simp [aloneAt, h]

/-- After something the pattern cannot follow, a run of such things is quiet. -/
theorem quiet_of_forall {prev : α} (hprev : before prev = false) {w : List α}
    (hw : ∀ c ∈ w, before c = false) (tail : List α) :
    Quiet before after pattern (some prev) w tail := by
  induction w generalizing prev with
  | nil => trivial
  | cons c w ih =>
      rw [List.forall_mem_cons] at hw
      exact ⟨aloneAt_of_prev hprev _, ih hw.1 hw.2⟩

/-! ## The search finds the first place -/

theorem scan_append {prev : Option α} {w tail : List α}
    (h : Quiet before after pattern prev w tail) :
    scan before after pattern prev (w ++ tail) =
      (scan before after pattern (lastOr prev w) tail).map (w.length + ·) := by
  induction w generalizing prev with
  | nil => simp
  | cons c w ih =>
      rw [List.cons_append, scan, h.1, if_neg Bool.false_ne_true, ih h.2, lastOr_cons,
        Option.map_map]
      congr 1
      funext n
      simp only [Function.comp_apply, List.length_cons]
      omega

theorem scan_eq_none_iff {prev : Option α} {l : List α} :
    scan before after pattern prev l = none ↔ Quiet before after pattern prev l [] := by
  induction l generalizing prev with
  | nil => simp [scan]
  | cons c l ih =>
      rw [scan, Quiet, List.append_nil, ← ih]
      cases aloneAt before after pattern prev (c :: l) <;> simp

theorem find_eq_none {l : List α} (h : find pattern l = none) (u v : List α)
    (heq : l = u ++ v) (hne : v ≠ []) : pattern.isPrefixOf v = false := by
  induction l generalizing u with
  | nil =>
      rw [List.nil_eq, List.append_eq_nil_iff] at heq
      exact absurd heq.2 hne
  | cons c l ih =>
      rw [find] at h
      split at h
      · cases h
      · rename_i hleading
        rw [Option.map_eq_none_iff] at h
        rcases u with _ | ⟨d, u⟩
        · rw [List.nil_append] at heq
          rw [← heq]
          exact Bool.eq_false_iff.mpr hleading
        · cases heq
          exact ih h u rfl

/-- The first occurrence: the pattern is there, and nowhere before. -/
theorem find_eq_some {l : List α} {pos : Nat} (h : find pattern l = some pos) :
    ∃ u v, l = u ++ (pattern ++ v) ∧ u.length = pos ∧
      ∀ u' c v', u = u' ++ c :: v' → pattern.isPrefixOf (c :: (v' ++ (pattern ++ v))) = false := by
  induction l generalizing pos with
  | nil =>
      rw [find] at h
      split at h
      · rename_i hempty
        cases h
        rw [List.isEmpty_iff] at hempty
        exact ⟨[], [], by simp [hempty], rfl, by simp⟩
      · cases h
  | cons c l ih =>
      rw [find] at h
      split at h
      · rename_i hleading
        cases h
        rw [List.isPrefixOf_iff_prefix] at hleading
        obtain ⟨v, hv⟩ := hleading
        exact ⟨[], v, hv.symm, rfl, by simp⟩
      · rename_i hleading
        obtain ⟨pos', hpos', rfl⟩ := Option.map_eq_some_iff.mp h
        obtain ⟨u, v, rfl, rfl, hfirst⟩ := ih hpos'
        refine ⟨c :: u, v, rfl, rfl, ?_⟩
        intro u' d v' heq
        rcases u' with _ | ⟨e, u'⟩
        · cases heq
          exact Bool.eq_false_iff.mpr hleading
        · cases heq
          exact hfirst u' d v' rfl

/-- The rounds of the search from `start` on find what a scan finds there. -/
theorem searchAloneFrom_eq (hne : pattern ≠ []) (hpattern : ∀ c ∈ pattern, before c = false)
    {rounds : Nat} (u w : List α) (hrounds : w.length < rounds) :
    searchAloneFrom before after pattern (u ++ w) rounds u.length =
      (scan before after pattern u.getLast? w).map (u.length + ·) := by
  induction rounds generalizing u w with
  | zero => omega
  | succ rounds ih =>
      rw [searchAloneFrom, List.drop_left]
      cases hfind : find pattern w with
      | none =>
          have hquiet : Quiet before after pattern u.getLast? w [] := by
            rw [quiet_iff]
            rintro u' c v rfl
            have hleading := find_eq_none hfind u' (c :: v) rfl (List.cons_ne_nil _ _)
            simp [aloneAt, hleading]
          rw [scan_eq_none_iff.mpr hquiet]
          rfl
      | some pos =>
          obtain ⟨w₁, w₂, rfl, rfl, hfirst⟩ := find_eq_some hfind
          have hquiet : Quiet before after pattern u.getLast? w₁ (pattern ++ w₂) := by
            rw [quiet_iff]
            intro u' c v heq
            simp [aloneAt, hfirst u' c v heq]
          obtain ⟨c, cs, rfl⟩ := List.exists_cons_of_ne_nil hne
          have hlast : lastOr u.getLast? w₁ = (u ++ w₁).getLast? := by
            rw [List.getLast?_append]
            rfl
          have htext : u ++ (w₁ ++ (c :: cs ++ w₂)) = (u ++ w₁ ++ (c :: cs)) ++ w₂ := by simp
          have hnext : u.length + w₁.length + (c :: cs).length = (u ++ w₁ ++ (c :: cs)).length := by
            simp [Nat.add_assoc]
          have hstands : standsAlone before after (c :: cs) (u ++ (w₁ ++ (c :: cs ++ w₂)))
              (u.length + w₁.length) =
                aloneAt before after (c :: cs) (lastOr u.getLast? w₁) (c :: (cs ++ w₂)) := by
            have hleading : (c :: cs).isPrefixOf (c :: (cs ++ w₂)) = true := by
              rw [List.isPrefixOf_iff_prefix]
              exact List.prefix_append (c :: cs) w₂
            unfold standsAlone aloneAt
            rw [hnext, htext, List.drop_left, ← List.length_append, List.append_assoc,
              List.take_left, hlast, hleading, Bool.and_true, ← List.cons_append, List.drop_left]
          rw [scan_append hquiet]
          simp only [hstands]
          rw [List.cons_append, scan]
          split
          · rfl
          · -- past the occurrence, which holds no place to start from
            have hcs : Quiet before after (c :: cs) (some c) cs w₂ :=
              quiet_of_forall (hpattern c List.mem_cons_self)
                (fun d hd => hpattern d (List.mem_cons_of_mem _ hd)) w₂
            have hprev : lastOr (some c) cs = (u ++ w₁ ++ (c :: cs)).getLast? := by
              rw [List.getLast?_append, ← lastOr, lastOr_cons]
            have hrec := ih (u ++ w₁ ++ (c :: cs)) w₂ (by simp at hrounds; omega)
            rw [← List.cons_append, htext, hnext, hrec, scan_append hcs, hprev, Option.map_map,
              Option.map_map, Option.map_map]
            congr 1
            funext n
            simp only [Function.comp_apply, List.length_append, List.length_cons]
            omega

/-- **The search is the scan**. -/
theorem searchAlone_eq (hne : pattern ≠ []) (hpattern : ∀ c ∈ pattern, before c = false)
    (l : List α) :
    searchAlone before after pattern l = scan before after pattern none l := by
  have hfrom : searchAloneFrom before after pattern ([] ++ l) (l.length + 1) ([] : List α).length =
      (scan before after pattern ([] : List α).getLast? l).map (([] : List α).length + ·) :=
    searchAloneFrom_eq hne hpattern [] l (Nat.lt_succ_self l.length)
  rw [List.nil_append] at hfrom
  rw [searchAlone, ← List.length_nil (α := α), hfrom]
  simp

/-- Nothing is found where and only where the pattern stands alone nowhere. -/
theorem searchAlone_eq_none_iff (hne : pattern ≠ []) (hpattern : ∀ c ∈ pattern, before c = false)
    {l : List α} :
    searchAlone before after pattern l = none ↔ Quiet before after pattern none l [] := by
  rw [searchAlone_eq hne hpattern, scan_eq_none_iff]

/-- What stands alone after a quiet part is found. -/
theorem searchAlone_of_quiet (hne : pattern ≠ []) (hpattern : ∀ c ∈ pattern, before c = false)
    {w tail : List α} (hquiet : Quiet before after pattern none w tail)
    (halone : aloneAt before after pattern w.getLast? tail = true) :
    searchAlone before after pattern (w ++ tail) = some w.length := by
  rw [searchAlone_eq hne hpattern, scan_append hquiet]
  have hlast : lastOr none w = w.getLast? := by
    unfold lastOr
    cases w.getLast? <;> rfl
  rcases tail with _ | ⟨c, tail⟩
  · have hleading : pattern.isPrefixOf [] = true := by
      unfold aloneAt at halone
      simp only [Bool.and_eq_true] at halone
      exact halone.1.2
    exact absurd (by simpa using hleading) hne
  · rw [scan, hlast, if_pos halone]
    rfl

end TurboMcp.Lib
