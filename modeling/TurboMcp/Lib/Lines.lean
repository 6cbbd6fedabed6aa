import Mathlib.Data.List.DropRight

/-!
# Lines of a stream

A stream is cut after every separator; the lines are trimmed at both ends and
the blank ones dropped.  `frames` is that reading of a whole stream.  What is
blank (the separator included) can neither start nor end a frame, so frames
keep every element that is not: `nonblank` counts them, and dropping a prefix
changes the frames as soon as the prefix holds one.
-/

namespace TurboMcp.Lib

variable {α : Type*} [DecidableEq α]

/-- Cut after every `sep`; what follows the last one is a line too. -/
def splitInclusive (sep : α) : List α → List (List α)
  | [] => []
  | b :: s =>
      if b = sep then [b] :: splitInclusive sep s
      else
        match splitInclusive sep s with
        | [] => [[b]]
        | l :: ls => (b :: l) :: ls

/-- Drop the blanks at both ends. -/
def trim (blank : α → Bool) (l : List α) : List α := (l.dropWhile blank).rdropWhile blank

/-- The trimmed lines of a stream, blank ones left out. -/
def frames (sep : α) (blank : α → Bool) (s : List α) : List (List α) :=
  ((splitInclusive sep s).map (trim blank)).filter fun l => !l.isEmpty

/-- Every line, its separator included, has at most `max` elements. -/
def Fits (sep : α) (max : Nat) (s : List α) : Prop :=
  ∀ l ∈ splitInclusive sep s, l.length ≤ max

/-- How many elements are not blank. -/
def nonblank (blank : α → Bool) (l : List α) : Nat := l.countP fun b => !blank b

/-! ## Cutting -/

theorem splitInclusive_ne_nil (sep : α) {s : List α} (h : s ≠ []) :
    splitInclusive sep s ≠ [] := by
  cases s with
  | nil => exact absurd rfl h
  | cons b s =>
      rw [splitInclusive]
      split
      · simp
      · split <;> simp

/-- A finished line is cut off first. -/
theorem splitInclusive_line {sep : α} {l : List α} (h : sep ∉ l) (s : List α) :
    splitInclusive sep (l ++ sep :: s) = (l ++ [sep]) :: splitInclusive sep s := by
  induction l with
  | nil => simp [splitInclusive]
  | cons b l ih =>
      rw [List.mem_cons, not_or] at h
      rw [List.cons_append, splitInclusive, if_neg (Ne.symm h.1), ih h.2]
      rfl

/-- An unfinished line is the only one. -/
theorem splitInclusive_rest {sep : α} {l : List α} (h : sep ∉ l) (hl : l ≠ []) :
    splitInclusive sep l = [l] := by
  induction l with
  | nil => exact absurd rfl hl
  | cons b l ih =>
      rw [List.mem_cons, not_or] at h
      rw [splitInclusive, if_neg (Ne.symm h.1)]
      cases l with
      | nil => rfl
      | cons c l => rw [ih h.2 (by simp)]

/-- A stream whose first separator comes after `p` starts with a longer line
than without `p`. -/
theorem splitInclusive_append {sep : α} {p : List α} (h : sep ∉ p) {s : List α}
    (hs : s ≠ []) :
    ∃ l ls, splitInclusive sep s = l :: ls ∧
      splitInclusive sep (p ++ s) = (p ++ l) :: ls := by
  induction p with
  | nil =>
      obtain ⟨l, ls, hl⟩ := List.exists_cons_of_ne_nil (splitInclusive_ne_nil sep hs)
      exact ⟨l, ls, hl, by simpa using hl⟩
  | cons b p ih =>
      rw [List.mem_cons, not_or] at h
      obtain ⟨l, ls, hl, hp⟩ := ih h.2
      refine ⟨l, ls, hl, ?_⟩
      rw [List.cons_append, splitInclusive, if_neg (Ne.symm h.1), hp]
      rfl

theorem Fits.of_append {sep : α} {max : Nat} {p s : List α} (h : sep ∉ p)
    (hf : Fits sep max (p ++ s)) : Fits sep max s := by
  by_cases hs : s = []
  · subst hs
    intro l hl
    simp [splitInclusive] at hl
  · obtain ⟨l, ls, hsplit, hp⟩ := splitInclusive_append h hs
    intro l' hl'
    rw [hsplit, List.mem_cons] at hl'
    rcases hl' with rfl | hl'
    · have := hf (p ++ l') (by simp [hp])
      rw [List.length_append] at this
      omega
    · exact hf l' (by simp [hp, hl'])

theorem Fits.line {sep : α} {max : Nat} {l s : List α} (h : sep ∉ l)
    (hf : Fits sep max (l ++ sep :: s)) : l.length + 1 ≤ max ∧ Fits sep max s := by
  rw [Fits, splitInclusive_line h] at hf
  refine ⟨?_, fun l' hl' => hf l' (List.mem_cons_of_mem _ hl')⟩
  simpa using hf (l ++ [sep]) (by simp)

/-- The cap also bounds a line that is still being read. -/
theorem Fits.upTo {sep : α} {max : Nat} {l s : List α} (h : sep ∉ l)
    (hf : Fits sep max (l ++ s)) : l.length ≤ max := by
  by_cases hs : s = []
  · subst hs
    by_cases hl : l = []
    · simp [hl]
    · rw [List.append_nil] at hf
      exact hf l (by simp [splitInclusive_rest h hl])
  · obtain ⟨l', ls, -, hp⟩ := splitInclusive_append h hs
    have := hf (l ++ l') (by simp [hp])
    rw [List.length_append] at this
    omega

/-! ## Frames -/

@[simp] theorem frames_nil (sep : α) (blank : α → Bool) : frames sep blank [] = [] := rfl

/-- The frame of one line, if it has one. -/
def frameOf (blank : α → Bool) (l : List α) : List (List α) :=
  if (trim blank l).isEmpty then [] else [trim blank l]

theorem frames_line {sep : α} {blank : α → Bool} {l : List α} (h : sep ∉ l) (s : List α) :
    frames sep blank (l ++ sep :: s) = frameOf blank (l ++ [sep]) ++ frames sep blank s := by
  rw [frames, splitInclusive_line h, List.map_cons, List.filter_cons, frameOf]
  by_cases ht : (trim blank (l ++ [sep])).isEmpty = true
  · simp [ht, frames]
  · simp [ht, frames]

theorem frames_rest {sep : α} {blank : α → Bool} {l : List α} (h : sep ∉ l) :
    frames sep blank l = frameOf blank l := by
  by_cases hl : l = []
  · subst hl
    rfl
  · rw [frames, splitInclusive_rest h hl, frameOf]
    by_cases ht : (trim blank l).isEmpty = true
    · simp [ht]
    · simp [ht]

omit [DecidableEq α] in
theorem trim_append_of_blank {blank : α → Bool} {p : List α} (h : ∀ b ∈ p, blank b = true)
    (l : List α) : trim blank (p ++ l) = trim blank l := by
  rw [trim, List.dropWhile_append_of_pos h, trim]

/-- Blanks in front of a line do not show. -/
theorem frames_append_of_blank {sep : α} {blank : α → Bool} {p : List α} (hsep : sep ∉ p)
    (h : ∀ b ∈ p, blank b = true) (s : List α) :
    frames sep blank (p ++ s) = frames sep blank s := by
  by_cases hs : s = []
  · subst hs
    have ht := trim_append_of_blank h ([] : List α)
    rw [List.append_nil] at ht ⊢
    rw [frames_rest hsep, frameOf, ht]
    rfl
  · obtain ⟨l, ls, hsplit, hp⟩ := splitInclusive_append hsep hs
    rw [frames, frames, hsplit, hp, List.map_cons, List.map_cons, trim_append_of_blank h]

/-! ## Counting -/

omit [DecidableEq α] in
theorem nonblank_append (blank : α → Bool) (l l' : List α) :
    nonblank blank (l ++ l') = nonblank blank l + nonblank blank l' :=
  List.countP_append

omit [DecidableEq α] in
theorem nonblank_eq_zero_iff (blank : α → Bool) (l : List α) :
    nonblank blank l = 0 ↔ ∀ b ∈ l, blank b = true := by
  simp [nonblank, List.countP_eq_zero]

omit [DecidableEq α] in
theorem nonblank_dropWhile (blank : α → Bool) (l : List α) :
    nonblank blank (l.dropWhile blank) = nonblank blank l := by
  conv_rhs => rw [← List.takeWhile_append_dropWhile (p := blank) (l := l)]
  have htake : nonblank blank (l.takeWhile blank) = 0 :=
    (nonblank_eq_zero_iff blank _).mpr fun b hb => List.mem_takeWhile_imp hb
  rw [nonblank_append, htake, Nat.zero_add]

omit [DecidableEq α] in
theorem nonblank_reverse (blank : α → Bool) (l : List α) :
    nonblank blank l.reverse = nonblank blank l :=
  List.countP_reverse

omit [DecidableEq α] in
theorem nonblank_trim (blank : α → Bool) (l : List α) :
    nonblank blank (trim blank l) = nonblank blank l := by
  rw [trim, List.rdropWhile, nonblank_reverse, nonblank_dropWhile, nonblank_reverse,
    nonblank_dropWhile]

theorem flatten_splitInclusive (sep : α) (s : List α) :
    (splitInclusive sep s).flatten = s := by
  induction s with
  | nil => rfl
  | cons b s ih =>
      rw [splitInclusive]
      split
      · simp [ih]
      · split
        · rename_i hnil
          rw [hnil] at ih
          simp [← ih]
        · rename_i hcons
          rw [hcons] at ih
          simp [← ih]

omit [DecidableEq α] in
theorem nonblank_flatten_trim (blank : α → Bool) (ls : List (List α)) :
    nonblank blank ((ls.map (trim blank)).filter fun l => !l.isEmpty).flatten =
      nonblank blank ls.flatten := by
  induction ls with
  | nil => rfl
  | cons l ls ih =>
      rw [List.map_cons, List.filter_cons, List.flatten_cons, nonblank_append, ← ih,
        ← nonblank_trim blank l]
      by_cases ht : (trim blank l).isEmpty = true
      · rw [List.isEmpty_iff] at ht
        simp [ht, nonblank]
      · simp [ht, nonblank_append]

/-- **Frames keep what is not blank.** -/
theorem nonblank_frames (sep : α) (blank : α → Bool) (s : List α) :
    nonblank blank (frames sep blank s).flatten = nonblank blank s := by
  rw [frames, nonblank_flatten_trim, flatten_splitInclusive]

end TurboMcp.Lib
