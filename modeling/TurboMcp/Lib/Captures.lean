import Mathlib.Data.List.Basic
import Mathlib.Data.List.TakeWhile

/-!
# Captures

A pattern is a row of fixed texts and of captures, each capture taking one or more
symbols of a class.  It is matched against a whole text by trying: every capture
takes the longest run it can, and gives back a symbol at a time until the rest of
the pattern fits what is left.  Some reading of the text is found if there is any.
-/

namespace TurboMcp.Lib

variable {α : Type*}

/-- A piece of a pattern. -/
inductive Piece (α : Type*) where
  | literal (text : List α)
  | capture (takes : α → Bool)

/-- The values, one for each capture, spell the text through the pattern. -/
inductive Spells : List (Piece α) → List (List α) → List α → Prop where
  | nil : Spells [] [] []
  | literal {pieces values text} (l : List α) :
      Spells pieces values text → Spells (.literal l :: pieces) values (l ++ text)
  | capture {takes pieces values text} (v : List α) :
      v ≠ [] → (∀ a ∈ v, takes a = true) → Spells pieces values text →
      Spells (.capture takes :: pieces) (v :: values) (v ++ text)

@[simp] theorem spells_nil_iff {values : List (List α)} {text : List α} :
    Spells [] values text ↔ values = [] ∧ text = [] := by
  constructor
  · rintro ⟨⟩
    exact ⟨rfl, rfl⟩
  · rintro ⟨rfl, rfl⟩
    exact .nil

theorem spells_literal_iff {l : List α} {pieces values text} :
    Spells (.literal l :: pieces) values text ↔
      ∃ rest, text = l ++ rest ∧ Spells pieces values rest := by
  constructor
  · rintro (_ | ⟨_, h⟩)
    exact ⟨_, rfl, h⟩
  · rintro ⟨rest, rfl, h⟩
    exact .literal l h

theorem spells_capture_iff {takes : α → Bool} {pieces values text} :
    Spells (.capture takes :: pieces) values text ↔
      ∃ v vs rest, values = v :: vs ∧ text = v ++ rest ∧ v ≠ [] ∧ (∀ a ∈ v, takes a = true) ∧
        Spells pieces vs rest := by
  constructor
  · rintro (_ | _ | ⟨v, hne, htakes, h⟩)
    exact ⟨v, _, _, rfl, rfl, hne, htakes, h⟩
  · rintro ⟨v, vs, rest, rfl, rfl, hne, htakes, h⟩
    exact .capture v hne htakes h

/-- A beginning no longer than the run is a part of the run. -/
theorem takes_of_take {takes : α → Bool} {text : List α} {n : Nat}
    (h : n ≤ (text.takeWhile takes).length) : ∀ a ∈ text.take n, takes a = true := by
  intro a ha
  have hbegins : text.take n <+: text.takeWhile takes := by
    apply List.prefix_of_prefix_length_le (List.take_prefix n text) (List.takeWhile_prefix takes)
    exact (List.length_take_le n text).trans h
  exact List.mem_takeWhile_imp (hbegins.subset ha)

theorem take_ne_nil {takes : α → Bool} {text : List α} {n : Nat} (hpos : 1 ≤ n)
    (h : n ≤ (text.takeWhile takes).length) : text.take n ≠ [] := by
  have hlength := (List.takeWhile_prefix takes (l := text)).length_le
  intro hnil
  rcases List.take_eq_nil_iff.mp hnil with hzero | hempty
  · omega
  · rw [hempty, List.length_nil] at hlength
    rw [hempty] at h
    omega

variable [DecidableEq α]

/-- The values the captures take, the first found when each tries its longest run first. -/
def captures : List (Piece α) → List α → Option (List (List α))
  | [], text => if text = [] then some [] else none
  | .literal l :: pieces, text =>
      if l <+: text then captures pieces (text.drop l.length) else none
  | .capture takes :: pieces, text =>
      (List.range' 1 (text.takeWhile takes).length).reverse.findSome? fun n =>
        (captures pieces (text.drop n)).map (text.take n :: ·)

/-- **What is found is a reading**: the values taken spell the text. -/
theorem spells_of_captures {pieces : List (Piece α)} {text : List α} {values : List (List α)}
    (h : captures pieces text = some values) : Spells pieces values text := by
  induction pieces generalizing text values with
  | nil =>
      rw [captures] at h
      split at h
      · cases h
        exact spells_nil_iff.mpr ⟨rfl, ‹text = []›⟩
      · cases h
  | cons piece pieces ih =>
      rcases piece with l | takes
      · rw [captures] at h
        split at h
        · obtain ⟨rest, rfl⟩ := ‹l <+: text›
          rw [List.drop_left] at h
          exact .literal l (ih h)
        · cases h
      · rw [captures] at h
        obtain ⟨n, hn, hvalues⟩ := List.exists_of_findSome?_eq_some h
        obtain ⟨vs, hvs, rfl⟩ := Option.map_eq_some_iff.mp hvalues
        rw [List.mem_reverse, List.mem_range'_1] at hn
        have hrun : n ≤ (text.takeWhile takes).length := by omega
        have hspells :=
          Spells.capture (text.take n) (take_ne_nil hn.1 hrun) (takes_of_take hrun) (ih hvs)
        rwa [List.take_append_drop] at hspells

/-- **Whatever can be read is found**: the trying does not miss every reading. -/
theorem isSome_captures_of_spells {pieces : List (Piece α)} {values : List (List α)} {text : List α}
    (h : Spells pieces values text) : (captures pieces text).isSome := by
  induction h with
  | nil => rfl
  | literal l _ ih =>
      rw [captures, if_pos (List.prefix_append _ _), List.drop_left]
      exact ih
  | @capture takes pieces vs text v hne htakes _ ih =>
      rw [captures, List.findSome?_isSome_iff]
      refine ⟨v.length, ?_, ?_⟩
      · rw [List.mem_reverse, List.mem_range'_1, List.takeWhile_append_of_pos htakes,
          List.length_append]
        have := List.length_pos_iff.mpr hne
        omega
      · rw [List.drop_left, Option.isSome_map]
        exact ih

theorem isSome_captures_iff {pieces : List (Piece α)} {text : List α} :
    (captures pieces text).isSome ↔ ∃ values, Spells pieces values text := by
  constructor
  · intro h
    obtain ⟨values, hvalues⟩ := Option.isSome_iff_exists.mp h
    exact ⟨values, spells_of_captures hvalues⟩
  · rintro ⟨values, h⟩
    exact isSome_captures_of_spells h

/-! ## Fixed texts can be cut -/

@[simp] theorem captures_literal_nil (pieces : List (Piece α)) (text : List α) :
    captures (.literal [] :: pieces) text = captures pieces text := by
  rw [captures, if_pos List.nil_prefix]
  rfl

theorem captures_literal_append (l m : List α) (pieces : List (Piece α)) (text : List α) :
    captures (.literal (l ++ m) :: pieces) text =
      captures (.literal l :: .literal m :: pieces) text := by
  rw [captures, captures]
  by_cases hl : l <+: text
  · obtain ⟨rest, rfl⟩ := hl
    rw [if_pos (List.prefix_append l rest), List.drop_left, captures, List.length_append,
      List.drop_length_add_append]
    simp only [List.prefix_append_right_inj]
  · rw [if_neg hl, if_neg fun h => hl ((List.prefix_append l m).trans h)]

/-- A piece can stand before whatever matches alike. -/
theorem captures_cons_congr {pieces pieces' : List (Piece α)} (piece : Piece α)
    (h : ∀ text, captures pieces text = captures pieces' text) (text : List α) :
    captures (piece :: pieces) text = captures (piece :: pieces') text := by
  rcases piece with l | takes
  · rw [captures, captures, h]
  · rw [captures, captures]
    simp only [h]

theorem captures_symbols (l : List α) (pieces : List (Piece α)) (text : List α) :
    captures (l.map (fun a => .literal [a]) ++ pieces) text =
      captures (.literal l :: pieces) text := by
  induction l generalizing text with
  | nil => rw [captures_literal_nil, List.map_nil, List.nil_append]
  | cons a l ih =>
      have hcut : a :: l = [a] ++ l := rfl
      rw [hcut, captures_literal_append, List.map_append, List.append_assoc]
      exact captures_cons_congr (.literal [a]) ih text

end TurboMcp.Lib
