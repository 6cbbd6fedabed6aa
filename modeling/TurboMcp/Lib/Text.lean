import Mathlib.Data.List.Basic

/-!
# Words of a text

A text is cut at every blank; what stands between two blanks is a word, if
anything does.  Joined by a blank and cut again, words come back, as long as none
is empty and none holds a blank of its own.
-/

namespace TurboMcp.Lib

variable {α : Type*}

/-- What holds of each character of a text is decided along the text; deciding it over
all characters there are would not end. -/
instance (priority := high) decidableForallMemChar (p : Char → Prop) [DecidablePred p]
    (l : List Char) : Decidable (∀ c ∈ l, p c) :=
  List.decidableBAll p l

/-- The words of a text. -/
def words (blank : α → Bool) (l : List α) : List (List α) :=
  (l.splitOnP blank).filter fun w => !w.isEmpty

/-- A word can be told from what is around it. -/
def IsWord (blank : α → Bool) (w : List α) : Prop := w ≠ [] ∧ ∀ c ∈ w, blank c = false

@[simp] theorem words_nil (blank : α → Bool) : words blank [] = [] := rfl

theorem words_single {blank : α → Bool} {w : List α} (hw : IsWord blank w) :
    words blank w = [w] := by
  unfold words
  rw [List.splitOnP_eq_singleton hw.2, List.filter_cons_of_pos (by simp [hw.1]), List.filter_nil]

theorem words_cons {blank : α → Bool} {w : List α} (hw : IsWord blank w) {sep : α}
    (hsep : blank sep = true) (l : List α) :
    words blank (w ++ sep :: l) = w :: words blank l := by
  unfold words
  rw [List.splitOnP_append_cons_of_forall_mem hw.2 sep hsep,
    List.filter_cons_of_pos (by simp [hw.1])]

/-- What is joined, after its first part. -/
theorem intercalate_cons (sep w : List α) (ws : List (List α)) :
    sep.intercalate (w :: ws) = w ++ ws.flatMap (sep ++ ·) := by
  induction ws generalizing w with
  | nil => simp
  | cons w' ws ih =>
      rw [List.intercalate_cons_cons, ih, List.flatMap_cons]
      simp

/-- What is joined, around one of its parts. -/
theorem intercalate_append_cons (sep w : List α) (us ws : List (List α)) :
    sep.intercalate (us ++ w :: ws) = us.flatMap (· ++ sep) ++ (w ++ ws.flatMap (sep ++ ·)) := by
  induction us with
  | nil => exact intercalate_cons sep w ws
  | cons u us ih =>
      rw [List.cons_append, intercalate_cons]
      rcases us with _ | ⟨u', us⟩
      · simp
      · rw [List.cons_append, intercalate_cons] at ih
        rw [List.cons_append, List.flatMap_cons, List.append_assoc, ih, List.flatMap_cons]
        simp

theorem mem_intercalate {sep : List α} {ws : List (List α)} {c : α} (h : c ∈ sep.intercalate ws) :
    c ∈ sep ∨ ∃ w ∈ ws, c ∈ w := by
  rcases ws with _ | ⟨w, ws⟩
  · cases h
  · rw [intercalate_cons, List.mem_append, List.mem_flatMap] at h
    rcases h with h | ⟨w', hw', h⟩
    · exact .inr ⟨w, List.mem_cons_self, h⟩
    · rcases List.mem_append.mp h with h | h
      · exact .inl h
      · exact .inr ⟨w', List.mem_cons_of_mem _ hw', h⟩

/-- **Round trip**: words joined by a blank are read back. -/
theorem words_intercalate {blank : α → Bool} {sep : α} (hsep : blank sep = true)
    {ws : List (List α)} (hws : ∀ w ∈ ws, IsWord blank w) :
    words blank ([sep].intercalate ws) = ws := by
  induction ws with
  | nil => rfl
  | cons w ws ih =>
      have hw := hws w List.mem_cons_self
      have htail := ih fun w' hw' => hws w' (List.mem_cons_of_mem _ hw')
      rcases ws with _ | ⟨w', ws⟩
      · rw [List.intercalate_singleton]
        exact words_single hw
      · rw [List.intercalate_cons_cons, List.append_assoc, List.singleton_append,
          words_cons hw hsep, htail]

/-! ## Pieces -/

/-- A piece is made of what was cut, the separator apart. -/
theorem mem_of_mem_splitOn [DecidableEq α] {a : α} {l w : List α} (h : w ∈ l.splitOn a) :
    ∀ b ∈ w, b ∈ l ∧ b ≠ a := by
  induction l generalizing w with
  | nil =>
      rw [List.splitOn_nil, List.mem_singleton] at h
      subst h
      intro b hb
      cases hb
  | cons x l ih =>
      rw [List.splitOn_cons_eq_if_modifyHead] at h
      split at h
      · rcases List.mem_cons.mp h with rfl | h
        · intro b hb
          cases hb
        · intro b hb
          exact ⟨List.mem_cons_of_mem _ (ih h b hb).1, (ih h b hb).2⟩
      · rename_i hx
        obtain ⟨w', ws, hsplit⟩ := List.exists_cons_of_ne_nil (List.splitOn_ne_nil a l)
        rw [hsplit, List.modifyHead_cons] at h
        rcases List.mem_cons.mp h with rfl | h
        · intro b hb
          rcases List.mem_cons.mp hb with rfl | hb
          · exact ⟨List.mem_cons_self, by simpa using hx⟩
          · have hmem := ih (w := w') (by rw [hsplit]; exact List.mem_cons_self) b hb
            exact ⟨List.mem_cons_of_mem _ hmem.1, hmem.2⟩
        · intro b hb
          have hmem := ih (w := w) (by rw [hsplit]; exact List.mem_cons_of_mem _ h) b hb
          exact ⟨List.mem_cons_of_mem _ hmem.1, hmem.2⟩

/-- Cutting after renaming is renaming after cutting. -/
theorem splitOn_map {β : Type*} [DecidableEq α] [DecidableEq β] {f : α → β}
    (hf : Function.Injective f) (a : α) (l : List α) :
    (l.map f).splitOn (f a) = (l.splitOn a).map (List.map f) := by
  induction l with
  | nil => rfl
  | cons x l ih =>
      rw [List.map_cons, List.splitOn_cons_eq_if_modifyHead, List.splitOn_cons_eq_if_modifyHead, ih]
      by_cases hx : x = a
      · subst hx
        simp
      · have hne : ¬ (f x == f a) = true := by simpa using fun h => hx (hf h)
        have hne' : ¬ (x == a) = true := by simpa using hx
        rw [if_neg hne, if_neg hne']
        cases l.splitOn a <;> simp

/-! ## Taking a run off -/

theorem takeWhile_run {p : α → Bool} {w rest : List α} (hw : ∀ c ∈ w, p c = true)
    (hrest : ∀ c, rest.head? = some c → p c = false) : (w ++ rest).takeWhile p = w := by
  rw [List.takeWhile_append_of_pos hw]
  rcases rest with _ | ⟨c, rest⟩
  · simp
  · rw [List.takeWhile_cons_of_neg (by simp [hrest c rfl]), List.append_nil]

theorem dropWhile_run {p : α → Bool} {w rest : List α} (hw : ∀ c ∈ w, p c = true)
    (hrest : ∀ c, rest.head? = some c → p c = false) : (w ++ rest).dropWhile p = rest := by
  rw [List.dropWhile_append_of_pos hw]
  rcases rest with _ | ⟨c, rest⟩
  · rfl
  · exact List.dropWhile_cons_of_neg (by simp [hrest c rfl])

/-! ## Unicode text -/

/-- `char::is_whitespace`. -/
def isWhitespace (c : Char) : Bool :=
  (0x9 ≤ c.toNat && c.toNat ≤ 0xd) || (0x2000 ≤ c.toNat && c.toNat ≤ 0x200a) ||
    c.toNat ∈ [0x20, 0x85, 0xa0, 0x1680, 0x2028, 0x2029, 0x202f, 0x205f, 0x3000]

/-- `str::split_whitespace`. -/
def splitWhitespace (s : String) : List String :=
  (words isWhitespace s.toList).map String.ofList

/-- `u8::is_ascii_whitespace`, on characters. -/
def isAsciiBlank (c : Char) : Bool := c.toNat ∈ [0x20, 0x9, 0xa, 0xc, 0xd]

/-- `str::split_ascii_whitespace`. -/
def splitAsciiWhitespace (s : String) : List String :=
  (words isAsciiBlank s.toList).map String.ofList

end TurboMcp.Lib
