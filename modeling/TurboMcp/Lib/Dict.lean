import Mathlib.Data.List.Nodup

/-!
# Dictionaries

A finite map kept as the list of its entries in insertion order, each key once.
`insert` replaces an entry where it stands and appends a new one, as an
insertion-ordered hash map does; `remove` and `retain` keep the order of what
stays.  Later proofs read a dictionary through `get` and `mem_keys` only.
-/

namespace TurboMcp.Lib

variable {κ υ : Type*} [DecidableEq κ]

/-! ## Entry lists -/

namespace Entries

/-- The value of the first entry under `k`. -/
def get : List (κ × υ) → κ → Option υ
  | [], _ => none
  | e :: m, k => if e.1 = k then some e.2 else get m k

/-- Replace the first entry under `k`, or append one. -/
def insert : List (κ × υ) → κ → υ → List (κ × υ)
  | [], k, v => [(k, v)]
  | e :: m, k, v => if e.1 = k then (k, v) :: m else e :: insert m k v

/-- Drop every entry under `k`. -/
def remove (m : List (κ × υ)) (k : κ) : List (κ × υ) := m.filter (·.1 ≠ k)

@[simp] theorem get_nil (k : κ) : get ([] : List (κ × υ)) k = none := rfl

@[simp] theorem get_cons (e : κ × υ) (m : List (κ × υ)) (k : κ) :
    get (e :: m) k = if e.1 = k then some e.2 else get m k := rfl

theorem mem_of_mem_insert {m : List (κ × υ)} {k : κ} {v : υ} {e : κ × υ}
    (h : e ∈ insert m k v) : e ∈ m ∨ e = (k, v) := by
  induction m with
  | nil => exact .inr (List.mem_singleton.mp h)
  | cons e' m ih =>
      rw [insert] at h
      split at h
      · rcases List.mem_cons.mp h with rfl | h
        · exact .inr rfl
        · exact .inl (List.mem_cons_of_mem _ h)
      · rcases List.mem_cons.mp h with rfl | h
        · exact .inl List.mem_cons_self
        · exact (ih h).imp_left (List.mem_cons_of_mem _)

theorem get_insert (m : List (κ × υ)) (k : κ) (v : υ) (k' : κ) :
    get (insert m k v) k' = if k = k' then some v else get m k' := by
  induction m with
  | nil => simp [insert]
  | cons e m ih =>
      by_cases he : e.1 = k
      · subst he
        simp only [insert, if_true, get_cons]
        split <;> rfl
      · simp only [insert, if_neg he, get_cons, ih]
        by_cases hk : k = k'
        · subst hk
          simp [he]
        · simp [hk]

@[simp] theorem insert_insert_self (m : List (κ × υ)) (k : κ) (v v' : υ) :
    insert (insert m k v) k v' = insert m k v' := by
  induction m with
  | nil => simp [insert]
  | cons e m ih =>
      by_cases he : e.1 = k
      · simp [insert, he]
      · simp [insert, he, ih]

theorem insert_of_get {m : List (κ × υ)} {k : κ} {v : υ} (h : get m k = some v) :
    insert m k v = m := by
  induction m with
  | nil => cases h
  | cons e m ih =>
      rw [get_cons] at h
      rw [insert]
      split at h
      · rename_i he
        obtain rfl := Option.some.inj h
        subst he
        rw [if_pos rfl]
      · rename_i he
        rw [if_neg he, ih h]

theorem get_filter_key (m : List (κ × υ)) (p : κ → Bool) (k : κ) :
    get (m.filter (p ·.1)) k = if p k then get m k else none := by
  induction m with
  | nil => simp
  | cons e m ih =>
      by_cases hp : p e.1 = true
      · rw [List.filter_cons, if_pos hp, get_cons, get_cons, ih]
        by_cases he : e.1 = k
        · subst he
          simp [hp]
        · simp [he]
      · rw [List.filter_cons, if_neg hp, get_cons, ih]
        by_cases he : e.1 = k
        · subst he
          simp [hp]
        · simp [he]

@[simp] theorem get_remove (m : List (κ × υ)) (k k' : κ) :
    get (remove m k) k' = if k = k' then none else get m k' := by
  rw [remove, get_filter_key m (fun x => decide (x ≠ k)) k']
  by_cases hk : k = k'
  · simp [hk]
  · simp [hk, Ne.symm hk]

theorem get_isSome_iff (m : List (κ × υ)) (k : κ) :
    (get m k).isSome ↔ k ∈ m.map Prod.fst := by
  induction m with
  | nil => simp
  | cons e m ih =>
      by_cases he : e.1 = k
      · simp [he]
      · simp [he, Ne.symm he, ih]

theorem mem_of_get {m : List (κ × υ)} {k : κ} {v : υ} (h : get m k = some v) :
    (k, v) ∈ m := by
  induction m with
  | nil => simp at h
  | cons e m ih =>
      rw [get_cons] at h
      split at h
      · rename_i he
        obtain rfl := Option.some.inj h
        subst he
        exact List.mem_cons_self ..
      · exact List.mem_cons_of_mem _ (ih h)

theorem get_of_mem {m : List (κ × υ)} (hm : (m.map Prod.fst).Nodup) {k : κ} {v : υ}
    (h : (k, v) ∈ m) : get m k = some v := by
  induction m with
  | nil => simp at h
  | cons e m ih =>
      rw [List.map_cons, List.nodup_cons] at hm
      rw [List.mem_cons] at h
      rcases h with rfl | h
      · simp
      · have hne : e.1 ≠ k := fun he => hm.1 (he ▸ List.mem_map_of_mem h)
        rw [get_cons, if_neg hne, ih hm.2 h]

theorem map_fst_insert (m : List (κ × υ)) (k : κ) (v : υ) :
    (insert m k v).map Prod.fst =
      if k ∈ m.map Prod.fst then m.map Prod.fst else m.map Prod.fst ++ [k] := by
  induction m with
  | nil => simp [insert]
  | cons e m ih =>
      by_cases he : e.1 = k
      · simp [insert, he]
      · rw [insert, if_neg he, List.map_cons, ih, List.map_cons]
        by_cases hk : k ∈ m.map Prod.fst
        · rw [if_pos hk, if_pos (List.mem_cons_of_mem _ hk)]
        · rw [if_neg hk, if_neg (by simpa [Ne.symm he] using hk)]
          rfl

theorem nodup_insert {m : List (κ × υ)} (hm : (m.map Prod.fst).Nodup) (k : κ) (v : υ) :
    ((insert m k v).map Prod.fst).Nodup := by
  rw [map_fst_insert]
  split
  · exact hm
  · rename_i hk
    exact hm.append (List.nodup_singleton k) (by simpa using hk)

/-! ### Entries in the order of their keys -/

section

variable [LT κ] [DecidableLT κ]

/-- Replace the entry under `k`, or put one before the first greater key, as an
ordered map does. -/
def insertSorted : List (κ × υ) → κ → υ → List (κ × υ)
  | [], k, v => [(k, v)]
  | e :: m, k, v =>
      if e.1 = k then (k, v) :: m
      else if k < e.1 then (k, v) :: e :: m
      else e :: insertSorted m k v

theorem get_insertSorted (m : List (κ × υ)) (k : κ) (v : υ) (k' : κ) :
    get (insertSorted m k v) k' = if k = k' then some v else get m k' := by
  induction m with
  | nil => simp [insertSorted]
  | cons e m ih =>
      rw [insertSorted]
      split
      · rename_i he
        subst he
        simp only [get_cons]
        split <;> rfl
      · rename_i he
        split
        · rw [get_cons]
        · rw [get_cons, get_cons, ih]
          by_cases hk : k = k'
          · subst hk
            simp [he]
          · simp [hk]

theorem mem_keys_insertSorted (m : List (κ × υ)) (k : κ) (v : υ) (k' : κ) :
    k' ∈ (insertSorted m k v).map Prod.fst ↔ k' = k ∨ k' ∈ m.map Prod.fst := by
  rw [← get_isSome_iff, ← get_isSome_iff, get_insertSorted]
  by_cases hk : k = k'
  · simp [hk]
  · simp [hk, Ne.symm hk]

theorem nodup_insertSorted {m : List (κ × υ)} (hm : (m.map Prod.fst).Nodup) {k : κ}
    (hk : k ∉ m.map Prod.fst) (v : υ) : ((insertSorted m k v).map Prod.fst).Nodup := by
  induction m with
  | nil => simp [insertSorted]
  | cons e m ih =>
      rw [List.map_cons, List.nodup_cons] at hm
      rw [List.map_cons, List.mem_cons, not_or] at hk
      rw [insertSorted, if_neg (Ne.symm hk.1)]
      split
      · rw [List.map_cons, List.nodup_cons, List.map_cons, List.mem_cons, not_or]
        exact ⟨hk, List.nodup_cons.mpr hm⟩
      · rw [List.map_cons, List.nodup_cons, mem_keys_insertSorted, not_or]
        exact ⟨⟨Ne.symm hk.1, hm.1⟩, ih hm.2 hk.2⟩

theorem perm_insertSorted {m : List (κ × υ)} {k : κ} (hk : k ∉ m.map Prod.fst) (v : υ) :
    (insertSorted m k v).Perm ((k, v) :: m) := by
  induction m with
  | nil => exact .refl _
  | cons e m ih =>
      rw [List.map_cons, List.mem_cons, not_or] at hk
      rw [insertSorted, if_neg (Ne.symm hk.1)]
      split
      · exact .refl _
      · exact ((ih hk.2).cons e).trans (.swap _ _ _)

/-- An ordered map built from entries. -/
def sorted (m : List (κ × υ)) : List (κ × υ) :=
  m.foldl (fun m e => insertSorted m e.1 e.2) []

theorem get_foldl_insertSorted {l : List (κ × υ)} (hl : (l.map Prod.fst).Nodup)
    (m : List (κ × υ)) (k : κ) :
    get (l.foldl (fun m e => insertSorted m e.1 e.2) m) k = (get l k).or (get m k) := by
  induction l generalizing m with
  | nil => simp
  | cons e l ih =>
      rw [List.map_cons, List.nodup_cons] at hl
      rw [List.foldl_cons, ih hl.2, get_insertSorted, get_cons]
      by_cases he : e.1 = k
      · subst he
        have hnone : get l e.1 = none := by
          rw [← Option.not_isSome_iff_eq_none, get_isSome_iff]
          exact hl.1
        rw [hnone, if_pos rfl, if_pos rfl]
        rfl
      · rw [if_neg he, if_neg he]

/-- Where each key stands once, ordering the entries changes no lookup. -/
theorem get_sorted {l : List (κ × υ)} (hl : (l.map Prod.fst).Nodup) (k : κ) :
    get (sorted l) k = get l k := by
  rw [sorted, get_foldl_insertSorted hl, get_nil, Option.or_none]

/-- Where each key stands once, ordering the entries is no more than that. -/
theorem perm_sorted {l : List (κ × υ)} (hl : (l.map Prod.fst).Nodup) : (sorted l).Perm l := by
  suffices hgen : ∀ m : List (κ × υ), ((m ++ l).map Prod.fst).Nodup →
      (l.foldl (fun m e => insertSorted m e.1 e.2) m).Perm (m ++ l) from hgen [] hl
  clear hl
  induction l with
  | nil => exact fun m _ => by simp
  | cons e l ih =>
      intro m hm
      have hkey : e.1 ∉ m.map Prod.fst := by
        rw [List.map_append, List.nodup_append] at hm
        exact fun hmem => hm.2.2 e.1 hmem e.1 (by simp) rfl
      have hperm : (insertSorted m e.1 e.2 ++ l).Perm (m ++ e :: l) :=
        ((perm_insertSorted hkey e.2).append_right l).trans List.perm_middle.symm
      rw [List.foldl_cons]
      exact (ih _ ((hperm.map Prod.fst).nodup_iff.mpr hm)).trans hperm

theorem sorted_eq_nil_iff {l : List (κ × υ)} (hl : (l.map Prod.fst).Nodup) :
    sorted l = [] ↔ l = [] := by
  constructor
  · intro h
    cases l with
    | nil => rfl
    | cons e l =>
        have hget := get_sorted hl e.1
        rw [h, get_cons, if_pos rfl] at hget
        cases hget
  · rintro rfl
    rfl

section

variable [IsStrictTotalOrder κ (· < ·)]

theorem insertSorted_of_lt {m : List (κ × υ)} {k : κ} (h : ∀ e ∈ m, e.1 < k) (v : υ) :
    insertSorted m k v = m ++ [(k, v)] := by
  induction m with
  | nil => rfl
  | cons e m ih =>
      have he : e.1 < k := h e (List.mem_cons_self ..)
      have hne : e.1 ≠ k := fun heq => irrefl_of (· < ·) k (heq ▸ he)
      have hnlt : ¬ k < e.1 := fun hlt => asymm_of (· < ·) he hlt
      rw [insertSorted, if_neg hne, if_neg hnlt, ih fun e' he' => h e' (List.mem_cons_of_mem _ he')]
      rfl

theorem foldl_insertSorted_of_sorted {m l : List (κ × υ)}
    (h : (m ++ l).Pairwise fun a b => a.1 < b.1) :
    l.foldl (fun m e => insertSorted m e.1 e.2) m = m ++ l := by
  induction l generalizing m with
  | nil => simp
  | cons e l ih =>
      have hlt : ∀ e' ∈ m, e'.1 < e.1 := fun e' he' =>
        (List.pairwise_append.mp h).2.2 e' he' e (List.mem_cons_self ..)
      rw [List.foldl_cons, insertSorted_of_lt hlt, ih (by simpa using h)]
      simp

/-- Entries in order stay as they are. -/
theorem sorted_of_sorted {l : List (κ × υ)} (h : l.Pairwise fun a b => a.1 < b.1) :
    sorted l = l :=
  foldl_insertSorted_of_sorted h

theorem pairwise_insertSorted {m : List (κ × υ)} (h : m.Pairwise fun a b => a.1 < b.1) (k : κ)
    (v : υ) : (insertSorted m k v).Pairwise fun a b => a.1 < b.1 := by
  induction m with
  | nil => exact List.pairwise_singleton _ _
  | cons e m ih =>
      rw [List.pairwise_cons] at h
      rw [insertSorted]
      split
      · rename_i he
        subst he
        exact List.pairwise_cons.mpr h
      · rename_i hne
        split
        · rename_i hlt
          refine List.pairwise_cons.mpr ⟨?_, List.pairwise_cons.mpr h⟩
          intro e' he'
          rcases List.mem_cons.mp he' with rfl | he'
          · exact hlt
          · exact trans_of (· < ·) hlt (h.1 e' he')
        · rename_i hnlt
          refine List.pairwise_cons.mpr ⟨?_, ih h.2⟩
          intro e' he'
          have hkey : e'.1 ∈ (insertSorted m k v).map Prod.fst := List.mem_map_of_mem he'
          rw [mem_keys_insertSorted] at hkey
          rcases hkey with hkey | hkey
          · rw [hkey]
            rcases trichotomous_of (· < ·) e.1 k with hlt | heq | hgt
            · exact hlt
            · exact absurd heq hne
            · exact absurd hgt hnlt
          · obtain ⟨e'', he'', heq⟩ := List.mem_map.mp hkey
            rw [← heq]
            exact h.1 e'' he''

theorem pairwise_sorted (l : List (κ × υ)) : (sorted l).Pairwise fun a b => a.1 < b.1 := by
  suffices hgen : ∀ m : List (κ × υ), (m.Pairwise fun a b => a.1 < b.1) →
      (l.foldl (fun m e => insertSorted m e.1 e.2) m).Pairwise fun a b => a.1 < b.1 from
    hgen [] List.Pairwise.nil
  induction l with
  | nil => exact fun m hm => hm
  | cons e l ih => exact fun m hm => ih _ (pairwise_insertSorted hm e.1 e.2)

end

end

/-! ### Appending entries -/

theorem insert_of_notMem {m : List (κ × υ)} {k : κ} (h : k ∉ m.map Prod.fst) (v : υ) :
    insert m k v = m ++ [(k, v)] := by
  induction m with
  | nil => rfl
  | cons e m ih =>
      rw [List.map_cons, List.mem_cons, not_or] at h
      rw [insert, if_neg (Ne.symm h.1), ih h.2]
      rfl

theorem foldl_insert_of_nodup {m l : List (κ × υ)} (h : ((m ++ l).map Prod.fst).Nodup) :
    l.foldl (fun m e => insert m e.1 e.2) m = m ++ l := by
  induction l generalizing m with
  | nil => simp
  | cons e l ih =>
      have hnotMem : e.1 ∉ m.map Prod.fst := by
        rw [List.map_append, List.map_cons] at h
        intro hmem
        exact (List.nodup_append.mp h).2.2 e.1 hmem e.1 (List.mem_cons_self ..) rfl
      rw [List.foldl_cons, insert_of_notMem hnotMem, ih (by simpa using h)]
      simp

theorem get_append (m l : List (κ × υ)) (k : κ) : get (m ++ l) k = (get m k).or (get l k) := by
  induction m with
  | nil => simp
  | cons e m ih =>
      rw [List.cons_append, get_cons, get_cons, ih]
      split <;> rfl

end Entries

/-! ## The bundled map -/

/-- A finite map with each key once. -/
structure Dict (κ υ : Type*) where
  entries : List (κ × υ)
  nodup : (entries.map Prod.fst).Nodup

namespace Dict

def empty : Dict κ υ := ⟨[], List.nodup_nil⟩

def get (m : Dict κ υ) (k : κ) : Option υ := Entries.get m.entries k

def insert (m : Dict κ υ) (k : κ) (v : υ) : Dict κ υ :=
  ⟨Entries.insert m.entries k v, Entries.nodup_insert m.nodup k v⟩

/-- Keep the entries that satisfy `p`. -/
def retain (m : Dict κ υ) (p : κ → υ → Bool) : Dict κ υ :=
  ⟨m.entries.filter fun e => p e.1 e.2, m.nodup.sublist (List.filter_sublist.map _)⟩

def remove (m : Dict κ υ) (k : κ) : Dict κ υ := m.retain fun k' _ => k' ≠ k

/-- Change the value under `k`, if there is one. -/
def modify (m : Dict κ υ) (k : κ) (f : υ → υ) : Dict κ υ :=
  match m.get k with
  | none => m
  | some v => m.insert k (f v)

def len (m : Dict κ υ) : Nat := m.entries.length

def isEmpty (m : Dict κ υ) : Bool := m.entries.isEmpty

def keys (m : Dict κ υ) : List κ := m.entries.map Prod.fst

@[simp] theorem get_empty (k : κ) : (empty : Dict κ υ).get k = none := rfl

theorem get_insert (m : Dict κ υ) (k : κ) (v : υ) (k' : κ) :
    (m.insert k v).get k' = if k = k' then some v else m.get k' :=
  Entries.get_insert m.entries k v k'

@[simp] theorem get_insert_self (m : Dict κ υ) (k : κ) (v : υ) :
    (m.insert k v).get k = some v := by
  simp [get_insert]

/-- Inserting what is there changes nothing. -/
theorem insert_of_get {m : Dict κ υ} {k : κ} {v : υ} (h : m.get k = some v) :
    m.insert k v = m := by
  cases m
  rw [insert, mk.injEq]
  exact Entries.insert_of_get h

theorem get_eq_some_iff (m : Dict κ υ) (k : κ) (v : υ) :
    m.get k = some v ↔ (k, v) ∈ m.entries :=
  ⟨Entries.mem_of_get, Entries.get_of_mem m.nodup⟩

/-- What `retain` keeps is decided entry by entry: this is where each key
standing once is needed. -/
theorem get_retain (m : Dict κ υ) (p : κ → υ → Bool) (k : κ) :
    (m.retain p).get k = (m.get k).filter (p k) := by
  ext v
  rw [get_eq_some_iff, Option.filter_eq_some_iff, get_eq_some_iff]
  simp [retain]

theorem get_remove (m : Dict κ υ) (k k' : κ) :
    (m.remove k).get k' = if k = k' then none else m.get k' := by
  rw [remove, get_retain]
  by_cases hk : k = k'
  · subst hk
    cases m.get k <;> simp
  · cases h : m.get k' <;> simp [hk, Ne.symm hk]

/-- Removing what is not there changes nothing. -/
theorem remove_of_absent {m : Dict κ υ} {k : κ} (h : m.get k = none) : m.remove k = m := by
  have hkeep : m.entries.filter (fun e => decide (e.1 ≠ k)) = m.entries := by
    refine List.filter_eq_self.mpr fun e he => decide_eq_true ?_
    rintro rfl
    rw [(get_eq_some_iff m e.1 e.2).mpr he] at h
    cases h
  cases m
  rw [remove, retain, mk.injEq]
  exact hkeep

theorem get_modify (m : Dict κ υ) (k : κ) (f : υ → υ) (k' : κ) :
    (m.modify k f).get k' = (m.get k').map fun v => if k = k' then f v else v := by
  unfold modify
  rcases h : m.get k with _ | v
  · by_cases hk : k = k'
    · subst hk
      simp [h]
    · simp [hk]
  · simp only
    rw [get_insert]
    by_cases hk : k = k'
    · subst hk
      simp [h]
    · simp [hk]

/-- A change that changes nothing. -/
theorem modify_of_get {m : Dict κ υ} {k : κ} {f : υ → υ} (h : ∀ v, m.get k = some v → f v = v) :
    m.modify k f = m := by
  unfold modify
  rcases hget : m.get k with _ | v
  · rfl
  · simp only
    rw [h v hget]
    exact insert_of_get hget

theorem mem_keys (m : Dict κ υ) (k : κ) : k ∈ m.keys ↔ (m.get k).isSome :=
  (Entries.get_isSome_iff m.entries k).symm

omit [DecidableEq κ] in
@[simp] theorem keys_empty : (empty : Dict κ υ).keys = [] := rfl

@[simp] theorem mem_keys_insert (m : Dict κ υ) (k : κ) (v : υ) (k' : κ) :
    k' ∈ (m.insert k v).keys ↔ k' = k ∨ k' ∈ m.keys := by
  rw [mem_keys, mem_keys, get_insert]
  by_cases hk : k = k'
  · simp [hk]
  · simp [hk, Ne.symm hk]

@[simp] theorem mem_keys_remove (m : Dict κ υ) (k k' : κ) :
    k' ∈ (m.remove k).keys ↔ k' ≠ k ∧ k' ∈ m.keys := by
  rw [mem_keys, mem_keys, get_remove]
  by_cases hk : k = k'
  · simp [hk]
  · simp [hk, Ne.symm hk]

/-! ### Sizes -/

omit [DecidableEq κ] in
@[simp] theorem len_empty : (empty : Dict κ υ).len = 0 := rfl

omit [DecidableEq κ] in
theorem len_eq_length_keys (m : Dict κ υ) : m.len = m.keys.length :=
  (List.length_map ..).symm

omit [DecidableEq κ] in
theorem len_retain_le (m : Dict κ υ) (p : κ → υ → Bool) : (m.retain p).len ≤ m.len :=
  List.length_filter_le ..

theorem keys_insert (m : Dict κ υ) (k : κ) (v : υ) :
    (m.insert k v).keys = if k ∈ m.keys then m.keys else m.keys ++ [k] :=
  Entries.map_fst_insert m.entries k v

theorem len_insert_le (m : Dict κ υ) (k : κ) (v : υ) : (m.insert k v).len ≤ m.len + 1 := by
  rw [len_eq_length_keys, len_eq_length_keys, keys_insert]
  split
  · exact Nat.le_succ _
  · rw [List.length_append]
    exact Nat.le_refl _

theorem len_insert_of_get {m : Dict κ υ} {k : κ} {v : υ} (h : m.get k = some v) (v' : υ) :
    (m.insert k v').len = m.len := by
  have hk : k ∈ m.keys := by
    rw [mem_keys, h]
    rfl
  rw [len_eq_length_keys, keys_insert, if_pos hk, len_eq_length_keys]

theorem len_remove_of_get {m : Dict κ υ} {k : κ} {v : υ} (h : m.get k = some v) :
    (m.remove k).len + 1 = m.len := by
  have hk : k ∈ m.keys := by
    rw [mem_keys, h]
    rfl
  have hkeys : (m.remove k).keys = m.keys.erase k := by
    rw [show m.keys.erase k = m.keys.filter (· != k) from m.nodup.erase_eq_filter k]
    unfold remove retain keys
    rw [List.filter_map]
    congr 1
    refine List.filter_congr fun e _ => ?_
    show decide (e.1 ≠ k) = (e.1 != k)
    by_cases he : e.1 = k
    · simp [he]
    · simp [he]
  have hpos : 0 < m.keys.length := List.length_pos_of_mem hk
  rw [len_eq_length_keys, hkeys, List.length_erase_of_mem hk, len_eq_length_keys]
  omega

theorem len_modify (m : Dict κ υ) (k : κ) (f : υ → υ) : (m.modify k f).len = m.len := by
  unfold modify
  rcases h : m.get k with _ | v
  · rfl
  · exact len_insert_of_get h _

omit [DecidableEq κ] in
theorem isEmpty_iff (m : Dict κ υ) : m.isEmpty = true ↔ ∀ k, k ∉ m.keys := by
  rw [isEmpty, List.isEmpty_iff, keys]
  constructor
  · intro h
    simp [h]
  · intro h
    exact List.map_eq_nil_iff.mp (List.eq_nil_iff_forall_not_mem.mpr h)

end Dict

end TurboMcp.Lib
