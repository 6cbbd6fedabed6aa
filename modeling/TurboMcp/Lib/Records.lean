import TurboMcp.Lib.Dict

/-!
# Records and unions on the wire

A record is written as the entries of the fields it has, and read back field by
field; a union without a tag is read by trying its variants in order.  `Reads`
says what a decoder makes of what an encoder writes.
-/

namespace TurboMcp.Lib

variable {κ υ α β : Type*}

/-! ## Records -/

/-- The entries of the fields that are there. -/
def record (fields : List (κ × Option υ)) : List (κ × υ) :=
  fields.filterMap fun f => f.2.map fun v => (f.1, v)

@[simp] theorem get_record_nil [DecidableEq κ] (k : κ) :
    Entries.get (record ([] : List (κ × Option υ))) k = none := rfl

@[simp] theorem get_record_cons [DecidableEq κ] (k : κ) (o : Option υ)
    (fields : List (κ × Option υ)) (k' : κ) :
    Entries.get (record ((k, o) :: fields)) k' =
      if k = k' then o.or (Entries.get (record fields) k')
      else Entries.get (record fields) k' := by
  cases o with
  | none => simp [record]
  | some v => simp [record]

/-! ## Reading back -/

/-- `dec` makes `f a` of what `enc` writes for `a`. -/
def Reads (dec : υ → Option β) (enc : α → υ) (f : α → β) : Prop :=
  ∀ a, dec (enc a) = some (f a)

theorem mapM_map_of_reads {dec : υ → Option β} {enc : α → υ} {f : α → β} {xs : List α}
    (h : ∀ x ∈ xs, dec (enc x) = some (f x)) : (xs.map enc).mapM dec = some (xs.map f) := by
  induction xs with
  | nil => rfl
  | cons x xs ih =>
      rw [List.map_cons, List.mapM_cons, h x (List.mem_cons_self ..),
        ih fun y hy => h y (List.mem_cons_of_mem _ hy)]
      rfl

/-- Lists are read element by element. -/
theorem mapM_map_map {γ : Type*} (dec : υ → Option β) (enc : α → υ) (g : β → γ) (xs : List α) :
    ((xs.map enc).mapM dec).map (List.map g) = xs.mapM fun x => (dec (enc x)).map g := by
  induction xs with
  | nil => rfl
  | cons x xs ih =>
      rw [List.map_cons, List.mapM_cons, List.mapM_cons, ← ih]
      cases dec (enc x) with
      | none => rfl
      | some y => cases (xs.map enc).mapM dec <;> rfl

/-- A list survives a step where each of its elements does. -/
theorem map_eq_self_iff {f : α → α} {xs : List α} : xs.map f = xs ↔ ∀ x ∈ xs, f x = x := by
  induction xs with
  | nil => simp
  | cons x xs ih => simp [ih]

/-! ## Unions -/

/-- Read a value as the first of the variants it fits. -/
def firstOf : List (υ → Option β) → υ → Option β
  | [], _ => none
  | dec :: decs, v => (dec v).or (firstOf decs v)

@[simp] theorem firstOf_nil (v : υ) : firstOf ([] : List (υ → Option β)) v = none := rfl

@[simp] theorem firstOf_cons (dec : υ → Option β) (decs : List (υ → Option β)) (v : υ) :
    firstOf (dec :: decs) v = (dec v).or (firstOf decs v) := rfl

end TurboMcp.Lib
