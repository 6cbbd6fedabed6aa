import TurboMcp.Core.Json
import TurboMcp.Lib.Records

/-!
# Derived encodings

What `serde` derives for a struct: a field is written unless its value says to
skip it, and read by its name; an absent field takes its default where it has
one.  Unknown fields are ignored, so a decoder tells values apart by their
shape only.
-/

namespace TurboMcp.Core

open TurboMcp.Lib

/-! ## Decoding -/

/-- The fields a derived struct decoder sees: an object's entries, or an array
by position. -/
def structFields (names : List String) : Value → Option Map
  | .object m => some m
  | .array xs => if xs.length ≤ names.length then some (names.zip xs) else none
  | _ => none

/-- A required string field. -/
def stringField (m : Map) (name : String) : Option String := (m.get name).bind Value.asStr

/-- An optional field: absent and `null` are both `none`. -/
def optionField {α : Type} (m : Map) (name : String) (decode : Value → Option α) :
    Option (Option α) :=
  match m.get name with
  | none | some .null => some none
  | some v => (decode v).map some

/-- A required field. -/
def requiredField {α : Type} (m : Map) (name : String) (decode : Value → Option α) :
    Option α :=
  (m.get name).bind decode

/-- A `Vec`. -/
def decodeVec {α : Type} (decode : Value → Option α) (v : Value) : Option (List α) :=
  v.asArray.bind (·.mapM decode)

/-- A `Vec` field that defaults to the empty one. -/
def vecField {α : Type} (m : Map) (name : String) (decode : Value → Option α) :
    Option (List α) :=
  match m.get name with
  | none => some []
  | some v => decodeVec decode v

/-- A map that defaults to the empty one. -/
def mapOrEmpty : Option Value → Option Map
  | none => some Map.empty
  | some v => v.asObject

/-- The entries no field of the struct takes. -/
def flattenedExtra (names : List String) (m : Map) : Map := m.retain fun key => key ∉ names

/-- A `u64`. -/
def Value.asU64 : Value → Option Nat
  | .int n => if 0 ≤ n then some n.toNat else none
  | _ => none

/-! ## Encoding -/

def encodeVec {α : Type} (encode : α → Value) (xs : List α) : Value := .array (xs.map encode)

/-- A `Vec` field that is skipped when it is empty. -/
def skipEmpty {α : Type} (encode : α → Value) (xs : List α) : Option Value :=
  if xs.isEmpty then none else some (encodeVec encode xs)

/-- A map that is skipped when it is empty. -/
def skipEmptyMap (m : Map) : Option Value := if m.isEmpty then none else some (.object m)

/-- A struct, written as its fields. -/
def Value.struct (fields : List (String × Option Value)) : Value := .object (record fields)

/-- A struct with a flattened map. -/
def Value.flattened (fields : List (String × Option Value)) (extra : Map) : Value :=
  .object (extra.foldl (fun m e => Map.insert m e.1 e.2) (record fields))

/-! ## Floating point -/

/-- An `f64`, by its bits. -/
structure F64 where
  bits : UInt64
  deriving DecidableEq

namespace F64

/-- Neither an infinity nor a NaN. -/
def isFinite (x : F64) : Bool := x.bits.toNat / 2 ^ 52 % 2 ^ 11 ≠ 2047

/-- JSON has no number that is not finite. -/
def toValue (x : F64) : Value := if x.isFinite then .float x.bits else .null

/-- The nearest `f64` of an integer, ties to even. -/
def ofInt (n : Int) : F64 :=
  let m := n.natAbs
  if m = 0 then ⟨0⟩
  else
    let e := m.log2
    let significand :=
      if e ≤ 52 then m * 2 ^ (52 - e)
      else
        let unit := 2 ^ (e - 52)
        let q := m / unit
        let r := m % unit
        if unit < 2 * r ∨ (2 * r = unit ∧ q % 2 = 1) then q + 1 else q
    let sign := if n < 0 then 2 ^ 63 else 0
    -- a significand rounded up to the next power of two carries into the exponent
    ⟨UInt64.ofNat (sign + (e + 1022) * 2 ^ 52 + significand)⟩

def decode : Value → Option F64
  | .float bits => some ⟨bits⟩
  | .int n => some (ofInt n)
  | _ => none

end F64

example : F64.ofInt 1 = ⟨0x3FF0000000000000⟩ ∧ F64.ofInt (-2) = ⟨0xC000000000000000⟩ ∧
    F64.ofInt (2 ^ 53 + 1) = ⟨0x4340000000000000⟩ := by decide

/-! ## Reading fields back -/

@[simp] theorem structFields_struct (names : List String)
    (fields : List (String × Option Value)) :
    structFields names (Value.struct fields) = some (record fields) := rfl

theorem Value.struct_ne_null (fields : List (String × Option Value)) :
    Value.struct fields ≠ .null := nofun

theorem Value.flattened_ne_null (fields : List (String × Option Value)) (extra : Map) :
    Value.flattened fields extra ≠ .null := nofun

@[simp] theorem Map.get_record_nil (key : String) : Map.get (record []) key = none := rfl

@[simp] theorem Map.get_record_cons (key : String) (o : Option Value)
    (fields : List (String × Option Value)) (key' : String) :
    Map.get (record ((key, o) :: fields)) key' =
      if key = key' then o.or (Map.get (record fields) key') else Map.get (record fields) key' :=
  Lib.get_record_cons key o fields key'

/-! ### Required fields -/

@[simp] theorem stringField_record (fields : List (String × Option Value)) (name : String) :
    stringField (record fields) name = (Map.get (record fields) name).bind Value.asStr := rfl

@[simp] theorem requiredField_record {α : Type} (fields : List (String × Option Value))
    (name : String) (dec : Value → Option α) :
    requiredField (record fields) name dec = (Map.get (record fields) name).bind dec := rfl

/-! ### Optional fields -/

/-- What an optional field reads, absent or not. -/
def optional {α : Type} (dec : Value → Option α) : Option Value → Option (Option α)
  | none | some .null => some none
  | some v => (dec v).map some

@[simp] theorem optionField_record {α : Type} (fields : List (String × Option Value))
    (name : String) (dec : Value → Option α) :
    optionField (record fields) name dec = optional dec (Map.get (record fields) name) := rfl

@[simp] theorem optional_none {α : Type} (dec : Value → Option α) :
    optional dec none = some none := rfl

theorem optional_some {α : Type} {dec : Value → Option α} {v : Value} (h : v ≠ .null) :
    optional dec (some v) = (dec v).map some := by
  cases v
  case null => exact absurd rfl h
  all_goals rfl

theorem optional_map_of_mem {α β : Type} {dec : Value → Option β} {enc : α → Value} {f : α → β}
    (hnull : ∀ a, enc a ≠ .null) {o : Option α} (h : ∀ a ∈ o, dec (enc a) = some (f a)) :
    optional dec (o.map enc) = some (o.map f) := by
  cases o with
  | none => rfl
  | some a =>
      rw [Option.map_some, optional_some (hnull a), h a rfl, Option.map_some, Option.map_some]

theorem optional_map {α β : Type} {dec : Value → Option β} {enc : α → Value} {f : α → β}
    (h : Reads dec enc f) (hnull : ∀ a, enc a ≠ .null) (o : Option α) :
    optional dec (o.map enc) = some (o.map f) :=
  optional_map_of_mem hnull fun a _ => h a

theorem reads_string : Reads Value.asStr Value.string id := fun _ => rfl

theorem reads_bool : Reads Value.asBool Value.bool id := fun _ => rfl

@[simp] theorem optional_string (o : Option String) :
    optional Value.asStr (o.map .string) = some o := by
  rw [optional_map reads_string fun _ => nofun, Option.map_id, id_eq]

@[simp] theorem optional_bool (o : Option Bool) :
    optional Value.asBool (o.map .bool) = some o := by
  rw [optional_map reads_bool fun _ => nofun, Option.map_id, id_eq]

@[simp] theorem optional_some_bool (b : Bool) :
    optional Value.asBool (some (.bool b)) = some (some b) := rfl

/-- A `null` value reads as absent. -/
@[simp] theorem optional_value (o : Option Value) :
    optional some o = some (o.filter fun v => v ≠ .null) := by
  cases o with
  | none => rfl
  | some v =>
      by_cases hv : v = .null
      · subst hv
        rfl
      · rw [optional_some hv, Option.filter_some, if_pos (by simpa using hv)]
        rfl

theorem optional_i64 {o : Option Int} (h : ∀ n ∈ o, n < 2 ^ 63) :
    optional Value.asI64 (o.map .int) = some o := by
  cases o with
  | none => rfl
  | some n =>
      show (if n < 2 ^ 63 then some n else none).map some = _
      rw [if_pos (h n rfl)]
      rfl

/-- A number that is not finite reads as absent. -/
@[simp] theorem optional_f64 (o : Option F64) :
    optional F64.decode (o.map F64.toValue) = some (o.filter F64.isFinite) := by
  cases o with
  | none => rfl
  | some x =>
      rw [Option.map_some, F64.toValue]
      cases hx : x.isFinite with
      | true => simp [optional, F64.decode, Option.filter, hx]
      | false => simp [optional, Option.filter, hx]

/-! ### Vectors -/

/-- What a `Vec` field reads, absent or not. -/
def orEmpty {α : Type} (dec : Value → Option α) : Option Value → Option (List α)
  | none => some []
  | some v => decodeVec dec v

@[simp] theorem vecField_record {α : Type} (fields : List (String × Option Value))
    (name : String) (dec : Value → Option α) :
    vecField (record fields) name dec = orEmpty dec (Map.get (record fields) name) := rfl

@[simp] theorem orEmpty_none {α : Type} (dec : Value → Option α) :
    orEmpty dec none = some [] := rfl

theorem decodeVec_encodeVec {α β : Type} {dec : Value → Option β} {enc : α → Value} {f : α → β}
    {xs : List α} (h : ∀ x ∈ xs, dec (enc x) = some (f x)) :
    decodeVec dec (encodeVec enc xs) = some (xs.map f) :=
  mapM_map_of_reads h

theorem orEmpty_skipEmpty {α β : Type} {dec : Value → Option β} {enc : α → Value} {f : α → β}
    (h : Reads dec enc f) (xs : List α) : orEmpty dec (skipEmpty enc xs) = some (xs.map f) := by
  cases xs with
  | nil => rfl
  | cons x xs => exact decodeVec_encodeVec fun x _ => h x

@[simp] theorem orEmpty_string (xs : List String) :
    orEmpty Value.asStr (skipEmpty .string xs) = some xs := by
  rw [orEmpty_skipEmpty reads_string, List.map_id]

/-! ### Flattened maps -/

/-- The map has no key of a named field, and each key once. -/
structure Avoids (names : List String) (extra : Map) : Prop where
  nodup : extra.keys.Nodup
  disjoint : ∀ name ∈ names, name ∉ extra.keys

theorem avoids_empty (names : List String) : Avoids names Map.empty :=
  ⟨List.nodup_nil, fun _ _ => List.not_mem_nil⟩

theorem Avoids.get {names : List String} {extra : Map} (h : Avoids names extra) {name : String}
    (hname : name ∈ names) : extra.get name = none := by
  rw [← Option.not_isSome_iff_eq_none]
  intro hsome
  exact h.disjoint name hname ((Entries.get_isSome_iff extra name).mp hsome)

theorem avoids_flattenedExtra (names : List String) {m : Map} (h : m.keys.Nodup) :
    Avoids names (flattenedExtra names m) := by
  constructor
  · exact List.Nodup.sublist (List.filter_sublist.map _) h
  · intro name hname hmem
    obtain ⟨e, he, rfl⟩ := List.mem_map.mp hmem
    exact of_decide_eq_true (List.mem_filter.mp he).2 hname

theorem get_flattenedExtra (names : List String) (m : Map) (key : String) :
    (flattenedExtra names m).get key = if key ∈ names then none else m.get key := by
  rw [flattenedExtra, Map.get_retain]
  by_cases h : key ∈ names <;> simp [h]

section

variable {names : List String} {fields : List (String × Option Value)} {extra : Map}

theorem keys_record_sublist (fields : List (String × Option Value)) :
    ((record fields).map Prod.fst).Sublist (fields.map Prod.fst) := by
  induction fields with
  | nil => exact List.Sublist.refl _
  | cons f fields ih =>
      obtain ⟨k, o⟩ := f
      cases o with
      | none => exact ih.cons k
      | some v => exact ih.cons_cons k

/-- The entries of a flattened struct: the fields', and then the map's. -/
theorem flattened_eq (h : Avoids names extra) (hnames : fields.map Prod.fst = names)
    (hnodup : names.Nodup) : Value.flattened fields extra = .object (record fields ++ extra) := by
  subst hnames
  refine congrArg Value.object (Entries.foldl_insert_of_nodup ?_)
  rw [List.map_append, List.nodup_append]
  refine ⟨hnodup.sublist (keys_record_sublist fields), h.nodup, ?_⟩
  rintro key hkey _ hkey' rfl
  exact h.disjoint key ((keys_record_sublist fields).subset hkey) hkey'

theorem get_flattened (key : String) :
    Map.get (record fields ++ extra) key = (Map.get (record fields) key).or (extra.get key) :=
  Entries.get_append _ _ key

theorem flattenedExtra_append (h : Avoids names extra) (hnames : fields.map Prod.fst = names) :
    flattenedExtra names (record fields ++ extra) = extra := by
  subst hnames
  rw [flattenedExtra, Map.retain, List.filter_append]
  have hfields : (record fields).filter (fun e => decide (e.1 ∉ fields.map Prod.fst)) = [] := by
    rw [List.filter_eq_nil_iff]
    intro e he
    have hmem := (keys_record_sublist fields).subset (List.mem_map_of_mem (f := Prod.fst) he)
    simpa using hmem
  have hextra : extra.filter (fun e => decide (e.1 ∉ fields.map Prod.fst)) = extra := by
    rw [List.filter_eq_self]
    intro e he
    exact decide_eq_true fun hmem => h.disjoint e.1 hmem (List.mem_map_of_mem he)
  rw [hfields, hextra, List.nil_append]

end

theorem optionField_eq {α : Type} (m : Map) (name : String) (dec : Value → Option α) :
    optionField m name dec = optional dec (m.get name) := rfl

theorem vecField_eq {α : Type} (m : Map) (name : String) (dec : Value → Option α) :
    vecField m name dec = orEmpty dec (m.get name) := rfl

theorem stringField_eq (m : Map) (name : String) :
    stringField m name = (m.get name).bind Value.asStr := rfl

/-! ### Maps -/

@[simp] theorem mapOrEmpty_skipEmptyMap (m : Map) : mapOrEmpty (skipEmptyMap m) = some m := by
  cases m <;> rfl

end TurboMcp.Core
