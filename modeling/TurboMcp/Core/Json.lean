import Mathlib.Algebra.Group.Int.Defs
import Mathlib.Algebra.Group.Nat.Defs
import TurboMcp.Lib.Dict

/-!
# JSON values

`serde_json::Value` with its `preserve_order` objects: an object is its list of
entries in insertion order.  A number is an integer of the `i64`/`u64` range or
the bits of a finite `f64`; no modelled function computes with the latter.
-/

namespace TurboMcp.Core

open TurboMcp.Lib

inductive Value
  | null
  | bool (b : Bool)
  | int (n : Int)
  | float (bits : UInt64)
  | string (s : String)
  | array (xs : List Value)
  | object (m : List (String × Value))
  deriving Inhabited

/-- `serde_json::Map<String, Value>`. -/
abbrev Map := List (String × Value)

namespace Map

def empty : Map := []

def get (m : Map) (key : String) : Option Value := Entries.get m key

def insert (m : Map) (key : String) (v : Value) : Map := Entries.insert m key v

/-- Insertion into a `BTreeMap`. -/
def insertSorted (m : Map) (key : String) (v : Value) : Map := Entries.insertSorted m key v

/-- `Map::retain` with a predicate on keys. -/
def retain (m : Map) (p : String → Bool) : Map := m.filter (p ·.1)

def keys (m : Map) : List String := m.map Prod.fst

def containsKey (m : Map) (key : String) : Bool := (m.get key).isSome

@[simp] theorem get_empty (key : String) : empty.get key = none := rfl

theorem get_insert (m : Map) (key : String) (v : Value) (key' : String) :
    (m.insert key v).get key' = if key = key' then some v else m.get key' :=
  Entries.get_insert m key v key'

@[simp] theorem get_insert_self (m : Map) (key : String) (v : Value) :
    (m.insert key v).get key = some v := by
  rw [get_insert, if_pos rfl]

@[simp] theorem insert_insert_self (m : Map) (key : String) (v v' : Value) :
    (m.insert key v).insert key v' = m.insert key v' := Entries.insert_insert_self m key v v'

theorem get_insertSorted (m : Map) (key : String) (v : Value) (key' : String) :
    (m.insertSorted key v).get key' = if key = key' then some v else m.get key' :=
  Entries.get_insertSorted m key v key'

theorem get_retain (m : Map) (p : String → Bool) (key : String) :
    (m.retain p).get key = if p key then m.get key else none :=
  Entries.get_filter_key m p key

end Map

namespace Value

def asStr : Value → Option String
  | string s => some s
  | _ => none

def asBool : Value → Option Bool
  | bool b => some b
  | _ => none

def asObject : Value → Option Map
  | object m => some m
  | _ => none

def asArray : Value → Option (List Value)
  | array xs => some xs
  | _ => none

def asI64 : Value → Option Int
  | int n => if n < 2 ^ 63 then some n else none
  | _ => none

/-- `Value::get` with a string index. -/
def get (v : Value) (key : String) : Option Value := v.asObject.bind (·.get key)

@[simp] theorem asObject_object (m : Map) : (object m).asObject = some m := rfl

@[simp] theorem asStr_string (s : String) : (string s).asStr = some s := rfl

@[simp] theorem get_object (m : Map) (key : String) : (object m).get key = m.get key := rfl

theorem asObject_eq_some {v : Value} {m : Map} (h : v.asObject = some m) :
    v = object m := by
  cases v <;> simp_all [asObject]

/-! ## Decidable equality -/

mutual
def beq : Value → Value → Bool
  | null, null => true
  | bool a, bool b => a == b
  | int a, int b => a == b
  | float a, float b => a == b
  | string a, string b => a == b
  | array xs, array ys => beqs xs ys
  | object m, object n => beqm m n
  | _, _ => false

def beqs : List Value → List Value → Bool
  | [], [] => true
  | x :: xs, y :: ys => beq x y && beqs xs ys
  | _, _ => false

def beqm : List (String × Value) → List (String × Value) → Bool
  | [], [] => true
  | (k, v) :: m, (l, w) :: n => k == l && beq v w && beqm m n
  | _, _ => false
end

mutual
theorem beq_iff : ∀ v w : Value, beq v w = true ↔ v = w
  | null, w => by cases w <;> simp [beq]
  | bool _, w => by cases w <;> simp [beq]
  | int _, w => by cases w <;> simp [beq]
  | float _, w => by cases w <;> simp [beq]
  | string _, w => by cases w <;> simp [beq]
  | array xs, w => by
      cases w <;> simp [beq]
      exact beqs_iff xs _
  | object m, w => by
      cases w <;> simp [beq]
      exact beqm_iff m _

theorem beqs_iff : ∀ xs ys : List Value, beqs xs ys = true ↔ xs = ys
  | [], ys => by cases ys <;> simp [beqs]
  | x :: xs, ys => by
      cases ys with
      | nil => simp [beqs]
      | cons y ys => simp [beqs, beq_iff x y, beqs_iff xs ys]

theorem beqm_iff : ∀ m n : List (String × Value), beqm m n = true ↔ m = n
  | [], n => by cases n <;> simp [beqm]
  | (k, v) :: m, n => by
      cases n with
      | nil => simp [beqm]
      | cons e n => simp [beqm, beq_iff v e.2, beqm_iff m n, Prod.ext_iff]
end

instance : DecidableEq Value := fun v w => decidable_of_iff _ (beq_iff v w)

end Value

end TurboMcp.Core
