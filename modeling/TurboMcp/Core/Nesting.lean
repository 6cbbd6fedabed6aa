import TurboMcp.Core.Json
import TurboMcp.Lib.Descent

/-!
# Nesting

The values that stand in a value.  In a `serde_json::Map` no key stands twice; a
value is keyed when this holds of all the objects in it.
-/

namespace TurboMcp.Core

open TurboMcp.Lib

namespace Value

/-- What stands directly in a value. -/
def parts : Value → List Value
  | .array xs => xs
  | .object m => m.map Prod.snd
  | _ => []

theorem sizeOf_part {v w : Value} (h : w ∈ v.parts) : sizeOf w < sizeOf v := by
  rcases v with _ | _ | _ | _ | _ | xs | m
  iterate 5 cases h
  · have hlt : sizeOf w < sizeOf xs := List.sizeOf_lt_of_mem h
    simp only [array.sizeOf_spec]
    omega
  · obtain ⟨e, he, rfl⟩ := List.mem_map.mp h
    have hlt := List.sizeOf_lt_of_mem he
    obtain ⟨key, w⟩ := e
    simp only [object.sizeOf_spec, Prod.mk.sizeOf_spec] at hlt ⊢
    omega

theorem sizeOf_entry {m : Map} {key : String} {w : Value} (h : (key, w) ∈ m) :
    sizeOf w < sizeOf (object m) :=
  sizeOf_part (List.mem_map.mpr ⟨_, h, rfl⟩)

/-- No object has a key twice. -/
def Keyed (v : Value) : Prop := ∀ m : Map, Meets parts v (.object m) → m.keys.Nodup

theorem Keyed.part {v w : Value} (h : v.Keyed) (hw : w ∈ v.parts) : w.Keyed :=
  fun m hm => h m (.head hw hm)

theorem Keyed.keys {m : Map} (h : (object m).Keyed) : m.keys.Nodup := h m (.refl _)

theorem Keyed.entry {m : Map} (h : (object m).Keyed) {key : String} {w : Value}
    (hw : (key, w) ∈ m) : w.Keyed :=
  h.part (List.mem_map.mpr ⟨_, hw, rfl⟩)

theorem keyed_of_closed (values : List Value) {v : Value} (hv : v ∈ values)
    (hclosed : ∀ a ∈ values, ∀ b ∈ a.parts, b ∈ values)
    (hkeys : ∀ a ∈ values, (a.asObject.getD []).keys.Nodup) : v.Keyed :=
  fun _ hm => hkeys _ (mem_of_closed hclosed hv hm)

end Value

end TurboMcp.Core
