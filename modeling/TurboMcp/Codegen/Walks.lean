import TurboMcp.Codegen.Members

/-!
# Walks

What becomes of a value when the walk comes to an end: an object is flattened and the
walk goes on in its entries.  Nothing that becomes of a value has a list of members
left in it.
-/

namespace TurboMcp.Codegen

open TurboMcp.Core TurboMcp.Lib

/-- No object has a list for its `allOf`. -/
def Clean (out : Value) : Prop :=
  ∀ m : Map, Meets Value.parts out (.object m) → ∀ members, ("allOf", .array members) ∉ m

section

variable {defs : Value}

/-- Each entry under its key, with what becomes of it. -/
def Walked (defs : Value) (e e' : String × Value) : Prop :=
  e'.1 = e.1 ∧ Settles (walk defs) e.2 e'.2

theorem settles_array_iff {items : List Value} {out : Value} :
    Settles (walk defs) (.array items) out ↔
      ∃ items', List.Forall₂ (Settles (walk defs)) items items' ∧ out = .array items' := by
  constructor
  · rintro ⟨_ | fuel, h⟩
    · cases h
    · rw [walk] at h
      obtain ⟨items', hitems, rfl⟩ := Option.map_eq_some_iff.mp h
      exact ⟨items', (settles_mapM_iff lasting_walk).mp ⟨fuel, hitems⟩, rfl⟩
  · rintro ⟨items', h, rfl⟩
    obtain ⟨fuel, hitems⟩ := (settles_mapM_iff lasting_walk).mpr h
    refine ⟨fuel + 1, ?_⟩
    rw [walk]
    exact congrArg (Option.map Value.array) hitems

theorem lasting_entry : Lasting fun fuel (e : String × Value) =>
    (walk defs fuel e.2).map fun child => (e.1, child) := by
  intro fuel e e' h
  obtain ⟨child, hchild, rfl⟩ := Option.map_eq_some_iff.mp h
  exact Option.map_eq_some_iff.mpr ⟨child, lasting_walk fuel _ _ hchild, rfl⟩

theorem settles_entry_iff {e e' : String × Value} :
    Settles (fun fuel (e : String × Value) => (walk defs fuel e.2).map fun child => (e.1, child))
      e e' ↔ Walked defs e e' := by
  constructor
  · rintro ⟨fuel, h⟩
    obtain ⟨child, hchild, rfl⟩ := Option.map_eq_some_iff.mp h
    exact ⟨rfl, fuel, hchild⟩
  · obtain ⟨key', v'⟩ := e'
    rintro ⟨hkey, fuel, h⟩
    refine ⟨fuel, Option.map_eq_some_iff.mpr ⟨v', h, ?_⟩⟩
    rw [← hkey]

/-- **The walk of an object**: it is flattened, and the walk goes on in each entry. -/
theorem settles_object_iff {m : Map} {out : Value} :
    Settles (walk defs) (.object m) out ↔
      ∃ flat entries, (∃ fuel, flattenedBy (flattenNode defs fuel) m = some flat) ∧
        List.Forall₂ (Walked defs) flat entries ∧ out = .object entries := by
  constructor
  · rintro ⟨_ | fuel, h⟩
    · cases h
    · rw [walk] at h
      obtain ⟨flat, hflat, h⟩ := Option.bind_eq_some_iff.mp h
      obtain ⟨entries, hentries, hout⟩ := Option.bind_eq_some_iff.mp h
      cases hout
      refine ⟨flat, entries, ⟨fuel, hflat⟩, ?_, rfl⟩
      have hsettles := (settles_mapM_iff lasting_entry).mp ⟨fuel, hentries⟩
      exact hsettles.imp fun e e' => settles_entry_iff.mp
  · rintro ⟨flat, entries, ⟨fuel, hflat⟩, hentries, rfl⟩
    have hsettles := hentries.imp fun e e' => settles_entry_iff.mpr
    obtain ⟨fuel', hmapM⟩ := (settles_mapM_iff lasting_entry).mpr hsettles
    refine ⟨max fuel fuel' + 1, ?_⟩
    rw [walk]
    refine Option.bind_eq_some_iff.mpr ⟨flat, ?_, Option.bind_eq_some_iff.mpr ⟨entries, ?_, rfl⟩⟩
    · exact flattenedBy_imp (fun _ _ => lasting_flattenNode.le (Nat.le_max_left fuel fuel')) hflat
    · exact lasting_entry.mapM.le (Nat.le_max_right fuel fuel') (a := flat) hmapM

theorem settles_scalar_iff {v out : Value} (harray : ∀ items, v ≠ .array items)
    (hobject : ∀ m, v ≠ .object m) : Settles (walk defs) v out ↔ out = v := by
  have hwalk : ∀ fuel, walk defs (fuel + 1) v = some v := by
    intro fuel
    rcases v with _ | _ | _ | _ | _ | items | m
    iterate 5 rfl
    · exact absurd rfl (harray items)
    · exact absurd rfl (hobject m)
  constructor
  · rintro ⟨fuel, h⟩
    have hnext := lasting_walk fuel v out h
    rw [hwalk] at hnext
    exact (Option.some.inj hnext).symm
  · rintro rfl
    exact ⟨1, hwalk 0⟩

/-- Only a list becomes a list. -/
theorem array_of_settles {v : Value} {items' : List Value}
    (h : Settles (walk defs) v (.array items')) : ∃ items, v = .array items := by
  by_cases harray : ∃ items, v = .array items
  · exact harray
  · exfalso
    by_cases hobject : ∃ m, v = .object m
    · obtain ⟨m, rfl⟩ := hobject
      obtain ⟨_, _, -, -, hout⟩ := settles_object_iff.mp h
      cases hout
    · have hsame := (settles_scalar_iff (fun items hv => harray ⟨items, hv⟩)
        fun m hv => hobject ⟨m, hv⟩).mp h
      exact harray ⟨items', hsame.symm⟩

theorem object_of_settles {v : Value} {entries : Map}
    (h : Settles (walk defs) v (.object entries)) : ∃ m, v = .object m := by
  by_cases hobject : ∃ m, v = .object m
  · exact hobject
  · exfalso
    by_cases harray : ∃ items, v = .array items
    · obtain ⟨items, rfl⟩ := harray
      obtain ⟨_, -, hout⟩ := settles_array_iff.mp h
      cases hout
    · have hsame := (settles_scalar_iff (fun items hv => harray ⟨items, hv⟩)
        fun m hv => hobject ⟨m, hv⟩).mp h
      exact hobject ⟨entries, hsame.symm⟩

/-- What stands in a result is a result too. -/
theorem exists_settles_part {v out w : Value} (h : Settles (walk defs) v out)
    (hw : w ∈ out.parts) : ∃ c, Settles (walk defs) c w := by
  rcases out with _ | _ | _ | _ | _ | items' | entries
  iterate 5 cases hw
  · obtain ⟨items, rfl⟩ := array_of_settles h
    obtain ⟨_, hitems, hout⟩ := settles_array_iff.mp h
    cases hout
    obtain ⟨c, -, hc⟩ := forall₂_mem_right hitems hw
    exact ⟨c, hc⟩
  · obtain ⟨m, rfl⟩ := object_of_settles h
    obtain ⟨_, _, -, hentries, hout⟩ := settles_object_iff.mp h
    cases hout
    obtain ⟨e', he', rfl⟩ := List.mem_map.mp hw
    obtain ⟨e, -, -, he⟩ := forall₂_mem_right hentries he'
    exact ⟨e.2, he⟩

/-- **No lists of members** are left, wherever the flattening comes to an end. -/
theorem clean_of_settles {v out : Value} (h : Settles (walk defs) v out) : Clean out := by
  intro m hm members hmem
  obtain ⟨c, hc⟩ : ∃ c, Settles (walk defs) c (.object m) := by
    refine hm.induction (P := fun w => ∃ c, Settles (walk defs) c w) ⟨v, h⟩ ?_
    rintro b - ⟨c, hc⟩ w hw
    exact exists_settles_part hc hw
  obtain ⟨o, rfl⟩ := object_of_settles hc
  obtain ⟨flat, _, ⟨fuel, hflat⟩, hentries, hout⟩ := settles_object_iff.mp hc
  cases hout
  obtain ⟨⟨key, w⟩, he, hkey, hw⟩ := forall₂_mem_right hentries hmem
  obtain ⟨items, rfl⟩ := array_of_settles hw
  have hkey : "allOf" = key := hkey
  subst hkey
  exact no_members_of_flattened hflat items he

/-! ### Keywords of the result -/

theorem get_of_walked {flat out : Map} (h : List.Forall₂ (Walked defs) flat out) {key : String}
    {v : Value} (hget : flat.get key = some v) :
    ∃ w, out.get key = some w ∧ Settles (walk defs) v w := by
  induction h with
  | nil => cases hget
  | @cons e e' flat out he _ ih =>
      obtain ⟨hkey, hsettles⟩ := he
      have hget : (if e.1 = key then some e.2 else Map.get flat key) = some v := hget
      show ∃ w, (if e'.1 = key then some e'.2 else Map.get out key) = some w ∧ _
      rw [hkey]
      split at hget
      · cases hget
        rw [if_pos ‹_›]
        exact ⟨e'.2, rfl, hsettles⟩
      · rw [if_neg ‹_›]
        exact ih hget

theorem exists_get_of_walked {flat out : Map} (h : List.Forall₂ (Walked defs) flat out)
    {key : String} {w : Value} (hget : out.get key = some w) :
    ∃ v, flat.get key = some v ∧ Settles (walk defs) v w := by
  induction h with
  | nil => cases hget
  | @cons e e' flat out he _ ih =>
      obtain ⟨hkey, hsettles⟩ := he
      have hget : (if e'.1 = key then some e'.2 else Map.get out key) = some w := hget
      show ∃ v, (if e.1 = key then some e.2 else Map.get flat key) = some v ∧ _
      rw [hkey] at hget
      split at hget
      · cases hget
        rw [if_pos ‹_›]
        exact ⟨e.2, rfl, hsettles⟩
      · rw [if_neg ‹_›]
        exact ih hget

theorem mem_iff_get {m : Map} (h : m.keys.Nodup) {e : String × Value} :
    e ∈ m ↔ m.get e.1 = some e.2 :=
  ⟨fun he => Entries.get_of_mem h he, fun hget => Entries.mem_of_get hget⟩

/-- An object with no list of members keeps its entries. -/
theorem get_of_plain {fuel : Nat} {obj flat : Map}
    (h : flattenedBy (flattenNode defs fuel) obj = some flat)
    (hplain : ∀ members, obj.get "allOf" ≠ some (.array members)) (key : String) :
    flat.get key = obj.get key := by
  revert hplain key
  refine flattened_induction (Q := fun obj flat =>
    (∀ members, obj.get "allOf" ≠ some (.array members)) → ∀ key, flat.get key = obj.get key)
    ?_ ?_ ?_ h
  · intro obj _ _ key
    rfl
  · intro obj other hother _ _ key
    by_cases hkey : key = "allOf"
    · subst hkey
      rw [Map.get_insert, if_pos rfl, hother]
    · exact get_restored obj other hkey
  · intro obj members cs hmembers _ hplain
    exact absurd hmembers (hplain members)

theorem mem_of_plain {fuel : Nat} {obj flat : Map}
    (h : flattenedBy (flattenNode defs fuel) obj = some flat) (hnodup : obj.keys.Nodup)
    (hplain : ∀ members, obj.get "allOf" ≠ some (.array members)) {e : String × Value} :
    e ∈ flat ↔ e ∈ obj := by
  rw [mem_iff_get (nodup_of_flattened h hnodup), mem_iff_get hnodup, get_of_plain h hplain]

/-- What becomes of an object with no list of members: each entry under its key. -/
theorem entries_of_plain {obj out : Map} (h : Settles (walk defs) (.object obj) (.object out))
    (hnodup : obj.keys.Nodup) (hplain : ∀ members, obj.get "allOf" ≠ some (.array members)) :
    (∀ e ∈ obj, ∃ w, Settles (walk defs) e.2 w ∧ (e.1, w) ∈ out) ∧
      ∀ e' ∈ out, ∃ e ∈ obj, e.1 = e'.1 ∧ Settles (walk defs) e.2 e'.2 := by
  obtain ⟨flat, entries, ⟨fuel, hflat⟩, hentries, hout⟩ := settles_object_iff.mp h
  cases hout
  constructor
  · intro e he
    obtain ⟨⟨key, w⟩, he', hkey, hw⟩ :=
      forall₂_mem_left hentries ((mem_of_plain hflat hnodup hplain).mpr he)
    have hkey : key = e.1 := hkey
    exact ⟨w, hw, hkey ▸ he'⟩
  · intro e' he'
    obtain ⟨e, he, hkey, hw⟩ := forall₂_mem_right hentries he'
    exact ⟨e, (mem_of_plain hflat hnodup hplain).mp he, hkey.symm, hw⟩

theorem exists_settles_object {fuel : Nat} {obj flat : Map}
    (h : flattenedBy (flattenNode defs fuel) obj = some flat)
    (hentries : ∀ e ∈ flat, ∃ w, Settles (walk defs) e.2 w) :
    ∃ out, Settles (walk defs) (.object obj) (.object out) := by
  have hwalked : ∀ e ∈ flat, ∃ e', Walked defs e e' := by
    intro e he
    obtain ⟨w, hw⟩ := hentries e he
    exact ⟨(e.1, w), rfl, hw⟩
  obtain ⟨out, hout⟩ := exists_forall₂ hwalked
  exact ⟨out, settles_object_iff.mpr ⟨flat, out, ⟨fuel, h⟩, hout, rfl⟩⟩

theorem exists_settles_plain {obj : Map} (hnodup : obj.keys.Nodup)
    (hplain : ∀ members, obj.get "allOf" ≠ some (.array members))
    (hentries : ∀ e ∈ obj, ∃ w, Settles (walk defs) e.2 w) :
    ∃ out, Settles (walk defs) (.object obj) (.object out) := by
  have hfolds : Folds defs obj := .intro fun members _ _ hget => absurd hget (hplain members)
  obtain ⟨fuel, flat, hflat⟩ := exists_flattened hfolds
  refine exists_settles_object hflat fun e he => hentries e ?_
  exact (mem_of_plain hflat hnodup hplain).mp he

/-- **Lists of the result**: those of the flattened node, each entry flattened. -/
theorem entries_of_walked {flat out : Map} (h : List.Forall₂ (Walked defs) flat out)
    (hnodup : (propsOf flat).keys.Nodup)
    (hnamed : ∀ members, ("allOf", .array members) ∉ propsOf flat) (kind : Listed) :
    (∀ e ∈ kind.entries flat, ∃ w, Settles (walk defs) e.2 w ∧ (e.1, w) ∈ kind.entries out) ∧
      ∀ e' ∈ kind.entries out, ∃ e ∈ kind.entries flat, e.1 = e'.1 ∧
        Settles (walk defs) e.2 e'.2 := by
  rcases kind
  · have hplain : ∀ members, (propsOf flat).get "allOf" ≠ some (.array members) :=
      fun members hget => hnamed members (Entries.mem_of_get hget)
    constructor
    · intro e he
      have he : e ∈ propsOf flat := he
      unfold propsOf at he hnodup hplain
      split at he
      · rename_i props hget
        rw [hget] at hnodup hplain
        obtain ⟨w, hout, hw⟩ := get_of_walked h hget
        obtain ⟨_, entries, -, -, rfl⟩ := settles_object_iff.mp hw
        obtain ⟨w, hw, hmem⟩ := (entries_of_plain hw hnodup hplain).1 e he
        refine ⟨w, hw, ?_⟩
        show (e.1, w) ∈ propsOf out
        rwa [propsOf_eq hout]
      · cases he
    · intro e' he'
      have he' : e' ∈ propsOf out := he'
      unfold propsOf at he'
      split at he'
      · rename_i entries hget
        obtain ⟨v, hflat, hv⟩ := exists_get_of_walked h hget
        obtain ⟨props, rfl⟩ := object_of_settles hv
        rw [propsOf_eq hflat] at hnodup hplain
        obtain ⟨e, he, hkey, hw⟩ := (entries_of_plain hv hnodup hplain).2 e' he'
        refine ⟨e, ?_, hkey, hw⟩
        show e ∈ propsOf flat
        rwa [propsOf_eq hflat]
      · cases he'
  · constructor
    · intro e he
      obtain ⟨v, hv, rfl⟩ := List.mem_map.mp he
      unfold requiredOf at hv
      split at hv
      · rename_i required hget
        obtain ⟨w, hout, hw⟩ := get_of_walked h hget
        obtain ⟨items', hitems, rfl⟩ := settles_array_iff.mp hw
        obtain ⟨v', hv', hsettles⟩ := forall₂_mem_left hitems hv
        refine ⟨v', hsettles, List.mem_map.mpr ⟨v', ?_, rfl⟩⟩
        rwa [requiredOf_eq hout]
      · cases hv
    · intro e' he'
      obtain ⟨v', hv', rfl⟩ := List.mem_map.mp he'
      unfold requiredOf at hv'
      split at hv'
      · rename_i items' hget
        obtain ⟨w, hflat, hw⟩ := exists_get_of_walked h hget
        obtain ⟨required, rfl⟩ := array_of_settles hw
        obtain ⟨_, hitems, hout⟩ := settles_array_iff.mp hw
        cases hout
        obtain ⟨v, hv, hsettles⟩ := forall₂_mem_right hitems hv'
        refine ⟨("", v), List.mem_map.mpr ⟨v, ?_, rfl⟩, rfl, hsettles⟩
        rwa [requiredOf_eq hflat]
      · cases hv'

end

end TurboMcp.Codegen
