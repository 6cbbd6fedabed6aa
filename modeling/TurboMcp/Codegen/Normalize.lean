import Mathlib.Data.List.Induction
import TurboMcp.Core.Nesting
import TurboMcp.Lib.Fuel

/-!
# Schema normalization

The generator flattens every `allOf` of a schema before the types are made: a node
takes over the properties, the required names, the type and the
`additionalProperties` of its members, references resolved against a snapshot of the
definitions.  The recursion follows references, and is given fuel.
-/

namespace TurboMcp.Codegen

open TurboMcp.Core TurboMcp.Lib

def metadataKeys : List String := ["description", "title", "default"]

/-- `map.remove(key)`; the order of the entries, which it changes, says nothing. -/
def remove (m : Map) (key : String) : Map := Entries.remove m key

/-- `map.entry(key).or_insert(value)` -/
def orInsert (m : Map) (key : String) (value : Value) : Map :=
  if m.containsKey key then m else m.insert key value

/-- Resolve a local `$ref` by its last segment. -/
def resolve (defs : Value) (reference : String) : Option Value :=
  defs.get (String.ofList (reference.toList.reverse.takeWhile (· ≠ '/')).reverse)

/-! ## Merging -/

def mergeProperties (target src : Map) : Map :=
  match src.get "properties" with
  | some (.object props) =>
      let target := orInsert target "properties" (.object Map.empty)
      match target.get "properties" with
      | some (.object targetProps) =>
          target.insert "properties"
            (.object (props.foldl (fun m e => Map.insert m e.1 e.2) targetProps))
      | _ => target
  | _ => target

def mergeRequired (target src : Map) : Map :=
  match src.get "required" with
  | some (.array required) =>
      let target := orInsert target "required" (.array [])
      match target.get "required" with
      | some (.array targetRequired) =>
          target.insert "required"
            (.array (required.foldl (fun l v => if v ∈ l then l else l ++ [v]) targetRequired))
      | _ => target
  | _ => target

def mergeType (target src : Map) : Map :=
  match src.get "type" with
  | some type => target.insert "type" type
  | none => target

def mergeAdditional (target src : Map) : Map :=
  match src.get "additionalProperties" with
  | some additional => orInsert target "additionalProperties" additional
  | none => target

def mergeObjectInto (target src : Map) : Map :=
  mergeAdditional (mergeType (mergeRequired (mergeProperties target src) src) src) src

/-! ## Flattening -/

/-- What a member of an `allOf` stands for. -/
def target (defs member : Value) : Value :=
  match (member.get "$ref").bind Value.asStr with
  | some reference => (resolve defs reference).getD member
  | none => member

/-- An object with its `allOf` flattened, if it has one. -/
def flattenedBy (flattenNode : Map → Option Map) (obj : Map) : Option Map :=
  if obj.containsKey "allOf" then flattenNode obj else some obj

def mergeMember (flattenNode : Map → Option Map) (defs : Value) (merged : Map) (member : Value) :
    Option Map :=
  match target defs member with
  | .object obj => do
      let obj ← flattenedBy flattenNode obj
      some (mergeObjectInto merged (metadataKeys.foldl remove obj))
  | _ => some merged

def flattenNode (defs : Value) : Nat → Map → Option Map
  | 0, _ => none
  | fuel + 1, node =>
      match node.get "allOf" with
      | some (.array members) => do
          let merged ← members.foldlM (mergeMember (flattenNode defs fuel) defs) Map.empty
          some (merged.foldl (fun m e => orInsert m e.1 e.2) (remove node "allOf"))
      -- not the shape that is flattened: restored
      | some other => some ((remove node "allOf").insert "allOf" other)
      | none => some node

def walk (defs : Value) : Nat → Value → Option Value
  | 0, _ => none
  | fuel + 1, .object m => do
      let m ← flattenedBy (flattenNode defs fuel) m
      let entries ← m.mapM fun e => (walk defs fuel e.2).map fun child => (e.1, child)
      some (.object entries)
  | fuel + 1, .array items => (items.mapM (walk defs fuel)).map .array
  | _ + 1, v => some v

/-- The definitions references are resolved against. -/
def definitions (schema : Value) : Value :=
  ((schema.get "$defs").or (schema.get "definitions")).getD .null

def flattenAllOf (fuel : Nat) (schema : Value) : Option Value :=
  walk (definitions schema) fuel schema

/-! ## More fuel -/

section

variable {defs : Value}

theorem flattenedBy_imp {f g : Map → Option Map} (h : ∀ m r, f m = some r → g m = some r)
    {obj r : Map} (hobj : flattenedBy f obj = some r) : flattenedBy g obj = some r := by
  unfold flattenedBy at hobj ⊢
  split at hobj
  · rw [if_pos ‹_›]
    exact h obj r hobj
  · rw [if_neg ‹_›]
    exact hobj

theorem mergeMember_imp {f g : Map → Option Map} (h : ∀ m r, f m = some r → g m = some r)
    {merged r : Map} {member : Value} (hmember : mergeMember f defs merged member = some r) :
    mergeMember g defs merged member = some r := by
  unfold mergeMember at hmember ⊢
  split at hmember
  · obtain ⟨obj, hobj, hr⟩ := Option.bind_eq_some_iff.mp hmember
    exact Option.bind_eq_some_iff.mpr ⟨obj, flattenedBy_imp h hobj, hr⟩
  · exact hmember

theorem foldlM_imp {α β : Type*} {f g : β → α → Option β}
    (h : ∀ b a r, f b a = some r → g b a = some r) {l : List α} {b r : β}
    (hl : l.foldlM f b = some r) : l.foldlM g b = some r := by
  induction l generalizing b with
  | nil => exact hl
  | cons a l ih =>
      rw [List.foldlM_cons] at hl ⊢
      obtain ⟨b', hb', hr⟩ := Option.bind_eq_some_iff.mp hl
      rw [h b a b' hb']
      exact ih hr

theorem lasting_flattenNode : Lasting (flattenNode defs) := by
  intro fuel
  induction fuel with
  | zero =>
      intro m r h
      cases h
  | succ fuel ih =>
      intro m r h
      rw [flattenNode] at h ⊢
      split at h
      · obtain ⟨merged, hmerged, hr⟩ := Option.bind_eq_some_iff.mp h
        refine Option.bind_eq_some_iff.mpr ⟨merged, ?_, hr⟩
        exact foldlM_imp (fun b a r => mergeMember_imp ih) hmerged
      · exact h
      · exact h

theorem lasting_walk : Lasting (walk defs) := by
  intro fuel
  induction fuel with
  | zero =>
      intro v r h
      rcases v <;> cases h
  | succ fuel ih =>
      intro v r h
      rcases v with _ | _ | _ | _ | _ | items | m
      iterate 5 exact h
      · rw [walk] at h ⊢
        obtain ⟨items', hitems, hr⟩ := Option.map_eq_some_iff.mp h
        rw [mapM_eq_some_iff] at hitems
        rw [mapM_eq_some_iff.mpr (hitems.imp fun a b => ih a b)]
        exact congrArg some hr
      · rw [walk] at h ⊢
        obtain ⟨flat, hflat, h⟩ := Option.bind_eq_some_iff.mp h
        obtain ⟨entries, hentries, hr⟩ := Option.bind_eq_some_iff.mp h
        refine Option.bind_eq_some_iff.mpr
          ⟨flat, flattenedBy_imp (lasting_flattenNode fuel) hflat, ?_⟩
        refine Option.bind_eq_some_iff.mpr ⟨entries, ?_, hr⟩
        rw [mapM_eq_some_iff] at hentries ⊢
        refine hentries.imp ?_
        intro e e' he
        obtain ⟨child, hchild, he'⟩ := Option.map_eq_some_iff.mp he
        exact Option.map_eq_some_iff.mpr ⟨child, ih _ _ hchild, he'⟩

end

/-! ## What merging keeps -/

theorem get_remove (m : Map) (key key' : String) :
    (remove m key).get key' = if key = key' then none else m.get key' :=
  Entries.get_remove m key key'

theorem get_orInsert (m : Map) (key : String) (value : Value) (key' : String) :
    (orInsert m key value).get key' =
      if key = key' then (m.get key').or (some value) else m.get key' := by
  unfold orInsert Map.containsKey
  by_cases hkey : key = key'
  · subst hkey
    rw [if_pos rfl]
    rcases hget : m.get key with _ | v
    · rw [if_neg (by simp), Map.get_insert, if_pos rfl]
      rfl
    · rw [if_pos (by simp), hget]
      rfl
  · rw [if_neg hkey]
    split
    · rfl
    · rw [Map.get_insert, if_neg hkey]

theorem nodup_insert {m : Map} (h : m.keys.Nodup) (key : String) (value : Value) :
    (m.insert key value).keys.Nodup := Entries.nodup_insert h key value

theorem nodup_orInsert {m : Map} (h : m.keys.Nodup) (key : String) (value : Value) :
    (orInsert m key value).keys.Nodup := by
  unfold orInsert
  split
  · exact h
  · exact nodup_insert h key value

theorem nodup_remove {m : Map} (h : m.keys.Nodup) (key : String) : (remove m key).keys.Nodup :=
  (List.filter_sublist.map Prod.fst).nodup h

/-- Entries put into a map, later ones over earlier ones. -/
def insertAll (m es : Map) : Map := es.foldl (fun m e => Map.insert m e.1 e.2) m

theorem nodup_insertAll {m es : Map} (h : m.keys.Nodup) : (insertAll m es).keys.Nodup := by
  unfold insertAll
  induction es generalizing m with
  | nil => exact h
  | cons e es ih => exact ih (nodup_insert h e.1 e.2)

theorem mem_of_mem_insertAll {m es : Map} {e : String × Value} (h : e ∈ insertAll m es) :
    e ∈ m ∨ e ∈ es := by
  unfold insertAll at h
  induction es generalizing m with
  | nil => exact .inl h
  | cons e' es ih =>
      rcases ih h with h | h
      · rcases Entries.mem_of_mem_insert h with h | h
        · exact .inl h
        · exact .inr (h ▸ List.mem_cons_self)
      · exact .inr (List.mem_cons_of_mem _ h)

/-- Every name stays, with one value or another. -/
theorem exists_mem_insertAll {m es : Map} {e : String × Value} (h : e ∈ m ∨ e ∈ es) :
    ∃ e' ∈ insertAll m es, e'.1 = e.1 := by
  have hkeys : ∀ (es m : Map) (key : String), key ∈ m.keys ∨ key ∈ es.keys →
      key ∈ (insertAll m es).keys := by
    intro es
    induction es with
    | nil =>
        rintro m key (h | h)
        · exact h
        · cases h
    | cons e' es ih =>
        intro m key h
        apply ih
        have hinsert : key ∈ (Map.insert m e'.1 e'.2).keys ↔ key = e'.1 ∨ key ∈ m.keys := by
          unfold Map.keys Map.insert
          rw [← Entries.get_isSome_iff, ← Entries.get_isSome_iff, Entries.get_insert]
          by_cases hkey : e'.1 = key
          · simp [hkey]
          · simp [hkey, Ne.symm hkey]
        rw [hinsert]
        rcases h with h | h
        · exact .inl (.inr h)
        · rcases List.mem_cons.mp h with h | h
          · exact .inl (.inl h)
          · exact .inr h
  have hkey : e.1 ∈ (insertAll m es).keys := by
    apply hkeys
    exact h.imp (fun h => List.mem_map.mpr ⟨e, h, rfl⟩) fun h => List.mem_map.mpr ⟨e, h, rfl⟩
  obtain ⟨e', he', hsame⟩ := List.mem_map.mp hkey
  exact ⟨e', he', hsame⟩

/-- Names put into a list, each once. -/
def insertNew (l vs : List Value) : List Value :=
  vs.foldl (fun l v => if v ∈ l then l else l ++ [v]) l

theorem mem_insertNew {l vs : List Value} {v : Value} : v ∈ insertNew l vs ↔ v ∈ l ∨ v ∈ vs := by
  unfold insertNew
  induction vs generalizing l with
  | nil => simp
  | cons v' vs ih =>
      rw [List.foldl_cons, ih, List.mem_cons]
      split
      · have hmem : v' ∈ l := ‹_›
        constructor
        · rintro (h | h)
          · exact .inl h
          · exact .inr (.inr h)
        · rintro (h | rfl | h)
          · exact .inl h
          · exact .inl hmem
          · exact .inr h
      · rw [List.mem_append, List.mem_singleton, or_assoc]

/-! ## One merge -/

def propsOf (m : Map) : Map :=
  match m.get "properties" with
  | some (.object props) => props
  | _ => []

def requiredOf (m : Map) : List Value :=
  match m.get "required" with
  | some (.array required) => required
  | _ => []

theorem propsOf_eq {m props : Map} (h : m.get "properties" = some (.object props)) :
    propsOf m = props := by
  unfold propsOf
  rw [h]

theorem requiredOf_eq {m : Map} {required : List Value}
    (h : m.get "required" = some (.array required)) : requiredOf m = required := by
  unfold requiredOf
  rw [h]

theorem propsOf_congr {m m' : Map} (h : m.get "properties" = m'.get "properties") :
    propsOf m = propsOf m' := by
  unfold propsOf
  rw [h]

theorem requiredOf_congr {m m' : Map} (h : m.get "required" = m'.get "required") :
    requiredOf m = requiredOf m' := by
  unfold requiredOf
  rw [h]

def mergedKeys : List String := ["properties", "required", "type", "additionalProperties"]

/-- What the merge of some members looks like. -/
structure Merged (m : Map) : Prop where
  nodup : m.keys.Nodup
  properties : ∀ v, m.get "properties" = some v →
    ∃ props : Map, v = .object props ∧ props.keys.Nodup
  required : ∀ v, m.get "required" = some v → ∃ required, v = .array required
  other : ∀ key, key ∉ mergedKeys → m.get key = none

theorem merged_empty : Merged Map.empty where
  nodup := List.nodup_nil
  properties := fun _ h => by cases h
  required := fun _ h => by cases h
  other := fun _ _ => rfl

theorem mergeProperties_of_object {t s props : Map} (ht : Merged t)
    (hs : s.get "properties" = some (.object props)) :
    ∃ base : Map, mergeProperties t s =
        (orInsert t "properties" (.object Map.empty)).insert "properties"
          (.object (insertAll base props)) ∧ base = propsOf t ∧ base.keys.Nodup := by
  unfold mergeProperties
  rw [hs]
  simp only [get_orInsert, if_true]
  rcases hget : t.get "properties" with _ | v
  · refine ⟨[], rfl, ?_, List.nodup_nil⟩
    unfold propsOf
    rw [hget]
  · obtain ⟨base, rfl, hnodup⟩ := ht.properties v hget
    exact ⟨base, rfl, (propsOf_eq hget).symm, hnodup⟩

theorem mergeProperties_of_other {t s : Map}
    (hs : ∀ props, s.get "properties" ≠ some (.object props)) : mergeProperties t s = t := by
  unfold mergeProperties
  split
  · exact absurd ‹_› (hs _)
  · rfl

theorem mergeRequired_of_array {t s : Map} {required : List Value} (ht : Merged t)
    (hs : s.get "required" = some (.array required)) :
    mergeRequired t s =
      (orInsert t "required" (.array [])).insert "required"
        (.array (insertNew (requiredOf t) required)) := by
  unfold mergeRequired
  rw [hs]
  simp only [get_orInsert, if_true]
  rcases hget : t.get "required" with _ | v
  · have hbase : requiredOf t = [] := by
      unfold requiredOf
      rw [hget]
    rw [hbase]
    rfl
  · obtain ⟨base, rfl⟩ := ht.required v hget
    rw [requiredOf_eq hget]
    rfl

theorem mergeRequired_of_other {t s : Map}
    (hs : ∀ required, s.get "required" ≠ some (.array required)) : mergeRequired t s = t := by
  unfold mergeRequired
  split
  · exact absurd ‹_› (hs _)
  · rfl

/-- An entry under one of the merged keys, put in or replaced, leaves a merge. -/
theorem Merged.insert {m : Map} (hm : Merged m) {key : String} {value : Value}
    (hkey : key ∈ mergedKeys)
    (hproperties : key = "properties" → ∃ props : Map, value = .object props ∧ props.keys.Nodup)
    (hrequired : key = "required" → ∃ required, value = .array required) :
    Merged (m.insert key value) := by
  refine ⟨nodup_insert hm.nodup key value, ?_, ?_, ?_⟩
  · intro v hv
    rw [Map.get_insert] at hv
    split at hv
    · cases hv
      exact hproperties ‹_›
    · exact hm.properties v hv
  · intro v hv
    rw [Map.get_insert] at hv
    split at hv
    · cases hv
      exact hrequired ‹_›
    · exact hm.required v hv
  · intro key' hkey'
    have hne : key ≠ key' := fun h => hkey' (h ▸ hkey)
    rw [Map.get_insert, if_neg hne]
    exact hm.other key' hkey'

theorem Merged.orInsert {m : Map} (hm : Merged m) {key : String} {value : Value}
    (hkey : key ∈ mergedKeys)
    (hproperties : key = "properties" → ∃ props : Map, value = .object props ∧ props.keys.Nodup)
    (hrequired : key = "required" → ∃ required, value = .array required) :
    Merged (orInsert m key value) := by
  unfold Codegen.orInsert
  split
  · exact hm
  · exact hm.insert hkey hproperties hrequired

theorem merged_mergeProperties {t : Map} (ht : Merged t) (s : Map) :
    Merged (mergeProperties t s) := by
  by_cases hs : ∃ props, s.get "properties" = some (.object props)
  · obtain ⟨props, hs⟩ := hs
    obtain ⟨base, heq, -, hnodup⟩ := mergeProperties_of_object ht hs
    rw [heq]
    have hne : "properties" ≠ "required" := by decide
    refine (ht.orInsert (by decide) ?_ fun h => absurd h hne).insert (by decide) ?_
      fun h => absurd h hne
    · exact fun _ => ⟨Map.empty, rfl, List.nodup_nil⟩
    · exact fun _ => ⟨_, rfl, nodup_insertAll hnodup⟩
  · rw [mergeProperties_of_other fun props h => hs ⟨props, h⟩]
    exact ht

theorem merged_mergeRequired {t : Map} (ht : Merged t) (s : Map) : Merged (mergeRequired t s) := by
  by_cases hs : ∃ required, s.get "required" = some (.array required)
  · obtain ⟨required, hs⟩ := hs
    rw [mergeRequired_of_array ht hs]
    have hne : "required" ≠ "properties" := by decide
    refine (ht.orInsert (by decide) (fun h => absurd h hne) ?_).insert (by decide)
      (fun h => absurd h hne) ?_
    · exact fun _ => ⟨[], rfl⟩
    · exact fun _ => ⟨_, rfl⟩
  · rw [mergeRequired_of_other fun required h => hs ⟨required, h⟩]
    exact ht

theorem merged_mergeType {t : Map} (ht : Merged t) (s : Map) : Merged (mergeType t s) := by
  unfold mergeType
  split
  · exact ht.insert (by decide) (fun h => absurd h (by decide)) fun h => absurd h (by decide)
  · exact ht

theorem merged_mergeAdditional {t : Map} (ht : Merged t) (s : Map) :
    Merged (mergeAdditional t s) := by
  unfold mergeAdditional
  split
  · exact ht.orInsert (by decide) (fun h => absurd h (by decide)) fun h => absurd h (by decide)
  · exact ht

theorem merged_mergeObjectInto {t : Map} (ht : Merged t) (s : Map) :
    Merged (mergeObjectInto t s) := by
  unfold mergeObjectInto
  apply merged_mergeAdditional
  apply merged_mergeType
  apply merged_mergeRequired
  exact merged_mergeProperties ht s

theorem get_mergeProperties_ne {t : Map} (ht : Merged t) (s : Map) {key : String}
    (h : key ≠ "properties") : (mergeProperties t s).get key = t.get key := by
  by_cases hs : ∃ props, s.get "properties" = some (.object props)
  · obtain ⟨props, hs⟩ := hs
    obtain ⟨base, heq, -, -⟩ := mergeProperties_of_object ht hs
    rw [heq, Map.get_insert, if_neg (Ne.symm h), get_orInsert, if_neg (Ne.symm h)]
  · rw [mergeProperties_of_other fun props h => hs ⟨props, h⟩]

theorem get_mergeRequired_ne {t : Map} (ht : Merged t) (s : Map) {key : String}
    (h : key ≠ "required") : (mergeRequired t s).get key = t.get key := by
  by_cases hs : ∃ required, s.get "required" = some (.array required)
  · obtain ⟨required, hs⟩ := hs
    rw [mergeRequired_of_array ht hs, Map.get_insert, if_neg (Ne.symm h), get_orInsert,
      if_neg (Ne.symm h)]
  · rw [mergeRequired_of_other fun required h => hs ⟨required, h⟩]

theorem get_mergeType (t s : Map) (key : String) :
    (mergeType t s).get key =
      if "type" = key then (s.get "type").or (t.get key) else t.get key := by
  unfold mergeType
  rcases s.get "type" with _ | v
  · simp
  · simp [Map.get_insert]

theorem get_mergeAdditional (t s : Map) (key : String) :
    (mergeAdditional t s).get key =
      if "additionalProperties" = key then (t.get key).or (s.get "additionalProperties")
      else t.get key := by
  unfold mergeAdditional
  rcases s.get "additionalProperties" with _ | v
  · simp
  · simp [get_orInsert]

/-- **The merge of an object** into what is there: names of both, the later type, the
first `additionalProperties`. -/
structure Takes (t s r : Map) : Prop where
  merged : Merged r
  props : ∀ e ∈ propsOf r, e ∈ propsOf t ∨ e ∈ propsOf s
  named : ∀ e, e ∈ propsOf t ∨ e ∈ propsOf s → ∃ e' ∈ propsOf r, e'.1 = e.1
  required : ∀ v, v ∈ requiredOf r ↔ v ∈ requiredOf t ∨ v ∈ requiredOf s
  type : r.get "type" = (s.get "type").or (t.get "type")
  additional :
    r.get "additionalProperties" = (t.get "additionalProperties").or (s.get "additionalProperties")

theorem propsOf_mergeProperties {t : Map} (ht : Merged t) (s : Map) :
    propsOf (mergeProperties t s) = insertAll (propsOf t) (propsOf s) := by
  by_cases hs : ∃ props, s.get "properties" = some (.object props)
  · obtain ⟨props, hs⟩ := hs
    obtain ⟨base, heq, rfl, -⟩ := mergeProperties_of_object ht hs
    rw [heq, propsOf_eq hs, propsOf_eq (by rw [Map.get_insert, if_pos rfl])]
  · have hnone : propsOf s = [] := by
      unfold propsOf
      split
      · exact absurd ⟨_, ‹_›⟩ hs
      · rfl
    rw [mergeProperties_of_other fun props h => hs ⟨props, h⟩, hnone]
    rfl

theorem requiredOf_mergeRequired {t : Map} (ht : Merged t) (s : Map) :
    requiredOf (mergeRequired t s) = insertNew (requiredOf t) (requiredOf s) := by
  by_cases hs : ∃ required, s.get "required" = some (.array required)
  · obtain ⟨required, hs⟩ := hs
    rw [mergeRequired_of_array ht hs, requiredOf_eq hs,
      requiredOf_eq (by rw [Map.get_insert, if_pos rfl])]
  · have hnone : requiredOf s = [] := by
      unfold requiredOf
      split
      · exact absurd ⟨_, ‹_›⟩ hs
      · rfl
    rw [mergeRequired_of_other fun required h => hs ⟨required, h⟩, hnone]
    rfl

theorem takes_mergeObjectInto {t : Map} (ht : Merged t) (s : Map) :
    Takes t s (mergeObjectInto t s) := by
  have hproperties := merged_mergeProperties ht s
  have hprops : propsOf (mergeObjectInto t s) = insertAll (propsOf t) (propsOf s) := by
    rw [← propsOf_mergeProperties ht]
    apply propsOf_congr
    unfold mergeObjectInto
    rw [get_mergeAdditional, if_neg (by decide), get_mergeType, if_neg (by decide),
      get_mergeRequired_ne hproperties s (by decide)]
  have hrequired : requiredOf (mergeObjectInto t s) = insertNew (requiredOf t) (requiredOf s) := by
    rw [← requiredOf_congr (get_mergeProperties_ne ht s (by decide)),
      ← requiredOf_mergeRequired hproperties]
    apply requiredOf_congr
    unfold mergeObjectInto
    rw [get_mergeAdditional, if_neg (by decide), get_mergeType, if_neg (by decide)]
  refine ⟨merged_mergeObjectInto ht s, ?_, ?_, ?_, ?_, ?_⟩
  · intro e he
    rw [hprops] at he
    exact mem_of_mem_insertAll he
  · intro e he
    rw [hprops]
    exact exists_mem_insertAll he
  · intro v
    rw [hrequired, mem_insertNew]
  · unfold mergeObjectInto
    rw [get_mergeAdditional, if_neg (by decide), get_mergeType, if_pos rfl,
      get_mergeRequired_ne hproperties s (by decide), get_mergeProperties_ne ht s (by decide)]
  · unfold mergeObjectInto
    rw [get_mergeAdditional, if_pos rfl, get_mergeType, if_neg (by decide),
      get_mergeRequired_ne hproperties s (by decide), get_mergeProperties_ne ht s (by decide)]

/-! ## All members -/

def strip (m : Map) : Map := metadataKeys.foldl remove m

theorem get_strip (m : Map) {key : String} (h : key ∉ metadataKeys) :
    (strip m).get key = m.get key := by
  simp only [metadataKeys, List.mem_cons, List.not_mem_nil, or_false, not_or] at h
  simp only [strip, metadataKeys, List.foldl_cons, List.foldl_nil, get_remove, Ne.symm h.1,
    Ne.symm h.2.1, Ne.symm h.2.2, if_false]

/-- What a member brings into the merge. -/
def contribution (flattenNode : Map → Option Map) (defs member : Value) : Option Map :=
  match target defs member with
  | .object obj => (flattenedBy flattenNode obj).map strip
  | _ => some []

theorem mergeMember_eq (f : Map → Option Map) (defs : Value) (merged : Map) (member : Value) :
    mergeMember f defs merged member =
      (contribution f defs member).map fun c => mergeObjectInto merged c := by
  unfold mergeMember contribution
  split
  · rcases flattenedBy f _ with _ | obj <;> rfl
  · rfl

theorem foldlM_mergeMember (f : Map → Option Map) (defs : Value) (members : List Value) (t : Map) :
    members.foldlM (mergeMember f defs) t =
      (members.mapM (contribution f defs)).map fun cs => cs.foldl mergeObjectInto t := by
  induction members generalizing t with
  | nil => rfl
  | cons member members ih =>
      rw [List.foldlM_cons, List.mapM_cons, mergeMember_eq]
      rcases contribution f defs member with _ | c
      · rfl
      · show members.foldlM _ _ = _
        rw [ih]
        show _ = Option.map _ (Option.bind (members.mapM (contribution f defs)) _)
        rcases members.mapM (contribution f defs) with _ | cs <;> rfl

def orInsertAll (m es : Map) : Map := es.foldl (fun m e => orInsert m e.1 e.2) m

theorem get_orInsertAll (m es : Map) (key : String) :
    (orInsertAll m es).get key = (m.get key).or (es.get key) := by
  unfold orInsertAll
  induction es generalizing m with
  | nil => simp [Map.get]
  | cons e es ih =>
      rw [List.foldl_cons, ih, get_orInsert]
      show _ = (m.get key).or (if e.1 = key then some e.2 else Map.get es key)
      by_cases hkey : e.1 = key
      · rw [if_pos hkey, if_pos hkey]
        rcases m.get key with _ | v <;> rfl
      · rw [if_neg hkey, if_neg hkey]

theorem nodup_orInsertAll {m es : Map} (h : m.keys.Nodup) : (orInsertAll m es).keys.Nodup := by
  unfold orInsertAll
  induction es generalizing m with
  | nil => exact h
  | cons e es ih => exact ih (nodup_orInsert h e.1 e.2)

/-- **The merge of the members** from nothing. -/
structure TakesAll (cs : List Map) (r : Map) : Prop where
  merged : Merged r
  props : ∀ e ∈ propsOf r, ∃ c ∈ cs, e ∈ propsOf c
  named : ∀ c ∈ cs, ∀ e ∈ propsOf c, ∃ e' ∈ propsOf r, e'.1 = e.1
  required : ∀ v, v ∈ requiredOf r ↔ ∃ c ∈ cs, v ∈ requiredOf c
  type : r.get "type" = cs.reverse.findSome? (·.get "type")
  additional : r.get "additionalProperties" = cs.findSome? (·.get "additionalProperties")

theorem takesAll_merge (cs : List Map) : TakesAll cs (cs.foldl mergeObjectInto Map.empty) := by
  induction cs using List.reverseRecOn with
  | nil =>
      refine ⟨merged_empty, ?_, ?_, ?_, rfl, rfl⟩
      · rintro e ⟨⟩
      · rintro c ⟨⟩
      · intro v
        constructor
        · rintro ⟨⟩
        · rintro ⟨c, ⟨⟩, -⟩
  | append_singleton cs c ih =>
      rw [List.foldl_append, List.foldl_cons, List.foldl_nil]
      have htakes := takes_mergeObjectInto ih.merged c
      refine ⟨htakes.merged, ?_, ?_, ?_, ?_, ?_⟩
      · intro e he
        rcases htakes.props e he with he | he
        · obtain ⟨c', hc', he⟩ := ih.props e he
          exact ⟨c', List.mem_append_left _ hc', he⟩
        · exact ⟨c, List.mem_append_right _ List.mem_cons_self, he⟩
      · intro c' hc' e he
        rcases List.mem_append.mp hc' with hc' | hc'
        · obtain ⟨e', he', hsame⟩ := ih.named c' hc' e he
          obtain ⟨e'', he'', hsame'⟩ := htakes.named e' (.inl he')
          exact ⟨e'', he'', hsame'.trans hsame⟩
        · rw [List.mem_singleton.mp hc'] at he
          exact htakes.named e (.inr he)
      · intro v
        rw [htakes.required, ih.required]
        simp only [List.mem_append, List.mem_singleton, or_and_right, exists_or, exists_eq_left]
      · rw [htakes.type, ih.type, List.reverse_append, List.reverse_singleton,
          List.singleton_append, List.findSome?_cons]
        rcases c.get "type" with _ | v <;> rfl
      · rw [htakes.additional, ih.additional, List.findSome?_append, List.findSome?_singleton]

/-- A member's part, with what holds of each flattened object. -/
def Contributes (Q : Map → Map → Prop) (defs member : Value) (c : Map) : Prop :=
  (∃ obj flat, target defs member = .object obj ∧ Q obj flat ∧ c = strip flat) ∨
  ((∀ obj, target defs member ≠ .object obj) ∧ c = [])

/-- **Induction** along the flattening of an object: it has no `allOf`, one of another
shape, or members of which the same holds. -/
theorem flattened_induction {defs : Value} {Q : Map → Map → Prop}
    (plain : ∀ obj : Map, obj.get "allOf" = none → Q obj obj)
    (restored : ∀ (obj : Map) other, obj.get "allOf" = some other →
      (∀ members, other ≠ .array members) → Q obj ((remove obj "allOf").insert "allOf" other))
    (node : ∀ (obj : Map) members cs, obj.get "allOf" = some (.array members) →
      List.Forall₂ (Contributes Q defs) members cs →
      Q obj (orInsertAll (remove obj "allOf") (cs.foldl mergeObjectInto Map.empty)))
    {fuel : Nat} {obj flat : Map} (h : flattenedBy (flattenNode defs fuel) obj = some flat) :
    Q obj flat := by
  induction fuel generalizing obj flat with
  | zero =>
      unfold flattenedBy at h
      split at h
      · cases h
      · cases h
        have hnone : ¬ obj.containsKey "allOf" = true := ‹_›
        exact plain obj (Option.not_isSome_iff_eq_none.mp hnone)
  | succ fuel ih =>
      unfold flattenedBy at h
      split at h
      · rw [flattenNode] at h
        split at h
        · rename_i members hget
          obtain ⟨merged, hmerged, hflat⟩ := Option.bind_eq_some_iff.mp h
          rw [foldlM_mergeMember] at hmerged
          obtain ⟨cs, hcs, rfl⟩ := Option.map_eq_some_iff.mp hmerged
          cases hflat
          refine node obj members cs hget ((mapM_eq_some_iff.mp hcs).imp ?_)
          intro member c hc
          unfold contribution at hc
          split at hc
          · obtain ⟨o', ho', rfl⟩ := Option.map_eq_some_iff.mp hc
            exact .inl ⟨_, o', ‹_›, ih ho', rfl⟩
          · cases hc
            exact .inr ⟨fun o ho => by simp_all, rfl⟩
        · rename_i other hother hget
          cases h
          exact restored obj other hget fun members hm => hother members hm
        · cases h
          exact plain _ ‹_›
      · cases h
        have hnone : ¬ obj.containsKey "allOf" = true := ‹_›
        exact plain obj (Option.not_isSome_iff_eq_none.mp hnone)

end TurboMcp.Codegen
