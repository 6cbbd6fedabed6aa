import TurboMcp.Codegen.Walks

/-!
# Flattening

A flattened node is to have the properties and required names of all its members,
references followed.  It has those that no list of its own covers up, and each
property as the last member that names it has it; and the recursion comes to an end
when the references unfold to something finite.
-/

namespace TurboMcp.Codegen

open TurboMcp.Core TurboMcp.Lib

/-! ## The property, and its condition -/

section

variable (defs : Value)

/-- What is to be flattened below a value, in the document or through a member. -/
inductive Below : Value → Value → Prop
  | item {c items} : c ∈ items → Below c (.array items)
  | entry {m : Map} {key c} : m.get key = some c →
      (key = "allOf" → ∀ members, c ≠ .array members) → Below c (.object m)
  | given {m : Map} {members kind e} : m.get "allOf" = some (.array members) →
      Provides defs kind m e → Below e.2 (.object m)
  | inForce {m : Map} {members kind a} : m.get "allOf" = some (.array members) →
      InForce defs kind a m → Below a (.object m)

/-- A value met in flattening the schema. -/
def Met (schema v : Value) : Prop := Relation.ReflTransGen (fun v c => Below defs c v) schema v

/-- A node, what it is flattened to, and what becomes of that: the lists are the unions,
with each entry flattened in its turn, and the node's own keywords are kept. -/
structure Union (node flat out : Map) : Prop where
  lists : ∀ kind e, e ∈ kind.entries flat ↔ Provides defs kind node e
  given : ∀ kind e, Provides defs kind node e →
    ∃ w, Settles (walk defs) e.2 w ∧ (e.1, w) ∈ kind.entries out
  only : ∀ kind, ∀ e' ∈ kind.entries out, ∃ e, Provides defs kind node e ∧ e.1 = e'.1 ∧
    Settles (walk defs) e.2 e'.2
  kept : ∀ key v, key ≠ "allOf" → node.get key = some v →
    flat.get key = some v ∧ ∃ w, Settles (walk defs) v w ∧ out.get key = some w

/-- The flattening of a schema comes to an end, leaves no `allOf`, and each node becomes
the union of its members. -/
structure Flattens (schema : Value) : Prop where
  terminates : ∃ fuel out, flattenAllOf fuel schema = some out ∧ Clean out
  nodes : ∀ (node : Map) members, Met (definitions schema) schema (.object node) →
    node.get "allOf" = some (.array members) →
    ∃ flat out, Settles (flattenNode (definitions schema)) node flat ∧
      Settles (walk (definitions schema)) (.object node) (.object out) ∧
      Union (definitions schema) node flat out

/-- The members of a node unfold to a finite tree; they agree on each property; nothing of
theirs is covered up; and none has a list for a property called `allOf`. -/
structure Whole (node : Map) : Prop where
  folds : Folds defs node
  agree : ∀ e e', Provides defs .properties node e → Provides defs .properties node e' →
    e.1 = e'.1 → e = e'
  shown : ∀ kind e, Provides defs kind node e → Shown defs kind e node
  named : ∀ e, Provides defs .properties node e → e.1 = "allOf" → ∀ members, e.2 ≠ .array members

/-- The references unfold to something finite, and every node is whole. -/
structure Unfolds (schema : Value) : Prop where
  founded : Acc (Below (definitions schema)) schema
  nodes : ∀ (node : Map) members, Met (definitions schema) schema (.object node) →
    node.get "allOf" = some (.array members) → Whole (definitions schema) node

end

/-! ## Keys stand once -/

section

variable {defs : Value}

theorem keyed_get {v w : Value} (h : v.Keyed) {key : String} (hget : v.get key = some w) :
    w.Keyed := by
  rcases v with _ | _ | _ | _ | _ | _ | m
  iterate 6 cases hget
  · exact h.entry (Entries.mem_of_get hget)

theorem nodup_propsOf {m : Map} (h : (Value.object m).Keyed) : (propsOf m).keys.Nodup := by
  unfold propsOf
  split
  · rename_i props hget
    exact (h.entry (Entries.mem_of_get hget)).keys
  · exact List.nodup_nil

theorem keyed_entries {kind : Listed} {m : Map} (h : (Value.object m).Keyed)
    {e : String × Value} (he : e ∈ kind.entries m) : e.2.Keyed := by
  rcases kind
  · have he : e ∈ propsOf m := he
    unfold propsOf at he
    split at he
    · rename_i props hget
      exact (h.entry (Entries.mem_of_get hget)).entry he
    · cases he
  · obtain ⟨v, hv, rfl⟩ := List.mem_map.mp he
    unfold requiredOf at hv
    split at hv
    · rename_i required hget
      exact (h.entry (Entries.mem_of_get hget)).part hv
    · cases hv

theorem keyed_gives {kind : Listed} {e : String × Value} {v : Value} (hdefs : defs.Keyed)
    (h : Gives defs kind e v) (hv : v.Keyed) : e.2.Keyed := by
  induction h with
  | own he => exact keyed_entries hv he
  | @member m members member hmembers hmember _ ih =>
      have hlist : (Value.array members).Keyed := hv.entry (Entries.mem_of_get hmembers)
      exact ih (hlist.part hmember)
  | reference _ hresolve _ ih => exact ih (keyed_get hdefs hresolve)

theorem keyed_provides {kind : Listed} {e : String × Value} {m : Map} (hdefs : defs.Keyed)
    (h : Provides defs kind m e) (hm : (Value.object m).Keyed) : e.2.Keyed := by
  rcases h with he | ⟨members, member, hmembers, hmember, hgives⟩
  · exact keyed_entries hm he
  · have hlist : (Value.array members).Keyed := hm.entry (Entries.mem_of_get hmembers)
    exact keyed_gives hdefs hgives (hlist.part hmember)

theorem keyed_target {member : Value} (hdefs : defs.Keyed) (h : member.Keyed) :
    (target defs member).Keyed := by
  unfold target
  split
  · rename_i reference _
    rcases hresolve : resolve defs reference with _ | v
    · exact h
    · exact keyed_get hdefs hresolve
  · exact h

theorem keyed_inForce {kind : Single} {a : Value} {m : Map} (hdefs : defs.Keyed)
    (h : InForce defs kind a m) (hm : (Value.object m).Keyed) : a.Keyed := by
  induction h with
  | own hget => exact hm.entry (Entries.mem_of_get hget)
  | @member m obj members before member after _ hmembers horder _ htarget _ ih =>
      have hmem : member ∈ members := by
        rw [← kind.mem_order, horder]
        exact List.mem_append_right _ List.mem_cons_self
      have hlist : (Value.array members).Keyed := hm.entry (Entries.mem_of_get hmembers)
      exact ih (htarget ▸ keyed_target hdefs (hlist.part hmem))

theorem keyed_below {c v : Value} (hdefs : defs.Keyed) (h : Below defs c v) (hv : v.Keyed) :
    c.Keyed := by
  rcases h with hmem | ⟨hget, -⟩ | ⟨-, hprovides⟩ | ⟨-, hforce⟩
  · exact hv.part hmem
  · exact hv.entry (Entries.mem_of_get hget)
  · exact keyed_provides hdefs hprovides hv
  · exact keyed_inForce hdefs hforce hv

theorem keyed_met {schema v : Value} (hdefs : defs.Keyed) (hschema : schema.Keyed)
    (h : Met defs schema v) : v.Keyed := by
  induction h with
  | refl => exact hschema
  | tail _ hbelow ih => exact keyed_below hdefs hbelow ih

theorem keyed_definitions {schema : Value} (h : schema.Keyed) : (definitions schema).Keyed := by
  unfold definitions
  rcases hdefs : schema.get "$defs" with _ | d
  · rcases hold : schema.get "definitions" with _ | d
    · intro m hm
      rcases meets_iff.mp hm with hnull | ⟨c, ⟨⟩, -⟩
      cases hnull
    · exact keyed_get h hold
  · exact keyed_get h hdefs

/-! ## From the condition to the property -/

theorem settles_flattenNode {fuel : Nat} {node flat : Map} {members : List Value}
    (hmembers : node.get "allOf" = some (.array members))
    (h : flattenedBy (flattenNode defs fuel) node = some flat) :
    Settles (flattenNode defs) node flat := by
  rw [flattenedBy_some hmembers] at h
  exact ⟨fuel, h⟩

/-- What a node takes over from its members stands under a merged keyword, of its shape. -/
theorem merged_of_flattened {fuel : Nat} {obj flat : Map}
    (h : flattenedBy (flattenNode defs fuel) obj = some flat) {key : String} {v : Value}
    (hnone : obj.get key = none) (hget : flat.get key = some v) :
    key ∈ mergedKeys ∧ (key = "properties" → ∃ props, v = .object props) ∧
      (key = "required" → ∃ required, v = .array required) := by
  revert hnone hget
  refine flattened_induction (Q := fun obj flat => obj.get key = none → flat.get key = some v →
    key ∈ mergedKeys ∧ (key = "properties" → ∃ props, v = .object props) ∧
      (key = "required" → ∃ required, v = .array required)) ?_ ?_ ?_ h
  · intro obj _ hnone hget
    cases hnone.symm.trans hget
  · intro obj other hother _ hnone hget
    have hkey : key ≠ "allOf" := by
      rintro rfl
      cases hnone.symm.trans hother
    rw [get_restored obj other hkey, hnone] at hget
    cases hget
  · intro obj members cs hmembers _ hnone hget
    have hkey : key ≠ "allOf" := by
      rintro rfl
      cases hnone.symm.trans hmembers
    rw [get_node obj _ hkey, hnone, Option.none_or] at hget
    have hmerged := (takesAll_merge cs).merged
    refine ⟨?_, ?_, ?_⟩
    · by_contra hother
      rw [hmerged.other key hother] at hget
      cases hget
    · rintro rfl
      obtain ⟨props, hprops, -⟩ := hmerged.properties v hget
      exact ⟨props, hprops⟩
    · rintro rfl
      exact hmerged.required v hget

/-- The lists of a whole node are the unions. -/
theorem lists_of_whole {fuel : Nat} {node flat : Map} (hwhole : Whole defs node)
    (h : flattenedBy (flattenNode defs fuel) node = some flat) (kind : Listed)
    (e : String × Value) : e ∈ kind.entries flat ↔ Provides defs kind node e := by
  constructor
  · intro he
    exact provides_of_shown (shown_of_flattened h he)
  · intro he
    have hstays := stays_of_shown h (hwhole.shown kind e he)
    rcases kind
    · obtain ⟨e', he', hname⟩ := hstays
      have hsame : e' = e :=
        hwhole.agree e' e (provides_of_shown (shown_of_flattened h he')) he hname
      exact hsame ▸ he'
    · exact hstays

/-- No property called `allOf` has a list for its schema. -/
theorem not_named_of_whole {fuel : Nat} {node flat : Map} (hwhole : Whole defs node)
    (h : flattenedBy (flattenNode defs fuel) node = some flat) (members : List Value) :
    ("allOf", .array members) ∉ propsOf flat := by
  intro hmem
  have hprovides := (lists_of_whole hwhole h .properties _).mp hmem
  exact hwhole.named _ hprovides rfl members rfl

/-- Every entry of a flattened node comes to an end, if what stands below the node does. -/
theorem exists_settles_entry {fuel : Nat} {node flat : Map} {members : List Value}
    (hkeyed : (Value.object node).Keyed) (hmembers : node.get "allOf" = some (.array members))
    (hwhole : Whole defs node) (h : flattenedBy (flattenNode defs fuel) node = some flat)
    (hbelow : ∀ c, Below defs c (.object node) → ∃ w, Settles (walk defs) c w)
    {e : String × Value} (he : e ∈ flat) : ∃ w, Settles (walk defs) e.2 w := by
  obtain ⟨key, v⟩ := e
  have hnodup := nodup_of_flattened h hkeyed.keys
  have hget : flat.get key = some v := (mem_iff_get hnodup).mp he
  rcases hown : node.get key with _ | v'
  · obtain ⟨hkey, hobject, harray⟩ := merged_of_flattened h hown hget
    simp only [mergedKeys, List.mem_cons, List.not_mem_nil, or_false] at hkey
    rcases hkey with rfl | rfl | rfl | rfl
    · obtain ⟨props, rfl⟩ := hobject rfl
      have hprops : propsOf flat = props := propsOf_eq hget
      have hempty : Listed.properties.entries node = [] := Listed.entries_of_none hown
      have hnodupProps : (propsOf flat).keys.Nodup := by
        apply nodup_props_of_flattened h
        show (Map.keys (Listed.properties.entries node)).Nodup
        rw [hempty]
        exact List.nodup_nil
      rw [hprops] at hnodupProps
      obtain ⟨out, hout⟩ : ∃ out, Settles (walk defs) (.object props) (.object out) := by
        refine exists_settles_plain hnodupProps ?_ ?_
        · intro members' hmembers'
          refine not_named_of_whole hwhole h members' ?_
          rw [hprops]
          exact Entries.mem_of_get hmembers'
        · intro e he
          apply hbelow
          refine .given hmembers ((lists_of_whole hwhole h .properties e).mp ?_)
          show e ∈ propsOf flat
          rwa [hprops]
      exact ⟨_, hout⟩
    · obtain ⟨required, rfl⟩ := harray rfl
      have hrequired : requiredOf flat = required := requiredOf_eq hget
      have hitems : ∀ v ∈ required, ∃ w, Settles (walk defs) v w := by
        intro v hv
        apply hbelow
        have hentry : ("", v) ∈ Listed.required.entries flat :=
          List.mem_map.mpr ⟨v, hrequired ▸ hv, rfl⟩
        exact .given hmembers ((lists_of_whole hwhole h .required ("", v)).mp hentry)
      obtain ⟨items', hitems'⟩ := exists_forall₂ hitems
      exact ⟨_, settles_array_iff.mpr ⟨items', hitems', rfl⟩⟩
    · have hsettled := settled_of_flattened h .type
      unfold Settled at hsettled
      rw [show flat.get Single.type.key = some v from hget] at hsettled
      exact hbelow _ (.inForce hmembers hsettled)
    · have hsettled := settled_of_flattened h .additional
      unfold Settled at hsettled
      rw [show flat.get Single.additional.key = some v from hget] at hsettled
      exact hbelow _ (.inForce hmembers hsettled)
  · have hkey : key ≠ "allOf" := by
      rintro rfl
      cases (get_allOf_of_node h hmembers).symm.trans hget
    have hsame : v' = v := Option.some.inj ((kept_of_flattened h hkey hown).symm.trans hget)
    subst hsame
    exact hbelow _ (.entry hown fun heq => absurd heq hkey)

/-- **The flattening comes to an end** where references unfold to something finite. -/
theorem exists_settles {schema v : Value} (hkeyed : v.Keyed) (hdefs : defs.Keyed)
    (hmet : Met defs schema v) (hfounded : Acc (Below defs) v)
    (hwhole : ∀ (node : Map) members, Met defs schema (.object node) →
      node.get "allOf" = some (.array members) → Whole defs node) :
    ∃ out, Settles (walk defs) v out := by
  induction hfounded with
  | intro v _ ih =>
      have hbelow : ∀ c, Below defs c v → ∃ w, Settles (walk defs) c w := by
        intro c hc
        exact ih c hc (keyed_below hdefs hc hkeyed) (hmet.tail hc)
      by_cases harray : ∃ items, v = .array items
      · obtain ⟨items, rfl⟩ := harray
        obtain ⟨items', hitems⟩ := exists_forall₂ fun c hc => hbelow c (.item hc)
        exact ⟨_, settles_array_iff.mpr ⟨items', hitems, rfl⟩⟩
      · by_cases hobject : ∃ m, v = .object m
        · obtain ⟨m, rfl⟩ := hobject
          by_cases hnode : ∃ members, Map.get m "allOf" = some (.array members)
          · obtain ⟨members, hmembers⟩ := hnode
            have hm := hwhole m members hmet hmembers
            obtain ⟨fuel, flat, hflat⟩ := exists_flattened hm.folds
            obtain ⟨out, hout⟩ := exists_settles_object hflat fun e he =>
              exists_settles_entry hkeyed hmembers hm hflat hbelow he
            exact ⟨_, hout⟩
          · have hplain : ∀ members, Map.get m "allOf" ≠ some (.array members) :=
              fun members h => hnode ⟨members, h⟩
            obtain ⟨out, hout⟩ := exists_settles_plain hkeyed.keys hplain fun e he => by
              have hget := (mem_iff_get hkeyed.keys).mp he
              refine hbelow _ (.entry hget ?_)
              rintro hkey members heq
              rw [hkey, heq] at hget
              exact hplain members hget
            exact ⟨_, hout⟩
        · have hscalar : Settles (walk defs) v v :=
            (settles_scalar_iff (fun items h => harray ⟨items, h⟩)
              fun m h => hobject ⟨m, h⟩).mpr rfl
          exact ⟨v, hscalar⟩

/-- **A whole node becomes the union** of its members. -/
theorem union_of_whole {node out : Map} {members : List Value}
    (hkeyed : (Value.object node).Keyed) (hmembers : node.get "allOf" = some (.array members))
    (hwhole : Whole defs node) (h : Settles (walk defs) (.object node) (.object out)) :
    ∃ flat, Settles (flattenNode defs) node flat ∧ Union defs node flat out := by
  obtain ⟨flat, _, ⟨fuel, hflat⟩, hentries, hout⟩ := settles_object_iff.mp h
  cases hout
  have hlists := lists_of_whole hwhole hflat
  have hprops : (propsOf flat).keys.Nodup :=
    nodup_props_of_flattened hflat (nodup_propsOf hkeyed)
  have hwalked := entries_of_walked hentries hprops (not_named_of_whole hwhole hflat)
  refine ⟨flat, settles_flattenNode hmembers hflat, hlists, ?_, ?_, ?_⟩
  · intro kind e he
    exact (hwalked kind).1 e ((hlists kind e).mpr he)
  · intro kind e' he'
    obtain ⟨e, he, hkey, hw⟩ := (hwalked kind).2 e' he'
    exact ⟨e, (hlists kind e).mp he, hkey, hw⟩
  · intro key v hkey hget
    have hkept := kept_of_flattened hflat hkey hget
    obtain ⟨w, hw, hsettles⟩ := get_of_walked hentries hkept
    exact ⟨hkept, w, hsettles, hw⟩

/-! ## From the property to the condition -/

/-- A node that becomes the union of its members is whole. -/
theorem whole_of_union {node flat out : Map} {members : List Value}
    (hkeyed : (Value.object node).Keyed) (hmembers : node.get "allOf" = some (.array members))
    (hflat : Settles (flattenNode defs) node flat)
    (hout : Settles (walk defs) (.object node) (.object out)) (h : Union defs node flat out) :
    Whole defs node := by
  obtain ⟨fuel, hflat⟩ := hflat
  have hflat : flattenedBy (flattenNode defs fuel) node = some flat := by
    rwa [flattenedBy_some hmembers]
  have hprops : (propsOf flat).keys.Nodup :=
    nodup_props_of_flattened hflat (nodup_propsOf hkeyed)
  refine ⟨folds_of_flattened hflat, ?_, ?_, ?_⟩
  · intro e e' he he' hname
    have hmem : e ∈ propsOf flat := (h.lists .properties e).mpr he
    have hmem' : e' ∈ propsOf flat := (h.lists .properties e').mpr he'
    rw [mem_iff_get hprops] at hmem hmem'
    rw [hname] at hmem
    exact Prod.ext hname (Option.some.inj (hmem.symm.trans hmem'))
  · intro kind e he
    exact shown_of_flattened hflat ((h.lists kind e).mpr he)
  · intro e he hname members' hshape
    obtain ⟨w, hw, hmem⟩ := h.given .properties e he
    rw [hshape] at hw
    obtain ⟨items', -, rfl⟩ := settles_array_iff.mp hw
    rw [hname] at hmem
    have hmem : ("allOf", Value.array items') ∈ propsOf out := hmem
    unfold propsOf at hmem
    split at hmem
    · rename_i props hget
      have hinside : Meets Value.parts (.object out) (.object props) :=
        .head (List.mem_map.mpr ⟨_, Entries.mem_of_get hget, rfl⟩) (.refl _)
      exact clean_of_settles hout props hinside items' hmem
    · cases hmem

theorem sizeOf_entries {kind : Listed} {m : Map} {e : String × Value} (h : e ∈ kind.entries m) :
    sizeOf e.2 < sizeOf (Value.object m) := by
  rcases kind
  · have h : e ∈ propsOf m := h
    unfold propsOf at h
    split at h
    · rename_i props hget
      exact Nat.lt_trans (Value.sizeOf_entry h) (Value.sizeOf_entry (Entries.mem_of_get hget))
    · cases h
  · obtain ⟨v, hv, rfl⟩ := List.mem_map.mp h
    unfold requiredOf at hv
    split at hv
    · rename_i required hget
      have hpart : sizeOf v < sizeOf (Value.array required) := Value.sizeOf_part hv
      exact Nat.lt_trans hpart (Value.sizeOf_entry (Entries.mem_of_get hget))
    · cases hv

/-- **A step down** in the document is a step down in the result. -/
theorem settles_below {v c out : Value} (hv : Settles (walk defs) v out)
    (hunion : ∀ (node : Map) members, v = .object node →
      node.get "allOf" = some (.array members) →
      ∃ flat out', Settles (walk defs) (.object node) (.object out') ∧ Union defs node flat out')
    (h : Below defs c v) : ∃ w, Settles (walk defs) c w ∧ sizeOf w < sizeOf out := by
  rcases h with hmem | @⟨m, key, _, hget, hshape⟩ | @⟨m, members, kind, e, hmembers, hprovides⟩ |
    @⟨m, members, kind, _, hmembers, hforce⟩
  · obtain ⟨items', hitems, rfl⟩ := settles_array_iff.mp hv
    obtain ⟨w, hw, hsettles⟩ := forall₂_mem_left hitems hmem
    exact ⟨w, hsettles, Value.sizeOf_part hw⟩
  · obtain ⟨flat, entries, ⟨fuel, hflat⟩, hentries, rfl⟩ := settles_object_iff.mp hv
    have hstays : flat.get key = some c := by
      by_cases hnode : ∃ members, m.get "allOf" = some (.array members)
      · obtain ⟨members, hmembers⟩ := hnode
        refine kept_of_flattened hflat ?_ hget
        rintro rfl
        cases hmembers.symm.trans hget
        exact hshape rfl members rfl
      · rw [get_of_plain hflat fun members h => hnode ⟨members, h⟩]
        exact hget
    obtain ⟨w, hw, hsettles⟩ := get_of_walked hentries hstays
    exact ⟨w, hsettles, Value.sizeOf_entry (Entries.mem_of_get hw)⟩
  · obtain ⟨flat, out', hout', h⟩ := hunion m members rfl hmembers
    obtain rfl := hv.unique lasting_walk hout'
    obtain ⟨w, hw, hmem⟩ := h.given kind e hprovides
    exact ⟨w, hw, sizeOf_entries hmem⟩
  · obtain ⟨flat, entries, ⟨fuel, hflat⟩, hentries, rfl⟩ := settles_object_iff.mp hv
    have hsettled := settled_of_flattened hflat kind
    unfold Settled at hsettled
    split at hsettled
    · rename_i a hget
      obtain rfl := inForce_unique hsettled hforce
      obtain ⟨w, hw, hsettles⟩ := get_of_walked hentries hget
      exact ⟨w, hsettles, Value.sizeOf_entry (Entries.mem_of_get hw)⟩
    · exact absurd hsettled (inForce_lacks hforce)

/-- Where all nodes become unions, the references unfold to something finite: what becomes
of a value contains what becomes of all below it. -/
theorem acc_of_settles {schema v out : Value} (hmet : Met defs schema v)
    (hunion : ∀ (node : Map) members, Met defs schema (.object node) →
      node.get "allOf" = some (.array members) →
      ∃ flat out', Settles (walk defs) (.object node) (.object out') ∧ Union defs node flat out')
    (h : Settles (walk defs) v out) : Acc (Below defs) v := by
  induction hn : sizeOf out using Nat.strongRecOn generalizing v out with
  | ind n ih =>
      refine .intro v ?_
      intro c hc
      obtain ⟨w, hw, hsize⟩ := settles_below h
        (fun node members hv hmembers => hunion node members (hv ▸ hmet) hmembers) hc
      exact ih (sizeOf w) (hn ▸ hsize) (hmet.tail hc) hw rfl

end

/-- **Flattening** comes to an end and keeps the unions exactly on the schemas whose
references unfold to something finite, with nothing covered up and no two accounts of one
property in any node. -/
theorem flattens_iff {schema : Value} (hkeyed : schema.Keyed) :
    Flattens schema ↔ Unfolds schema := by
  have hdefs := keyed_definitions hkeyed
  constructor
  · rintro ⟨⟨fuel, out, hout, -⟩, hnodes⟩
    refine ⟨acc_of_settles .refl ?_ ⟨fuel, hout⟩, ?_⟩
    · intro node members hmet hmembers
      obtain ⟨flat, out', -, hout', hunion⟩ := hnodes node members hmet hmembers
      exact ⟨flat, out', hout', hunion⟩
    · intro node members hmet hmembers
      obtain ⟨flat, out', hflat, hout', hunion⟩ := hnodes node members hmet hmembers
      exact whole_of_union (keyed_met hdefs hkeyed hmet) hmembers hflat hout' hunion
  · rintro ⟨hfounded, hnodes⟩
    have hall : ∀ v, Met (definitions schema) schema v →
        ∃ out, Settles (walk (definitions schema)) v out := by
      intro v hmet
      refine exists_settles (keyed_met hdefs hkeyed hmet) hdefs hmet ?_ hnodes
      clear hnodes
      induction hmet with
      | refl => exact hfounded
      | tail _ hbelow ih => exact ih.inv hbelow
    constructor
    · obtain ⟨out, fuel, hout⟩ := hall schema .refl
      exact ⟨fuel, out, hout, clean_of_settles ⟨fuel, hout⟩⟩
    · intro node members hmet hmembers
      obtain ⟨out, hout⟩ := hall _ hmet
      obtain ⟨_, entries, -, -, rfl⟩ := settles_object_iff.mp hout
      obtain ⟨flat, hflat, hunion⟩ := union_of_whole (keyed_met hdefs hkeyed hmet) hmembers
        (hnodes node members hmet hmembers) hout
      exact ⟨flat, entries, hflat, hout, hunion⟩

/-! ## A pair, a circle, and a node with properties of its own -/

theorem below_plain {defs c : Value} {m : Map} (hplain : m.get "allOf" = none)
    (h : Below defs c (.object m)) : ∃ key, (key, c) ∈ m := by
  rcases h with _ | ⟨hget, -⟩ | ⟨hmembers, -⟩ | ⟨hmembers, -⟩
  · exact ⟨_, Entries.mem_of_get hget⟩
  · cases hplain.symm.trans hmembers
  · cases hplain.symm.trans hmembers

theorem acc_below_plain {defs : Value} {m : Map} (hplain : m.get "allOf" = none)
    (h : ∀ e ∈ m, Acc (Below defs) e.2) : Acc (Below defs) (.object m) := by
  refine .intro _ fun c hc => ?_
  obtain ⟨key, hkey⟩ := below_plain hplain hc
  exact h _ hkey

theorem acc_below_leaf {defs v : Value} (h : ∀ c, ¬ Below defs c v) : Acc (Below defs) v :=
  .intro v fun c hc => absurd hc (h c)

def memberOf (name : String) : Map := [("properties", .object [(name, .bool true)])]

/-- The one definition of the pair's schema. -/
def pairDefs : Map := [("B", .object (memberOf "b"))]

/-- A member with a property, and one that stands in the definitions. -/
def pairMembers : List Value :=
  [.object (memberOf "a"), .object [("$ref", .string "#/$defs/B")]]

def pair : Map :=
  [("description", .string "a pair"), ("allOf", .array pairMembers), ("$defs", .object pairDefs)]

theorem keyed_pair : (Value.object pair).Keyed :=
  Value.keyed_of_closed [.object pair, .string "a pair", .array pairMembers,
    .object (memberOf "a"), .object [("a", .bool true)], .bool true,
    .object [("$ref", .string "#/$defs/B")], .string "#/$defs/B", .object pairDefs,
    .object (memberOf "b"), .object [("b", .bool true)]] (by decide) (by decide) (by decide)

theorem target_pair {member : Value} (h : member ∈ pairMembers) :
    ∃ name, target (.object pairDefs) member = .object (memberOf name) := by
  rcases List.mem_cons.mp h with rfl | h
  · exact ⟨"a", rfl⟩
  · rw [List.mem_singleton] at h
    subst h
    exact ⟨"b", by decide⟩

theorem gives_memberOf {defs : Value} {kind : Listed} {e : String × Value} {name : String}
    (h : Gives defs kind e (.object (memberOf name))) :
    kind = .properties ∧ e = (name, .bool true) := by
  rcases h with he | ⟨hmembers, -, -⟩ | ⟨hreference, -, -⟩
  · rcases kind
    · exact ⟨rfl, List.mem_singleton.mp he⟩
    · cases he
  · cases hmembers
  · cases hreference

/-- The pair is given a property by its member, and one by the definition. -/
theorem provides_pair {kind : Listed} {e : String × Value}
    (h : Provides (.object pairDefs) kind pair e) :
    kind = .properties ∧ (e = ("a", .bool true) ∨ e = ("b", .bool true)) := by
  rcases h with he | ⟨members, member, hmembers, hmember, hgives⟩
  · rcases kind <;> cases he
  · cases hmembers
    rcases List.mem_cons.mp hmember with rfl | hother
    · obtain ⟨hkind, he⟩ := gives_memberOf hgives
      exact ⟨hkind, .inl he⟩
    · rw [List.mem_singleton] at hother
      subst hother
      rcases hgives with hown | ⟨hmembers, -, -⟩ | ⟨hreference, hresolve, hgives⟩
      · rcases kind <;> cases hown
      · cases hmembers
      · cases hreference
        have hfound : resolve (.object pairDefs) "#/$defs/B" = some (.object (memberOf "b")) := by
          decide
        obtain rfl := Option.some.inj (hresolve.symm.trans hfound)
        obtain ⟨hkind, he⟩ := gives_memberOf hgives
        exact ⟨hkind, .inr he⟩

theorem whole_pair : Whole (.object pairDefs) pair := by
  refine ⟨.intro ?_, ?_, ?_, ?_⟩
  · intro members member obj hmembers hmember htarget
    cases hmembers
    obtain ⟨name, hname⟩ := target_pair hmember
    obtain rfl := Value.object.inj (htarget.symm.trans hname)
    exact .intro fun members' _ _ hmembers' => by cases hmembers'
  · intro e e' he he' hname
    obtain ⟨-, rfl | rfl⟩ := provides_pair he
    · obtain ⟨-, rfl | rfl⟩ := provides_pair he'
      · rfl
      · exact absurd hname (by decide)
    · obtain ⟨-, rfl | rfl⟩ := provides_pair he'
      · exact absurd hname (by decide)
      · rfl
  · intro kind e he
    obtain ⟨rfl, rfl | rfl⟩ := provides_pair he
    · exact .member rfl rfl List.mem_cons_self rfl (.own List.mem_cons_self)
    · have htarget : target (.object pairDefs) (.object [("$ref", .string "#/$defs/B")]) =
          .object (memberOf "b") := by decide
      exact .member rfl rfl (List.mem_cons_of_mem _ List.mem_cons_self) htarget
        (.own List.mem_cons_self)
  · intro e he _ members hshape
    obtain ⟨-, rfl | rfl⟩ := provides_pair he
    · cases hshape
    · cases hshape

theorem lacks_pair (kind : Single) : Lacks (.object pairDefs) kind pair := by
  refine .intro (by rcases kind <;> rfl) ?_
  intro members member obj hmembers hmember htarget
  cases hmembers
  obtain ⟨name, hname⟩ := target_pair hmember
  obtain rfl := Value.object.inj (htarget.symm.trans hname)
  refine .intro (by rcases kind <;> rfl) ?_
  intro members' _ _ hmembers'
  cases hmembers'

/-- Below the pair stand its description, its definitions and the schemas of its
properties. -/
theorem below_pair {c : Value} (h : Below (.object pairDefs) c (.object pair)) :
    c = .string "a pair" ∨ c = .object pairDefs ∨ c = .bool true := by
  rcases h with _ | @⟨_, key, _, hget, hshape⟩ | ⟨-, hprovides⟩ | ⟨-, hforce⟩
  · rcases List.mem_cons.mp (Entries.mem_of_get hget) with heq | hentry
    · cases heq
      exact .inl rfl
    · rcases List.mem_cons.mp hentry with heq | hentry
      · cases heq
        exact absurd rfl (hshape rfl _)
      · cases List.mem_singleton.mp hentry
        exact .inr (.inl rfl)
  · obtain ⟨-, rfl | rfl⟩ := provides_pair hprovides
    · exact .inr (.inr rfl)
    · exact .inr (.inr rfl)
  · exact absurd (lacks_pair _) (inForce_lacks hforce)

theorem acc_below_pair : Acc (Below (.object pairDefs)) (.object pair) := by
  have hbool : Acc (Below (.object pairDefs)) (.bool true) := acc_below_leaf nofun
  refine .intro _ fun c hc => ?_
  rcases below_pair hc with rfl | rfl | rfl
  · exact acc_below_leaf nofun
  · refine acc_below_plain rfl (List.forall_mem_singleton.mpr ?_)
    refine acc_below_plain rfl (List.forall_mem_singleton.mpr ?_)
    exact acc_below_plain rfl (List.forall_mem_singleton.mpr hbool)
  · exact hbool

/-- What is met of the pair's schema but itself. -/
def pairParts : List Value :=
  [.string "a pair", .object pairDefs, .object (memberOf "b"), .object [("b", .bool true)],
    .bool true]

theorem met_pair {v : Value} (h : Met (.object pairDefs) (.object pair) v) :
    v = .object pair ∨ v ∈ pairParts := by
  induction h with
  | refl => exact .inl rfl
  | tail _ hbelow ih =>
      refine .inr ?_
      simp only [pairParts, List.mem_cons, List.not_mem_nil, or_false] at ih ⊢
      rcases ih with rfl | rfl | rfl | rfl | rfl | rfl
      · rcases below_pair hbelow with h | h | h <;> simp [h]
      · cases hbelow
      · obtain ⟨key, hkey⟩ := below_plain rfl hbelow
        cases List.mem_singleton.mp hkey
        simp
      · obtain ⟨key, hkey⟩ := below_plain rfl hbelow
        cases List.mem_singleton.mp hkey
        simp
      · obtain ⟨key, hkey⟩ := below_plain rfl hbelow
        cases List.mem_singleton.mp hkey
        simp
      · cases hbelow

/-- The pair is flattened to the union of its member and the definition. -/
theorem pair_flattens : Flattens (.object pair) := by
  refine (flattens_iff keyed_pair).mpr ⟨acc_below_pair, ?_⟩
  intro node members hmet hmembers
  rcases met_pair hmet with h | h
  · cases h
    exact whole_pair
  · simp only [pairParts, List.mem_cons, List.not_mem_nil, or_false] at h
    rcases h with h | h | h | h | h
    · cases h
    · cases h
      cases hmembers
    · cases h
      cases hmembers
    · cases h
      cases hmembers
    · cases h

/-- A definition with itself for its only member. -/
def circle : Map := [("allOf", .array [.object [("$ref", .string "#/$defs/Circle")]])]

def circleSchema : Value := .object [("$defs", .object [("Circle", .object circle)])]

/-- A node with properties, and a member with another. -/
def covering : Map :=
  [("properties", .object [("a", .bool true)]), ("allOf", .array [.object (memberOf "b")])]

theorem not_folds_of_self {defs : Value} {m : Map} {members : List Value} {member : Value}
    (hmembers : m.get "allOf" = some (.array members)) (hmember : member ∈ members)
    (htarget : target defs member = .object m) : ¬ Folds defs m := by
  intro h
  induction h with
  | intro _ ih => exact ih members member _ hmembers hmember htarget hmembers htarget

theorem not_folds_circle : ¬ Folds (definitions circleSchema) circle :=
  not_folds_of_self rfl List.mem_cons_self (by decide)

/-- The circle is never flattened to the end, and the member's property is lost behind
those of the node. -/
theorem circle_and_covering : ¬ Flattens circleSchema ∧ ¬ Flattens (.object covering) := by
  constructor
  · rintro ⟨-, hnodes⟩
    have hdefs : Below (definitions circleSchema) (.object [("Circle", .object circle)])
        circleSchema :=
      @Below.entry _ _ "$defs" _ rfl fun hkey => absurd hkey (by decide)
    have hcircle : Below (definitions circleSchema) (.object circle)
        (.object [("Circle", .object circle)]) :=
      @Below.entry _ _ "Circle" _ rfl fun hkey => absurd hkey (by decide)
    obtain ⟨flat, _, ⟨fuel, hflat⟩, -, -⟩ := hnodes circle _ (.tail (.single hdefs) hcircle) rfl
    have hflat : flattenedBy (flattenNode (definitions circleSchema) fuel) circle = some flat := by
      rw [flattenedBy_some rfl]
      exact hflat
    exact not_folds_circle (folds_of_flattened hflat)
  · rintro ⟨-, hnodes⟩
    obtain ⟨flat, _, ⟨fuel, hflat⟩, -, hunion⟩ := hnodes covering _ .refl rfl
    have hprovides : Provides .null .properties covering ("b", .bool true) :=
      .inr ⟨_, _, rfl, List.mem_cons_self, .own List.mem_cons_self⟩
    have hmem := (hunion.lists .properties _).mpr hprovides
    have hflat : flattenedBy (flattenNode .null fuel) covering = some flat := by
      rw [flattenedBy_some rfl]
      exact hflat
    rcases shown_of_flattened hflat hmem with he | ⟨hnone, -⟩
    · exact absurd he (by decide)
    · cases hnone

end TurboMcp.Codegen
