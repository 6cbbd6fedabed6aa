import TurboMcp.Codegen.Normalize

/-!
# Members

What the members of a node give, references followed, and what gets from them into the
flattened node: the lists that no list of a node in between covers up, the last type
and the first `additionalProperties`.
-/

namespace TurboMcp.Codegen

open TurboMcp.Core TurboMcp.Lib

/-! ## What members give -/

/-- The keywords of which the union is taken. -/
inductive Listed
  | properties
  | required
  deriving DecidableEq

namespace Listed

def key : Listed → String
  | properties => "properties"
  | required => "required"

/-- The properties by their names; required names, which are their own. -/
def entries : Listed → Map → List (String × Value)
  | properties, m => propsOf m
  | required, m => (requiredOf m).map fun v => ("", v)

end Listed

/-- The keywords of which one is taken over: the last type, the first
`additionalProperties`. -/
inductive Single
  | type
  | additional

namespace Single

def key : Single → String
  | type => "type"
  | additional => "additionalProperties"

/-- The members in the order of precedence. -/
def order {α : Type*} : Single → List α → List α
  | type, members => members.reverse
  | additional, members => members

end Single

section

variable (defs : Value)

/-- A member gives what it lists, what its members give, and what it refers to. -/
inductive Gives (kind : Listed) (e : String × Value) : Value → Prop
  | own {m : Map} : e ∈ kind.entries m → Gives kind e (.object m)
  | member {m : Map} {members member} : m.get "allOf" = some (.array members) →
      member ∈ members → Gives kind e member → Gives kind e (.object m)
  | reference {m : Map} {reference v} : m.get "$ref" = some (.string reference) →
      resolve defs reference = some v → Gives kind e v → Gives kind e (.object m)

/-- The union for a node: its own entries, and all that its members give. -/
def Provides (kind : Listed) (node : Map) (e : String × Value) : Prop :=
  e ∈ kind.entries node ∨
    ∃ members member, node.get "allOf" = some (.array members) ∧ member ∈ members ∧
      Gives defs kind e member

/-- What the merge can see: nothing behind a node with a list of its own, and of a
reference what stands at its target. -/
inductive Shown (kind : Listed) (e : String × Value) : Map → Prop
  | own {m : Map} : e ∈ kind.entries m → Shown kind e m
  | member {m obj : Map} {members member} : m.get kind.key = none →
      m.get "allOf" = some (.array members) → member ∈ members →
      target defs member = .object obj → Shown kind e obj → Shown kind e m

/-- Neither the node nor a member has the keyword. -/
inductive Lacks (kind : Single) : Map → Prop
  | intro {m : Map} : m.get kind.key = none →
      (∀ members member obj, m.get "allOf" = some (.array members) → member ∈ members →
        target defs member = .object obj → Lacks kind obj) → Lacks kind m

/-- The value of a keyword that is taken over: the node's own, or that of the first member
in its order that has one. -/
inductive InForce (kind : Single) (a : Value) : Map → Prop
  | own {m : Map} : m.get kind.key = some a → InForce kind a m
  | member {m obj : Map} {members before member after} : m.get kind.key = none →
      m.get "allOf" = some (.array members) → kind.order members = before ++ member :: after →
      (∀ m' ∈ before, ∀ obj, target defs m' = .object obj → Lacks defs kind obj) →
      target defs member = .object obj → InForce kind a obj → InForce kind a m

/-- The members unfold to a finite tree. -/
inductive Folds : Map → Prop
  | intro {m : Map} :
      (∀ members member obj, m.get "allOf" = some (.array members) → member ∈ members →
        target defs member = .object obj → Folds obj) → Folds m

end

/-! ## The flattened node -/

section

variable {defs : Value}

theorem get_restored (m : Map) (other : Value) {key : String} (h : key ≠ "allOf") :
    ((remove m "allOf").insert "allOf" other).get key = m.get key := by
  rw [Map.get_insert, if_neg (Ne.symm h), get_remove, if_neg (Ne.symm h)]

/-- What stands under another keyword: the node's own, or what the members bring. -/
theorem get_node (m merged : Map) {key : String} (h : key ≠ "allOf") :
    (orInsertAll (remove m "allOf") merged).get key = (m.get key).or (merged.get key) := by
  rw [get_orInsertAll, get_remove, if_neg (Ne.symm h)]

theorem Listed.key_ne (kind : Listed) : kind.key ≠ "allOf" := by
  rcases kind <;> decide

theorem Single.key_ne (kind : Single) : kind.key ≠ "allOf" := by
  rcases kind <;> decide

theorem Listed.entries_congr {kind : Listed} {m m' : Map} (h : m.get kind.key = m'.get kind.key) :
    kind.entries m = kind.entries m' := by
  rcases kind
  · exact propsOf_congr h
  · show (requiredOf m).map _ = (requiredOf m').map _
    rw [requiredOf_congr h]

theorem Listed.entries_of_none {kind : Listed} {m : Map} (h : m.get kind.key = none) :
    kind.entries m = [] := by
  rcases kind
  · show propsOf m = []
    unfold propsOf
    rw [show m.get "properties" = none from h]
  · show (requiredOf m).map _ = []
    unfold requiredOf
    rw [show m.get "required" = none from h]
    rfl

/-- A list of the node's own stands. -/
theorem Listed.entries_of_own {kind : Listed} {m : Map} {v : Value} (h : m.get kind.key = some v)
    (merged : Map) : kind.entries (orInsertAll (remove m "allOf") merged) = kind.entries m := by
  apply Listed.entries_congr
  rw [get_node m merged kind.key_ne, h]
  rfl

/-- Where the node has no list, the merged one is taken. -/
theorem Listed.entries_of_merged {kind : Listed} {m : Map} (h : m.get kind.key = none)
    (merged : Map) :
    kind.entries (orInsertAll (remove m "allOf") merged) = kind.entries merged := by
  apply Listed.entries_congr
  rw [get_node m merged kind.key_ne, h]
  rfl

theorem Listed.entries_strip (kind : Listed) (m : Map) :
    kind.entries (strip m) = kind.entries m := by
  apply Listed.entries_congr
  rcases kind
  · exact get_strip m (by decide)
  · exact get_strip m (by decide)

/-- The node's own keywords stay. -/
theorem kept_of_flattened {fuel : Nat} {obj flat : Map}
    (h : flattenedBy (flattenNode defs fuel) obj = some flat) {key : String} {v : Value}
    (hkey : key ≠ "allOf") (hget : obj.get key = some v) : flat.get key = some v := by
  revert key v
  refine flattened_induction (Q := fun obj flat => ∀ {key : String} {v : Value}, key ≠ "allOf" →
    obj.get key = some v → flat.get key = some v) ?_ ?_ ?_ h
  · intro obj _ key v _ hget
    exact hget
  · intro obj other _ _ key v hkey hget
    rw [get_restored obj other hkey, hget]
  · intro obj members cs _ _ key v hkey hget
    rw [get_node obj _ hkey, hget]
    rfl

/-- What is in a list of the merge comes from some member. -/
theorem TakesAll.exists_entry {cs : List Map} {r : Map} (h : TakesAll cs r) {kind : Listed}
    {e : String × Value} (he : e ∈ kind.entries r) : ∃ c ∈ cs, e ∈ kind.entries c := by
  rcases kind
  · exact h.props e he
  · obtain ⟨v, hv, rfl⟩ := List.mem_map.mp he
    obtain ⟨c, hc, hv⟩ := (h.required v).mp hv
    exact ⟨c, hc, List.mem_map.mpr ⟨v, hv, rfl⟩⟩

/-- An entry of a list stays there, a property perhaps with another schema. -/
def Stays (kind : Listed) (e : String × Value) (l : List (String × Value)) : Prop :=
  match kind with
  | .properties => ∃ e' ∈ l, e'.1 = e.1
  | .required => e ∈ l

theorem stays_of_mem {kind : Listed} {e : String × Value} {l : List (String × Value)} (h : e ∈ l) :
    Stays kind e l := by
  rcases kind
  · exact ⟨e, h, rfl⟩
  · exact h

theorem TakesAll.stays {cs : List Map} {r : Map} (h : TakesAll cs r) {kind : Listed}
    {e : String × Value} {c : Map} (hc : c ∈ cs) (he : Stays kind e (kind.entries c)) :
    Stays kind e (kind.entries r) := by
  rcases kind
  · obtain ⟨e', he', hsame⟩ := he
    obtain ⟨e'', he'', hsame'⟩ := h.named c hc e' he'
    exact ⟨e'', he'', hsame'.trans hsame⟩
  · obtain ⟨v, hv, rfl⟩ := List.mem_map.mp he
    exact List.mem_map.mpr ⟨v, (h.required v).mpr ⟨c, hc, hv⟩, rfl⟩

/-- **Nothing but what is shown** gets into a list. -/
theorem shown_of_flattened {fuel : Nat} {obj flat : Map}
    (h : flattenedBy (flattenNode defs fuel) obj = some flat) {kind : Listed} {e : String × Value}
    (he : e ∈ kind.entries flat) : Shown defs kind e obj := by
  revert he
  refine flattened_induction (Q := fun obj flat => e ∈ kind.entries flat → Shown defs kind e obj)
    ?_ ?_ ?_ h
  · intro obj _ he
    exact .own he
  · intro obj other _ _ he
    rw [Listed.entries_congr (get_restored obj other kind.key_ne)] at he
    exact .own he
  · intro obj members cs hmembers hcs he
    rcases hown : obj.get kind.key with _ | v
    · -- no list of its own: the entry is in the merge, and so at some member
      rw [Listed.entries_of_merged hown] at he
      obtain ⟨c, hc, he⟩ := (takesAll_merge cs).exists_entry he
      obtain ⟨member, hmember, hcontributes⟩ := forall₂_mem_right hcs hc
      rcases hcontributes with ⟨o, flat, htarget, hflat, rfl⟩ | ⟨-, rfl⟩
      · rw [kind.entries_strip] at he
        exact .member hown hmembers hmember htarget (hflat he)
      · rw [Listed.entries_of_none rfl] at he
        cases he
    · rw [Listed.entries_of_own hown] at he
      exact .own he

/-- **Whatever is shown** stays in the list. -/
theorem stays_of_shown {fuel : Nat} {obj flat : Map}
    (h : flattenedBy (flattenNode defs fuel) obj = some flat) {kind : Listed} {e : String × Value}
    (he : Shown defs kind e obj) : Stays kind e (kind.entries flat) := by
  revert he
  refine flattened_induction
    (Q := fun obj flat => Shown defs kind e obj → Stays kind e (kind.entries flat)) ?_ ?_ ?_ h
  · rintro obj hnone (he | ⟨-, hmembers, -⟩)
    · exact stays_of_mem he
    · cases hnone.symm.trans hmembers
  · rintro obj other hother hshape (he | ⟨-, hmembers, -⟩)
    · rw [Listed.entries_congr (get_restored obj other kind.key_ne)]
      exact stays_of_mem he
    · cases hother.symm.trans hmembers
      exact absurd rfl (hshape _)
  · rintro obj members cs hmembers hcs (he | ⟨hnone, hmembers', hmember, htarget, hshown⟩)
    · rcases hown : obj.get kind.key with _ | v
      · rw [Listed.entries_of_none hown] at he
        cases he
      · rw [Listed.entries_of_own hown]
        exact stays_of_mem he
    · cases hmembers.symm.trans hmembers'
      obtain ⟨c, hc, hcontributes⟩ := forall₂_mem_left hcs hmember
      rw [Listed.entries_of_merged hnone]
      rcases hcontributes with ⟨o, flat, htarget', hflat, rfl⟩ | ⟨hother, -⟩
      · cases htarget.symm.trans htarget'
        refine (takesAll_merge cs).stays hc ?_
        rw [kind.entries_strip]
        exact hflat hshown
      · exact absurd htarget (hother _)

/-! ### The keywords taken over -/

theorem Single.mem_order {α : Type*} (kind : Single) {l : List α} {a : α} :
    a ∈ kind.order l ↔ a ∈ l := by
  rcases kind
  · exact List.mem_reverse
  · exact Iff.rfl

theorem inForce_lacks {kind : Single} {a : Value} {m : Map} (h : InForce defs kind a m) :
    ¬ Lacks defs kind m := by
  induction h with
  | own hget =>
      rintro ⟨hnone, -⟩
      cases hnone.symm.trans hget
  | @member m obj members before member after _ hmembers horder _ htarget _ ih =>
      rintro ⟨-, hlacks⟩
      have hmem : member ∈ members := by
        rw [← kind.mem_order, horder]
        exact List.mem_append_right _ List.mem_cons_self
      exact ih (hlacks members member obj hmembers hmem htarget)

theorem TakesAll.get_single {cs : List Map} {r : Map} (h : TakesAll cs r) (kind : Single) :
    r.get kind.key = (kind.order cs).findSome? (·.get kind.key) := by
  rcases kind
  · exact h.type
  · exact h.additional

theorem Single.get_strip (kind : Single) (m : Map) :
    (strip m).get kind.key = m.get kind.key := by
  rcases kind
  · exact Codegen.get_strip m (by decide)
  · exact Codegen.get_strip m (by decide)

theorem Single.forall₂_order {α β : Type*} {R : α → β → Prop} (kind : Single) {l : List α}
    {l' : List β} (h : List.Forall₂ R l l') : List.Forall₂ R (kind.order l) (kind.order l') := by
  rcases kind
  · exact List.rel_reverse h
  · exact h

/-- What the flattened node has for the keyword is in force, and else it is lacking. -/
def Settled (defs : Value) (kind : Single) (obj flat : Map) : Prop :=
  match flat.get kind.key with
  | some a => InForce defs kind a obj
  | none => Lacks defs kind obj

theorem settled_plain {kind : Single} {obj flat : Map} (hget : flat.get kind.key = obj.get kind.key)
    (hmembers : ∀ members, obj.get "allOf" ≠ some (.array members)) :
    Settled defs kind obj flat := by
  unfold Settled
  rw [hget]
  rcases hown : obj.get kind.key with _ | a
  · exact .intro hown fun members _ _ h => absurd h (hmembers members)
  · exact .own hown

theorem settled_of_flattened {fuel : Nat} {obj flat : Map}
    (h : flattenedBy (flattenNode defs fuel) obj = some flat) (kind : Single) :
    Settled defs kind obj flat := by
  refine flattened_induction (Q := fun obj flat => Settled defs kind obj flat) ?_ ?_ ?_ h
  · intro obj hnone
    exact settled_plain rfl fun members hget => by cases hnone.symm.trans hget
  · intro obj other hother hshape
    refine settled_plain (get_restored obj other kind.key_ne) ?_
    intro members hget
    cases hother.symm.trans hget
    exact hshape members rfl
  · intro obj members cs hmembers hcs
    have horder := kind.forall₂_order hcs
    have hlacks : ∀ m c, Contributes (Settled defs kind) defs m c → c.get kind.key = none →
        ∀ o, target defs m = .object o → Lacks defs kind o := by
      rintro m c (⟨o', flat, htarget', hsettled, rfl⟩ | ⟨hother, -⟩) hnone o htarget
      · cases htarget'.symm.trans htarget
        rw [kind.get_strip] at hnone
        unfold Settled at hsettled
        rwa [hnone] at hsettled
      · exact absurd htarget (hother o)
    unfold Settled
    rw [get_node obj _ kind.key_ne, (takesAll_merge cs).get_single kind]
    rcases hown : obj.get kind.key with _ | a
    · rw [Option.none_or]
      rcases hfirst : (kind.order cs).findSome? (·.get kind.key) with _ | a
      · rw [hfirst]
        refine Lacks.intro hown ?_
        intro members' member o hmembers' hmember htarget
        cases hmembers.symm.trans hmembers'
        obtain ⟨c, hc, hcontributes⟩ := forall₂_mem_left hcs hmember
        have hnone := List.findSome?_eq_none_iff.mp hfirst c (kind.mem_order.mpr hc)
        exact hlacks member c hcontributes hnone o htarget
      · obtain ⟨l₁, c, l₂, hsplit, hget, hnone⟩ := List.findSome?_eq_some_iff.mp hfirst
        rw [hsplit] at horder
        obtain ⟨before, member, after, hmembers', hbefore, hcontributes⟩ := forall₂_split horder
        rcases hcontributes with ⟨o, flat, htarget, hsettled, rfl⟩ | ⟨-, rfl⟩
        · rw [hfirst]
          refine InForce.member hown hmembers hmembers' ?_ htarget ?_
          · intro m' hm' o' htarget'
            obtain ⟨c', hc', hcontributes'⟩ := forall₂_mem_left hbefore hm'
            exact hlacks m' c' hcontributes' (hnone c' hc') o' htarget'
          · rw [kind.get_strip] at hget
            unfold Settled at hsettled
            rwa [hget] at hsettled
        · cases hget
    · exact .own hown

/-- At most one value is in force. -/
theorem inForce_unique {kind : Single} {a b : Value} {m : Map} (ha : InForce defs kind a m)
    (hb : InForce defs kind b m) : a = b := by
  induction ha with
  | own hget =>
      rcases hb with hget' | ⟨hnone, -⟩
      · exact Option.some.inj (hget.symm.trans hget')
      · cases hnone.symm.trans hget
  | @member m obj members before member after hnone hmembers horder hlacks htarget hforce ih =>
      rcases hb with hget | @⟨_, obj', members', before', member', after', -, hmembers', horder',
        hlacks', htarget', hforce'⟩
      · cases hnone.symm.trans hget
      · cases hmembers.symm.trans hmembers'
        -- of two members that come first, neither stands before the other
        rcases List.append_eq_append_iff.mp (horder.symm.trans horder') with
          ⟨between, hbefore, hafter⟩ | ⟨between, hbefore, hafter⟩
        · rcases between with _ | ⟨m', between⟩
          · cases hafter
            cases htarget.symm.trans htarget'
            exact ih hforce'
          · cases hafter
            refine absurd (hlacks' member ?_ obj htarget) (inForce_lacks hforce)
            rw [hbefore]
            exact List.mem_append_right _ List.mem_cons_self
        · rcases between with _ | ⟨m', between⟩
          · cases hafter
            cases htarget.symm.trans htarget'
            exact ih hforce'
          · cases hafter
            refine absurd (hlacks member' ?_ obj' htarget') (inForce_lacks hforce')
            rw [hbefore]
            exact List.mem_append_right _ List.mem_cons_self

/-! ### Nodes fold, and keep no list of members -/

theorem folds_of_flattened {fuel : Nat} {obj flat : Map}
    (h : flattenedBy (flattenNode defs fuel) obj = some flat) : Folds defs obj := by
  refine flattened_induction (Q := fun obj _ => Folds defs obj) ?_ ?_ ?_ h
  · intro obj hnone
    exact .intro fun members _ _ hget => by cases hnone.symm.trans hget
  · intro obj other hother hshape
    refine .intro ?_
    intro members _ _ hget
    cases hother.symm.trans hget
    exact absurd rfl (hshape members)
  · intro obj members cs hmembers hcs
    refine .intro ?_
    intro members' member o hmembers' hmember htarget
    cases hmembers.symm.trans hmembers'
    obtain ⟨c, -, hcontributes⟩ := forall₂_mem_left hcs hmember
    rcases hcontributes with ⟨o', flat, htarget', hfolds, -⟩ | ⟨hother, -⟩
    · cases htarget.symm.trans htarget'
      exact hfolds
    · exact absurd htarget (hother o)

theorem lasting_contribution :
    Lasting fun fuel member => contribution (flattenNode defs fuel) defs member := by
  intro fuel member c h
  show contribution (flattenNode defs (fuel + 1)) defs member = some c
  have h : contribution (flattenNode defs fuel) defs member = some c := h
  unfold contribution at h ⊢
  split at h
  · obtain ⟨flat, hflat, hc⟩ := Option.map_eq_some_iff.mp h
    rw [flattenedBy_imp (lasting_flattenNode fuel) hflat]
    exact congrArg some hc
  · exact h

theorem flattenedBy_none {f : Map → Option Map} {obj : Map} (h : obj.get "allOf" = none) :
    flattenedBy f obj = some obj := by
  unfold flattenedBy Map.containsKey
  rw [h, if_neg (by simp)]

theorem flattenedBy_some {f : Map → Option Map} {obj : Map} {v : Value}
    (h : obj.get "allOf" = some v) : flattenedBy f obj = f obj := by
  unfold flattenedBy Map.containsKey
  rw [h, if_pos (by simp)]

/-- Enough fuel for a finite tree of members. -/
theorem exists_flattened {obj : Map} (h : Folds defs obj) :
    ∃ fuel flat, flattenedBy (flattenNode defs fuel) obj = some flat := by
  induction h with
  | @intro obj _ ih =>
      rcases hget : obj.get "allOf" with _ | v
      · exact ⟨0, obj, flattenedBy_none hget⟩
      · by_cases hshape : ∃ members, v = .array members
        · obtain ⟨members, rfl⟩ := hshape
          have hcontributions : ∀ member ∈ members, ∃ c,
              Settles (fun fuel member => contribution (flattenNode defs fuel) defs member)
                member c := by
            intro member hmember
            by_cases htarget : ∃ o, target defs member = .object o
            · obtain ⟨o, htarget⟩ := htarget
              obtain ⟨fuel, flat, hflat⟩ := ih members member o hget hmember htarget
              refine ⟨strip flat, fuel, ?_⟩
              show contribution (flattenNode defs fuel) defs member = some (strip flat)
              unfold contribution
              rw [htarget]
              exact congrArg (Option.map strip) hflat
            · refine ⟨[], 0, ?_⟩
              show contribution (flattenNode defs 0) defs member = some []
              unfold contribution
              split
              · exact absurd ⟨_, ‹_›⟩ htarget
              · rfl
          obtain ⟨cs, hcs⟩ := exists_forall₂ hcontributions
          obtain ⟨fuel, hmapM⟩ := (settles_mapM_iff lasting_contribution).mpr hcs
          refine ⟨fuel + 1, ?_⟩
          rw [flattenedBy_some hget, flattenNode, hget]
          have hfold : members.foldlM (mergeMember (flattenNode defs fuel) defs) Map.empty =
              some (cs.foldl mergeObjectInto Map.empty) := by
            rw [foldlM_mergeMember]
            exact congrArg (Option.map _) hmapM
          exact ⟨_, Option.bind_eq_some_iff.mpr ⟨_, hfold, rfl⟩⟩
        · refine ⟨1, (remove obj "allOf").insert "allOf" v, ?_⟩
          rw [flattenedBy_some hget, flattenNode, hget]
          split
          · rename_i heq
            cases heq
            exact absurd ⟨_, rfl⟩ hshape
          · rename_i heq
            cases heq
            rfl
          · rename_i heq
            cases heq

theorem nodup_of_flattened {fuel : Nat} {obj flat : Map}
    (h : flattenedBy (flattenNode defs fuel) obj = some flat) (hnodup : obj.keys.Nodup) :
    flat.keys.Nodup := by
  revert hnodup
  refine flattened_induction (Q := fun obj flat => obj.keys.Nodup → flat.keys.Nodup) ?_ ?_ ?_ h
  · intro obj _ hnodup
    exact hnodup
  · intro obj other _ _ hnodup
    exact nodup_insert (nodup_remove hnodup "allOf") "allOf" other
  · intro obj members cs _ _ hnodup
    exact nodup_orInsertAll (nodup_remove hnodup "allOf")

theorem nodup_props_of_flattened {fuel : Nat} {obj flat : Map}
    (h : flattenedBy (flattenNode defs fuel) obj = some flat)
    (hnodup : (propsOf obj).keys.Nodup) : (propsOf flat).keys.Nodup := by
  revert hnodup
  refine flattened_induction
    (Q := fun obj flat => (propsOf obj).keys.Nodup → (propsOf flat).keys.Nodup) ?_ ?_ ?_ h
  · intro obj _ hnodup
    exact hnodup
  · intro obj other _ _ hnodup
    rwa [propsOf_congr (get_restored obj other (by decide))]
  · intro obj members cs _ _ hnodup
    rcases hown : obj.get "properties" with _ | v
    · show (Map.keys (Listed.properties.entries (orInsertAll _ _))).Nodup
      rw [Listed.entries_of_merged hown]
      show (propsOf (cs.foldl mergeObjectInto Map.empty)).keys.Nodup
      rcases hget : (cs.foldl mergeObjectInto Map.empty).get "properties" with _ | v
      · show (Map.keys (Listed.properties.entries (cs.foldl mergeObjectInto Map.empty))).Nodup
        rw [Listed.entries_of_none hget]
        exact List.nodup_nil
      · obtain ⟨props, rfl, hprops⟩ := (takesAll_merge cs).merged.properties v hget
        rwa [propsOf_eq hget]
    · show (Map.keys (Listed.properties.entries (orInsertAll _ _))).Nodup
      rw [Listed.entries_of_own hown]
      exact hnodup

theorem not_mem_of_get_none {m : Map} {key : String} (h : m.get key = none) (v : Value) :
    (key, v) ∉ m := by
  intro hmem
  have hkey : key ∈ m.map Prod.fst := List.mem_map.mpr ⟨_, hmem, rfl⟩
  rw [← Entries.get_isSome_iff] at hkey
  have hnone : Entries.get m key = none := h
  rw [hnone] at hkey
  cases hkey

theorem mem_of_mem_orInsertAll {m es : Map} {e : String × Value} (h : e ∈ orInsertAll m es) :
    e ∈ m ∨ e ∈ es := by
  unfold orInsertAll at h
  induction es generalizing m with
  | nil => exact .inl h
  | cons e' es ih =>
      rcases ih h with h | h
      · have h : e ∈ orInsert m e'.1 e'.2 := h
        unfold orInsert at h
        split at h
        · exact .inl h
        · rcases Entries.mem_of_mem_insert h with h | h
          · exact .inl h
          · exact .inr (h ▸ List.mem_cons_self)
      · exact .inr (List.mem_cons_of_mem _ h)

theorem not_mem_remove (m : Map) (key : String) (v : Value) : (key, v) ∉ remove m key := by
  intro h
  have hkey := (List.mem_filter.mp h).2
  simp at hkey

theorem no_members_of_flattened {fuel : Nat} {obj flat : Map}
    (h : flattenedBy (flattenNode defs fuel) obj = some flat) (members : List Value) :
    ("allOf", .array members) ∉ flat := by
  refine flattened_induction (Q := fun _ flat => ("allOf", .array members) ∉ flat) ?_ ?_ ?_ h
  · intro obj hnone
    exact not_mem_of_get_none hnone _
  · intro obj other _ hshape hmem
    rcases Entries.mem_of_mem_insert hmem with hmem | heq
    · exact not_mem_remove obj "allOf" _ hmem
    · exact hshape members (congrArg Prod.snd heq).symm
  · intro obj members' cs _ _ hmem
    rcases mem_of_mem_orInsertAll hmem with hmem | hmem
    · exact not_mem_remove obj "allOf" _ hmem
    · exact not_mem_of_get_none ((takesAll_merge cs).merged.other "allOf" (by decide)) _ hmem

theorem get_allOf_of_node {fuel : Nat} {node flat : Map} {members : List Value}
    (h : flattenedBy (flattenNode defs fuel) node = some flat)
    (hmembers : node.get "allOf" = some (.array members)) : flat.get "allOf" = none := by
  revert hmembers
  refine flattened_induction (Q := fun node flat =>
    node.get "allOf" = some (.array members) → flat.get "allOf" = none) ?_ ?_ ?_ h
  · intro obj hnone _
    exact hnone
  · intro obj other hother hshape hmembers
    cases hother.symm.trans hmembers
    exact absurd rfl (hshape members)
  · intro obj _ cs _ _ _
    rw [get_orInsertAll, get_remove, if_pos rfl, Option.none_or]
    exact (takesAll_merge cs).merged.other "allOf" (by decide)

/-! ## What is shown is given -/

theorem gives_of_target {kind : Listed} {e : String × Value} {member : Value}
    (h : Gives defs kind e (target defs member)) : Gives defs kind e member := by
  unfold target at h
  split at h
  · rename_i reference hreference
    rcases hresolve : resolve defs reference with _ | v
    · rwa [hresolve] at h
    · rw [hresolve] at h
      obtain ⟨s, hs, hstr⟩ := Option.bind_eq_some_iff.mp hreference
      rcases s with _ | _ | _ | _ | s | _ | _
      iterate 4 cases hstr
      · cases hstr
        rcases member with _ | _ | _ | _ | _ | _ | m
        iterate 6 cases hs
        · exact .reference hs hresolve h
      iterate 2 cases hstr
  · exact h

theorem gives_of_shown {kind : Listed} {e : String × Value} {m : Map}
    (h : Shown defs kind e m) : Gives defs kind e (.object m) := by
  induction h with
  | own he => exact .own he
  | member _ hmembers hmember htarget _ ih =>
      exact .member hmembers hmember (gives_of_target (htarget ▸ ih))

theorem provides_of_shown {kind : Listed} {e : String × Value} {m : Map}
    (h : Shown defs kind e m) : Provides defs kind m e := by
  rcases h with he | ⟨-, hmembers, hmember, htarget, hshown⟩
  · exact .inl he
  · exact .inr ⟨_, _, hmembers, hmember, gives_of_target (htarget ▸ gives_of_shown hshown)⟩

end

end TurboMcp.Codegen
