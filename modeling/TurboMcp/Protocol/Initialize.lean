import TurboMcp.Protocol.ToolSchemas

/-!
# `initialize` on the legacy wire

The capabilities a client declares are read into generated structs, and the
session keeps what the structs write back.  The structs know a fixed set of
fields, skip the maps that are empty and have no catch-all: a declaration comes
back as it was just when each entry, at every depth, is one its struct knows and
writes.
-/

namespace TurboMcp.Protocol

open TurboMcp.Core TurboMcp.Lib

/-! ## What a struct writes back -/

theorem alike_object_iff {m m' : Map} :
    Alike (.object m) (.object m') ↔ ∀ key, Option.Rel Alike (m.get key) (m'.get key) := by
  constructor
  · intro h
    cases h with
    | refl => exact fun key => alikeOption_refl _
    | object h => exact h
  · exact .object

/-- An object whose every entry is one of the fields, with a value the field
keeps. -/
def KeptBy (fields : List (String × (Value → Prop))) (v : Value) : Prop :=
  ∃ m : Map, v = .object m ∧
    ∀ key w, m.get key = some w → ∃ keeps, (key, keeps) ∈ fields ∧ keeps w

theorem not_keptBy_null (fields : List (String × (Value → Prop))) : ¬ KeptBy fields .null := by
  rintro ⟨m, hm, -⟩
  cases hm

theorem keptBy_of_entries {fields : List (String × (Value → Prop))} {m : Map}
    (h : ∀ e ∈ m, ∃ keeps, (e.1, keeps) ∈ fields ∧ keeps e.2) : KeptBy fields (.object m) :=
  ⟨m, rfl, fun _ _ hw => h _ (Entries.mem_of_get hw)⟩

/-- A field writes back what it read just when it keeps it. -/
def WritesBack (m : Map) (out : String × Option Value) (field : String × (Value → Prop)) : Prop :=
  out.1 = field.1 ∧
    (Option.Rel Alike out.2 (m.get field.1) ↔ ∀ w, m.get field.1 = some w → field.2 w)

theorem get_record_of_not_mem {outs : List (String × Option Value)} {key : String}
    (h : key ∉ outs.map Prod.fst) : Map.get (record outs) key = none := by
  induction outs with
  | nil => rfl
  | cons out outs ih =>
      rw [List.map_cons, List.mem_cons, not_or] at h
      rw [Map.get_record_cons, if_neg (Ne.symm h.1)]
      exact ih h.2

theorem get_record_of_mem {outs : List (String × Option Value)}
    (hnodup : (outs.map Prod.fst).Nodup) {out : String × Option Value} (h : out ∈ outs) :
    Map.get (record outs) out.1 = out.2 := by
  induction outs with
  | nil => cases h
  | cons o outs ih =>
      obtain ⟨hnotin, hnodup⟩ := List.nodup_cons.mp hnodup
      rw [Map.get_record_cons]
      rcases List.mem_cons.mp h with rfl | h
      · rw [if_pos rfl, get_record_of_not_mem hnotin, Option.or_none]
      · rw [if_neg, ih hnodup h]
        rintro heq
        exact hnotin (heq ▸ List.mem_map_of_mem h)

section

variable {m : Map} {outs : List (String × Option Value)}
  {fields : List (String × (Value → Prop))}

theorem names_eq (h : List.Forall₂ (WritesBack m) outs fields) :
    outs.map Prod.fst = fields.map Prod.fst := by
  induction h with
  | nil => rfl
  | cons hd _ ih => rw [List.map_cons, List.map_cons, hd.1, ih]

theorem exists_writesBack (h : List.Forall₂ (WritesBack m) outs fields)
    {field : String × (Value → Prop)} (hfield : field ∈ fields) :
    ∃ out ∈ outs, WritesBack m out field := by
  induction h with
  | nil => cases hfield
  | cons hd _ ih =>
      rcases List.mem_cons.mp hfield with rfl | hfield
      · exact ⟨_, List.mem_cons_self .., hd⟩
      · obtain ⟨out, hout, hback⟩ := ih hfield
        exact ⟨out, List.mem_cons_of_mem _ hout, hback⟩

/-- **A struct gives back what it read** just when its fields keep every entry. -/
theorem alike_object (hnodup : (fields.map Prod.fst).Nodup)
    (h : List.Forall₂ (WritesBack m) outs fields) :
    Alike (Value.struct outs) (.object m) ↔ KeptBy fields (.object m) := by
  have hnames := names_eq h
  have hget : ∀ field ∈ fields, ∃ out, Map.get (record outs) field.1 = out ∧
      (Option.Rel Alike out (m.get field.1) ↔ ∀ w, m.get field.1 = some w → field.2 w) := by
    intro field hfield
    obtain ⟨out, hout, hname, hback⟩ := exists_writesBack h hfield
    refine ⟨out.2, ?_, hback⟩
    rw [← hname]
    exact get_record_of_mem (hnames ▸ hnodup) hout
  show Alike (.object (record outs)) (.object m) ↔ _
  rw [alike_object_iff]
  constructor
  · intro halike
    refine ⟨m, rfl, fun key w hw => ?_⟩
    by_cases hkey : key ∈ fields.map Prod.fst
    · obtain ⟨⟨name, keeps⟩, hfield, rfl⟩ := List.mem_map.mp hkey
      obtain ⟨out, hout, hback⟩ := hget _ hfield
      refine ⟨keeps, hfield, hback.mp ?_ w hw⟩
      rw [← hout]
      exact halike name
    · -- an entry that no field reads is not written
      have hrel := halike key
      rw [get_record_of_not_mem (hnames ▸ hkey), hw] at hrel
      cases hrel
  · rintro ⟨m', hm', hkept⟩ key
    cases hm'
    by_cases hkey : key ∈ fields.map Prod.fst
    · obtain ⟨⟨name, keeps⟩, hfield, rfl⟩ := List.mem_map.mp hkey
      obtain ⟨out, hout, hback⟩ := hget _ hfield
      rw [hout]
      refine hback.mpr fun w hw => ?_
      obtain ⟨keeps', hfield', hw'⟩ := hkept _ w hw
      have heq := List.inj_on_of_nodup_map hnodup hfield hfield' rfl
      cases heq
      exact hw'
    · rw [get_record_of_not_mem (hnames ▸ hkey)]
      cases hw : m.get key with
      | none => exact .none
      | some w =>
          obtain ⟨keeps, hfield, -⟩ := hkept key w hw
          exact absurd (List.mem_map_of_mem hfield) hkey

/-- A struct that was read from an array writes an object. -/
theorem alike_struct {names : List String} {v : Value} (hv : structFields names v = some m)
    (hnodup : (fields.map Prod.fst).Nodup)
    (h : v = .object m → List.Forall₂ (WritesBack m) outs fields) :
    Alike (Value.struct outs) v ↔ KeptBy fields v := by
  cases v with
  | object m' =>
      cases hv
      exact alike_object hnodup (h rfl)
  | array xs =>
      constructor
      · intro halike
        cases halike
      · rintro ⟨m', hm', -⟩
        cases hm'
  | null | bool | int | float | string => cases hv

end

/-! ### Fields -/

variable {m : Map}

/-- An object with at least one entry. -/
def Filled (v : Value) : Prop := v ≠ .object []

/-- A map that is skipped when it is empty. -/
theorem writesBack_map {name : String} {x : Map} (h : mapOrEmpty (m.get name) = some x) :
    WritesBack m (name, skipEmptyMap x) (name, Filled) := by
  refine ⟨rfl, ?_⟩
  show Option.Rel Alike (skipEmptyMap x) (m.get name) ↔ ∀ w, m.get name = some w → Filled w
  cases hget : m.get name with
  | none =>
      rw [hget] at h
      cases h
      exact ⟨fun _ => nofun, fun _ => .none⟩
  | some v =>
      rw [hget] at h
      obtain rfl := Value.asObject_eq_some h
      cases x with
      | nil =>
          constructor
          · intro hrel
            cases hrel
          · intro hfilled
            exact absurd rfl (hfilled _ rfl)
      | cons e x =>
          constructor
          · rintro - w hw heq
            cases hw
            cases heq
          · exact fun _ => .some (.refl _)

/-- An optional boolean. -/
theorem writesBack_bool {name : String} {b : Option Bool}
    (h : optionField m name Value.asBool = some b) :
    WritesBack m (name, b.map .bool) (name, (· ≠ .null)) := by
  refine ⟨rfl, ?_⟩
  show Option.Rel Alike (b.map .bool) (m.get name) ↔ ∀ w, m.get name = some w → w ≠ .null
  unfold optionField at h
  cases hget : m.get name with
  | none =>
      rw [hget] at h
      cases h
      exact ⟨fun _ => nofun, fun _ => .none⟩
  | some v =>
      rw [hget] at h
      cases v with
      | null =>
          cases h
          constructor
          · intro hrel
            cases hrel
          · intro hne
            exact absurd rfl (hne _ rfl)
      | bool b =>
          cases h
          constructor
          · rintro - w hw heq
            cases hw
            cases heq
          · exact fun _ => .some (.refl _)
      | int | float | string | array | object => cases h

/-- An optional struct. -/
theorem writesBack_struct {α : Type} {name : String} {dec : Value → Option α} {enc : α → Value}
    {keeps : Value → Prop} (hstruct : ∀ {v a}, dec v = some a → (Alike (enc a) v ↔ keeps v))
    (hnull : ¬ keeps .null) {o : Option α} (h : optionField m name dec = some o) :
    WritesBack m (name, o.map enc) (name, keeps) := by
  refine ⟨rfl, ?_⟩
  show Option.Rel Alike (o.map enc) (m.get name) ↔ ∀ w, m.get name = some w → keeps w
  unfold optionField at h
  cases hget : m.get name with
  | none =>
      rw [hget] at h
      cases h
      exact ⟨fun _ => nofun, fun _ => .none⟩
  | some v =>
      rw [hget] at h
      by_cases hv : v = .null
      · subst hv
        cases h
        constructor
        · intro hrel
          cases hrel
        · intro hkeeps
          exact absurd (hkeeps _ rfl) hnull
      · have hdec : (dec v).map some = some o := by
          cases v
          case null => exact absurd rfl hv
          all_goals exact h
        obtain ⟨a, ha, rfl⟩ := Option.map_eq_some_iff.mp hdec
        rw [Option.map_some, Option.rel_some_some, hstruct ha]
        exact ⟨fun hk w hw => Option.some.inj hw ▸ hk, fun hk => hk v rfl⟩

namespace Wire.Legacy

theorem exists_subschemas_of_mapM {ps : Map} {es : List (String × Map)}
    (h : ps.mapM (fun e => e.2.asObject.map fun p => (e.1, p)) = some es) :
    ps = es.map fun e => (e.1, .object e.2) := by
  induction ps generalizing es with
  | nil =>
      cases h
      rfl
  | cons e ps ih =>
      simp only [List.mapM_cons, Option.bind_eq_bind, Option.bind_eq_some_iff,
        Option.map_eq_some_iff, Option.pure_def, Option.some.injEq] at h
      obtain ⟨_, ⟨p, hp, rfl⟩, es', hes, rfl⟩ := h
      rw [List.map_cons, ← ih hes, ← Value.asObject_eq_some hp]

/-- A map of objects that is skipped when it is empty, and written in the order
of its keys. -/
theorem writesBack_objects {name : String} {ps : List (String × Map)}
    (hnodup : ∀ e : Map, m.get name = some (.object e) → e.keys.Nodup)
    (h : decodeProperties (m.get name) = some ps) :
    WritesBack m (name, encodeProperties ps) (name, Filled) := by
  refine ⟨rfl, ?_⟩
  show Option.Rel Alike (encodeProperties ps) (m.get name) ↔ ∀ w, m.get name = some w → Filled w
  cases hget : m.get name with
  | none =>
      rw [hget] at h
      cases h
      exact ⟨fun _ => nofun, fun _ => .none⟩
  | some v =>
      simp only [hget, decodeProperties, Option.bind_eq_bind, Option.bind_eq_some_iff,
        Option.pure_def, Option.some.injEq] at h
      obtain ⟨e, he, es, hes, rfl⟩ := h
      obtain rfl := Value.asObject_eq_some he
      obtain rfl := exists_subschemas_of_mapM hes
      have hkeys : (es.map Prod.fst).Nodup := by
        have hfst : Map.keys (es.map fun e => (e.1, Value.object e.2)) = es.map Prod.fst := by
          rw [Map.keys, List.map_map]
          rfl
        rw [← hfst]
        exact hnodup _ hget
      cases es with
      | nil =>
          constructor
          · intro hrel
            cases hrel
          · intro hfilled
            exact absurd rfl (hfilled _ rfl)
      | cons e es =>
          have hne : Entries.sorted (e :: es) ≠ [] := by
            rw [Ne, Entries.sorted_eq_nil_iff hkeys]
            exact List.cons_ne_nil _ _
          constructor
          · rintro - w hw heq
            cases hw
            cases heq
          · intro _
            rw [encodeProperties, if_neg (by simpa using hne)]
            refine .some (.object fun key => ?_)
            rw [get_map_object, get_map_object, Entries.get_sorted hkeys]
            exact alikeOption_refl _

/-! ## The structs -/

structure ClientCapabilitiesElicitation where
  form : Map
  url : Map

namespace ClientCapabilitiesElicitation

def encode (c : ClientCapabilitiesElicitation) : Value :=
  .struct [("form", skipEmptyMap c.form), ("url", skipEmptyMap c.url)]

def decode (v : Value) : Option ClientCapabilitiesElicitation := do
  let m ← structFields ["form", "url"] v
  let form ← mapOrEmpty (m.get "form")
  let url ← mapOrEmpty (m.get "url")
  pure { form, url }

def fields : List (String × (Value → Prop)) := [("form", Filled), ("url", Filled)]

theorem alike_iff {v : Value} {c : ClientCapabilitiesElicitation} (h : decode v = some c) :
    Alike c.encode v ↔ KeptBy fields v := by
  simp only [decode, Option.bind_eq_bind, Option.bind_eq_some_iff, Option.pure_def,
    Option.some.injEq] at h
  obtain ⟨m, hm, form, hform, url, hurl, rfl⟩ := h
  exact alike_struct hm (by decide) fun _ =>
    .cons (writesBack_map hform) (.cons (writesBack_map hurl) .nil)

end ClientCapabilitiesElicitation

structure ClientCapabilitiesRoots where
  listChanged : Option Bool

namespace ClientCapabilitiesRoots

def encode (c : ClientCapabilitiesRoots) : Value :=
  .struct [("listChanged", c.listChanged.map .bool)]

def decode (v : Value) : Option ClientCapabilitiesRoots := do
  let m ← structFields ["listChanged"] v
  let listChanged ← optionField m "listChanged" Value.asBool
  pure { listChanged }

def fields : List (String × (Value → Prop)) := [("listChanged", (· ≠ .null))]

theorem alike_iff {v : Value} {c : ClientCapabilitiesRoots} (h : decode v = some c) :
    Alike c.encode v ↔ KeptBy fields v := by
  simp only [decode, Option.bind_eq_bind, Option.bind_eq_some_iff, Option.pure_def,
    Option.some.injEq] at h
  obtain ⟨m, hm, listChanged, hlist, rfl⟩ := h
  exact alike_struct hm (by decide) fun _ =>
    .cons (writesBack_bool hlist) .nil

end ClientCapabilitiesRoots

structure ClientCapabilitiesSampling where
  context : Map
  tools : Map

namespace ClientCapabilitiesSampling

def encode (c : ClientCapabilitiesSampling) : Value :=
  .struct [("context", skipEmptyMap c.context), ("tools", skipEmptyMap c.tools)]

def decode (v : Value) : Option ClientCapabilitiesSampling := do
  let m ← structFields ["context", "tools"] v
  let context ← mapOrEmpty (m.get "context")
  let tools ← mapOrEmpty (m.get "tools")
  pure { context, tools }

def fields : List (String × (Value → Prop)) := [("context", Filled), ("tools", Filled)]

theorem alike_iff {v : Value} {c : ClientCapabilitiesSampling} (h : decode v = some c) :
    Alike c.encode v ↔ KeptBy fields v := by
  simp only [decode, Option.bind_eq_bind, Option.bind_eq_some_iff, Option.pure_def,
    Option.some.injEq] at h
  obtain ⟨m, hm, context, hcontext, tools, htools, rfl⟩ := h
  exact alike_struct hm (by decide) fun _ =>
    .cons (writesBack_map hcontext) (.cons (writesBack_map htools) .nil)

end ClientCapabilitiesSampling

structure ClientCapabilitiesTasksRequestsElicitation where
  create : Map

namespace ClientCapabilitiesTasksRequestsElicitation

def encode (c : ClientCapabilitiesTasksRequestsElicitation) : Value :=
  .struct [("create", skipEmptyMap c.create)]

def decode (v : Value) : Option ClientCapabilitiesTasksRequestsElicitation := do
  let m ← structFields ["create"] v
  let create ← mapOrEmpty (m.get "create")
  pure { create }

def fields : List (String × (Value → Prop)) := [("create", Filled)]

theorem alike_iff {v : Value} {c : ClientCapabilitiesTasksRequestsElicitation}
    (h : decode v = some c) : Alike c.encode v ↔ KeptBy fields v := by
  simp only [decode, Option.bind_eq_bind, Option.bind_eq_some_iff, Option.pure_def,
    Option.some.injEq] at h
  obtain ⟨m, hm, create, hcreate, rfl⟩ := h
  exact alike_struct hm (by decide) fun _ =>
    .cons (writesBack_map hcreate) .nil

end ClientCapabilitiesTasksRequestsElicitation

structure ClientCapabilitiesTasksRequestsSampling where
  createMessage : Map

namespace ClientCapabilitiesTasksRequestsSampling

def encode (c : ClientCapabilitiesTasksRequestsSampling) : Value :=
  .struct [("createMessage", skipEmptyMap c.createMessage)]

def decode (v : Value) : Option ClientCapabilitiesTasksRequestsSampling := do
  let m ← structFields ["createMessage"] v
  let createMessage ← mapOrEmpty (m.get "createMessage")
  pure { createMessage }

def fields : List (String × (Value → Prop)) := [("createMessage", Filled)]

theorem alike_iff {v : Value} {c : ClientCapabilitiesTasksRequestsSampling}
    (h : decode v = some c) : Alike c.encode v ↔ KeptBy fields v := by
  simp only [decode, Option.bind_eq_bind, Option.bind_eq_some_iff, Option.pure_def,
    Option.some.injEq] at h
  obtain ⟨m, hm, createMessage, hcreate, rfl⟩ := h
  exact alike_struct hm (by decide) fun _ =>
    .cons (writesBack_map hcreate) .nil

end ClientCapabilitiesTasksRequestsSampling

structure ClientCapabilitiesTasksRequests where
  elicitation : Option ClientCapabilitiesTasksRequestsElicitation
  sampling : Option ClientCapabilitiesTasksRequestsSampling

namespace ClientCapabilitiesTasksRequests

def encode (c : ClientCapabilitiesTasksRequests) : Value :=
  .struct
    [("elicitation", c.elicitation.map ClientCapabilitiesTasksRequestsElicitation.encode),
      ("sampling", c.sampling.map ClientCapabilitiesTasksRequestsSampling.encode)]

def decode (v : Value) : Option ClientCapabilitiesTasksRequests := do
  let m ← structFields ["elicitation", "sampling"] v
  let elicitation ← optionField m "elicitation" ClientCapabilitiesTasksRequestsElicitation.decode
  let sampling ← optionField m "sampling" ClientCapabilitiesTasksRequestsSampling.decode
  pure { elicitation, sampling }

def fields : List (String × (Value → Prop)) :=
  [("elicitation", KeptBy ClientCapabilitiesTasksRequestsElicitation.fields),
    ("sampling", KeptBy ClientCapabilitiesTasksRequestsSampling.fields)]

theorem alike_iff {v : Value} {c : ClientCapabilitiesTasksRequests} (h : decode v = some c) :
    Alike c.encode v ↔ KeptBy fields v := by
  simp only [decode, Option.bind_eq_bind, Option.bind_eq_some_iff, Option.pure_def,
    Option.some.injEq] at h
  obtain ⟨m, hm, elicitation, helicitation, sampling, hsampling, rfl⟩ := h
  have helicits := writesBack_struct
    ClientCapabilitiesTasksRequestsElicitation.alike_iff (not_keptBy_null _) helicitation
  have hsamples := writesBack_struct
    ClientCapabilitiesTasksRequestsSampling.alike_iff (not_keptBy_null _) hsampling
  exact alike_struct hm (by decide) fun _ =>
    .cons helicits (.cons hsamples .nil)

end ClientCapabilitiesTasksRequests

structure ClientCapabilitiesTasks where
  cancel : Map
  list : Map
  requests : Option ClientCapabilitiesTasksRequests

namespace ClientCapabilitiesTasks

def encode (c : ClientCapabilitiesTasks) : Value :=
  .struct
    [("cancel", skipEmptyMap c.cancel), ("list", skipEmptyMap c.list),
      ("requests", c.requests.map ClientCapabilitiesTasksRequests.encode)]

def decode (v : Value) : Option ClientCapabilitiesTasks := do
  let m ← structFields ["cancel", "list", "requests"] v
  let cancel ← mapOrEmpty (m.get "cancel")
  let list ← mapOrEmpty (m.get "list")
  let requests ← optionField m "requests" ClientCapabilitiesTasksRequests.decode
  pure { cancel, list, requests }

def fields : List (String × (Value → Prop)) :=
  [("cancel", Filled), ("list", Filled),
    ("requests", KeptBy ClientCapabilitiesTasksRequests.fields)]

theorem alike_iff {v : Value} {c : ClientCapabilitiesTasks} (h : decode v = some c) :
    Alike c.encode v ↔ KeptBy fields v := by
  simp only [decode, Option.bind_eq_bind, Option.bind_eq_some_iff, Option.pure_def,
    Option.some.injEq] at h
  obtain ⟨m, hm, cancel, hcancel, list, hlist, requests, hrequests, rfl⟩ := h
  have hnested := writesBack_struct
    ClientCapabilitiesTasksRequests.alike_iff (not_keptBy_null _) hrequests
  exact alike_struct hm (by decide) fun _ =>
    .cons (writesBack_map hcancel) (.cons (writesBack_map hlist) (.cons hnested .nil))

end ClientCapabilitiesTasks

structure ClientCapabilities where
  elicitation : Option ClientCapabilitiesElicitation
  experimental : List (String × Map)
  roots : Option ClientCapabilitiesRoots
  sampling : Option ClientCapabilitiesSampling
  tasks : Option ClientCapabilitiesTasks

namespace ClientCapabilities

def encode (c : ClientCapabilities) : Value :=
  .struct
    [("elicitation", c.elicitation.map ClientCapabilitiesElicitation.encode),
      ("experimental", encodeProperties c.experimental),
      ("roots", c.roots.map ClientCapabilitiesRoots.encode),
      ("sampling", c.sampling.map ClientCapabilitiesSampling.encode),
      ("tasks", c.tasks.map ClientCapabilitiesTasks.encode)]

def decode (v : Value) : Option ClientCapabilities := do
  let m ← structFields ["elicitation", "experimental", "roots", "sampling", "tasks"] v
  let elicitation ← optionField m "elicitation" ClientCapabilitiesElicitation.decode
  let experimental ← decodeProperties (m.get "experimental")
  let roots ← optionField m "roots" ClientCapabilitiesRoots.decode
  let sampling ← optionField m "sampling" ClientCapabilitiesSampling.decode
  let tasks ← optionField m "tasks" ClientCapabilitiesTasks.decode
  pure { elicitation, experimental, roots, sampling, tasks }

def fields : List (String × (Value → Prop)) :=
  [("elicitation", KeptBy ClientCapabilitiesElicitation.fields),
    ("experimental", Filled),
    ("roots", KeptBy ClientCapabilitiesRoots.fields),
    ("sampling", KeptBy ClientCapabilitiesSampling.fields),
    ("tasks", KeptBy ClientCapabilitiesTasks.fields)]

/-- The `experimental` object, if there is one, has each key once. -/
def Distinct (v : Value) : Prop :=
  ∀ e : Map, v.get "experimental" = some (.object e) → e.keys.Nodup

/-- **Declared capabilities** are written back as declared just when every entry,
at every depth, is of a known field, no map the structs may skip is empty, and
nothing is `null`. -/
theorem alike_iff {v : Value} {c : ClientCapabilities} (hkeys : Distinct v)
    (h : decode v = some c) : Alike c.encode v ↔ KeptBy fields v := by
  simp only [decode, Option.bind_eq_bind, Option.bind_eq_some_iff, Option.pure_def,
    Option.some.injEq] at h
  obtain ⟨m, hm, elicitation, helicitation, experimental, hexperimental, roots, hroots,
    sampling, hsampling, tasks, htasks, rfl⟩ := h
  refine alike_struct hm (by decide) fun hobject => ?_
  subst hobject
  have helicits := writesBack_struct
    ClientCapabilitiesElicitation.alike_iff (not_keptBy_null _) helicitation
  have hroot := writesBack_struct ClientCapabilitiesRoots.alike_iff (not_keptBy_null _) hroots
  have hsamples := writesBack_struct
    ClientCapabilitiesSampling.alike_iff (not_keptBy_null _) hsampling
  have htask := writesBack_struct ClientCapabilitiesTasks.alike_iff (not_keptBy_null _) htasks
  exact .cons helicits (.cons (writesBack_objects hkeys hexperimental)
    (.cons hroot (.cons hsamples (.cons htask .nil))))

end ClientCapabilities

/-! ## The request -/

inductive ProgressToken
  | string (s : String)
  | integer (n : Int)

def ProgressToken.decode : Value → Option ProgressToken :=
  firstOf [fun v => v.asStr.map .string, fun v => v.asI64.map .integer]

structure InitializeRequestParamsMeta where
  progressToken : Option ProgressToken
  extra : Map

def InitializeRequestParamsMeta.decode (v : Value) : Option InitializeRequestParamsMeta := do
  let m ← v.asObject
  let progressToken ← optionField m "progressToken" ProgressToken.decode
  pure { progressToken, extra := flattenedExtra ["progressToken"] m }

structure InitializeRequestParams where
  capabilities : ClientCapabilities
  clientInfo : Implementation
  meta_ : Option InitializeRequestParamsMeta
  protocolVersion : String

def InitializeRequestParams.decode (v : Value) : Option InitializeRequestParams := do
  let m ← structFields ["capabilities", "clientInfo", "_meta", "protocolVersion"] v
  let capabilities ← requiredField m "capabilities" ClientCapabilities.decode
  let clientInfo ← requiredField m "clientInfo" Implementation.decode
  let meta_ ← optionField m "_meta" InitializeRequestParamsMeta.decode
  let protocolVersion ← stringField m "protocolVersion"
  pure { capabilities, clientInfo, meta_, protocolVersion }

/-- The capabilities an `initialize` declares, as they stand in its params. -/
def declaredCapabilities (params : Value) : Option Value :=
  (structFields ["capabilities", "clientInfo", "_meta", "protocolVersion"] params).bind
    (·.get "capabilities")

theorem decode_declaredCapabilities {params : Value} {p : InitializeRequestParams}
    (h : InitializeRequestParams.decode params = some p) :
    (declaredCapabilities params).bind ClientCapabilities.decode = some p.capabilities := by
  simp only [InitializeRequestParams.decode, Option.bind_eq_bind, Option.bind_eq_some_iff,
    Option.pure_def, Option.some.injEq] at h
  obtain ⟨m, hm, capabilities, hcapabilities, _, -, _, -, _, -, rfl⟩ := h
  rw [declaredCapabilities, hm]
  exact hcapabilities

end Wire.Legacy

end TurboMcp.Protocol
