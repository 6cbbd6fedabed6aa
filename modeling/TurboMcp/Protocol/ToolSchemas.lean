import Mathlib.Data.String.Basic
import TurboMcp.Protocol.Tools

/-!
# Tool schemas across the wires

The draft's wrapper takes every object schema.  The legacy one reads each
property's schema as an object, and JSON Schema also has the booleans: with a
boolean property an input schema becomes the schema of any object, and an output
schema disappears.
-/

namespace TurboMcp.Protocol

open TurboMcp.Core TurboMcp.Lib

/-! ## The same JSON -/

/-- Equality of JSON values, in which the order of an object's entries does not
count. -/
inductive Alike : Value → Value → Prop
  | refl (v : Value) : Alike v v
  | array {xs ys : List Value} (h : List.Forall₂ Alike xs ys) : Alike (.array xs) (.array ys)
  | object {m m' : Map} (h : ∀ key, Option.Rel Alike (m.get key) (m'.get key)) :
      Alike (.object m) (.object m')

theorem alikeOption_refl (o : Option Value) : Option.Rel Alike o o := by
  cases o with
  | none => exact .none
  | some v => exact .some (.refl v)

/-- An empty `properties` or `required` says nothing. -/
def saysNothing (key : String) (v : Value) : Bool :=
  key = "properties" && v = .object [] || key = "required" && v = .array []

/-- What a schema says under a keyword. -/
def keyword (m : Map) (key : String) : Option Value :=
  (m.get key).filter fun v => !saysNothing key v

theorem keyword_eq (m : Map) (key : String) :
    keyword m key = (m.get key).filter fun v => !saysNothing key v := rfl

/-- The same schema, up to empty `properties` and `required`. -/
def SameSchema (v v' : Value) : Prop :=
  ∃ m m', v = .object m ∧ v' = .object m' ∧
    ∀ key, Option.Rel Alike (keyword m key) (keyword m' key)

theorem sameSchema_of_get {m m' : Map} (h : ∀ key, m.get key = m'.get key) :
    SameSchema (.object m) (.object m') := by
  refine ⟨m, m', rfl, rfl, fun key => ?_⟩
  unfold keyword
  rw [h key]
  exact alikeOption_refl _

/-! ## Object schemas -/

/-- A JSON Schema of type `object`: any keywords, with the standard shapes of
those the wrappers know. -/
structure ObjectSchema (m : Map) : Prop where
  nodup : m.keys.Nodup
  type : m.get "type" = some (.string "object")
  schema : ∀ v, m.get "$schema" = some v → ∃ s, v = .string s
  required : ∀ v, m.get "required" = some v → ∃ names : List String, v = .array (names.map .string)
  properties : ∀ v, m.get "properties" = some v → ∃ ps : Map, v = .object ps ∧ ps.keys.Nodup ∧
    ∀ e ∈ ps, (∃ sub, e.2 = .object sub) ∨ ∃ b, e.2 = .bool b

def IsObjectSchema (v : Value) : Prop := ∃ m, v = .object m ∧ ObjectSchema m

/-- Some property's schema is a boolean. -/
def BooleanProperty (v : Value) : Prop :=
  ∃ ps : Map, v.get "properties" = some (.object ps) ∧ ∃ e ∈ ps, ∃ b, e.2 = .bool b

/-- An optional string of a schema reads as it stands. -/
theorem optional_schema {m : Map} (h : ObjectSchema m) :
    ∃ o : Option String, m.get "$schema" = o.map .string := by
  cases hget : m.get "$schema" with
  | none => exact ⟨none, rfl⟩
  | some v =>
      obtain ⟨s, rfl⟩ := h.schema v hget
      exact ⟨some s, rfl⟩

/-! ## The draft -/

namespace Wire.Draft

namespace ToolInputSchema

theorem encode_eq {s : ToolInputSchema} (h : Avoids names s.extra) :
    s.encode = .object (record [("$schema", s.schema.map .string),
      ("type", some (.string s.type_))] ++ s.extra) :=
  flattened_eq h rfl (by decide)

theorem decode_encode {s : ToolInputSchema} (h : Avoids names s.extra) :
    decode s.encode = some s := by
  rw [encode_eq h]
  have hschema := h.get (show "$schema" ∈ names by decide)
  have htype := h.get (show "type" ∈ names by decide)
  have hextra : flattenedExtra names (record [("$schema", s.schema.map .string),
      ("type", some (.string s.type_))] ++ s.extra) = s.extra := flattenedExtra_append h rfl
  simp [decode, optionField_eq, stringField_eq, get_flattened, hschema, htype, hextra]

/-- Every object schema is read, and written back entry for entry. -/
theorem decode_object {m : Map} (h : ObjectSchema m) :
    ∃ s, ∃ m' : Map, decode (.object m) = some s ∧ Avoids names s.extra ∧ s.encode = .object m' ∧
      ∀ key, m'.get key = m.get key := by
  obtain ⟨o, ho⟩ := optional_schema h
  have havoids := avoids_flattenedExtra names h.nodup
  refine ⟨⟨o, "object", flattenedExtra names m⟩, _, ?_, havoids, encode_eq havoids, ?_⟩
  · simp [decode, optionField_eq, stringField_eq, h.type, ho]
  · intro key
    rw [get_flattened, get_flattenedExtra]
    by_cases hschema : "$schema" = key
    · subst hschema
      simp [names, ho]
    · by_cases htype : "type" = key
      · subst htype
        simp [names, h.type]
      · simp [names, hschema, htype, Ne.symm hschema, Ne.symm htype]

end ToolInputSchema

namespace ToolOutputSchema

theorem encode_ne_null (s : ToolOutputSchema) : s.encode ≠ .null :=
  Value.flattened_ne_null _ _

theorem encode_eq {s : ToolOutputSchema} (h : Avoids names s.extra) :
    s.encode = .object (record [("$schema", s.schema.map .string)] ++ s.extra) :=
  flattened_eq h rfl (by decide)

theorem decode_encode {s : ToolOutputSchema} (h : Avoids names s.extra) :
    decode s.encode = some s := by
  rw [encode_eq h]
  have hschema := h.get (show "$schema" ∈ names by decide)
  have hextra : flattenedExtra names (record [("$schema", s.schema.map .string)] ++ s.extra) =
      s.extra := flattenedExtra_append h rfl
  simp [decode, optionField_eq, get_flattened, hschema, hextra]

theorem decode_object {m : Map} (h : ObjectSchema m) :
    ∃ s, ∃ m' : Map, decode (.object m) = some s ∧ Avoids names s.extra ∧ s.encode = .object m' ∧
      ∀ key, m'.get key = m.get key := by
  obtain ⟨o, ho⟩ := optional_schema h
  have havoids := avoids_flattenedExtra names h.nodup
  refine ⟨⟨o, flattenedExtra names m⟩, _, ?_, havoids, encode_eq havoids, ?_⟩
  · simp [decode, optionField_eq, ho]
  · intro key
    rw [get_flattened, get_flattenedExtra]
    by_cases hschema : "$schema" = key
    · subst hschema
      simp [names, ho]
    · simp [names, hschema, Ne.symm hschema]

end ToolOutputSchema

end Wire.Draft

/-! ## The legacy wire -/

theorem get_map_object (es : List (String × Map)) (key : String) :
    Map.get (es.map fun e => (e.1, Value.object e.2)) key =
      (Entries.get es key).map .object := by
  unfold Map.get
  induction es with
  | nil => rfl
  | cons e es ih =>
      rw [List.map_cons, Entries.get_cons, Entries.get_cons]
      split
      · rfl
      · exact ih

namespace Wire.Legacy

/-- Subschemas that are all objects, as the wrapper keeps them. -/
theorem exists_subschemas {ps : Map} (h : ∀ e ∈ ps, ∃ sub, e.2 = .object sub) :
    ∃ es : List (String × Map), ps = es.map fun e => (e.1, .object e.2) := by
  induction ps with
  | nil => exact ⟨[], rfl⟩
  | cons e ps ih =>
      obtain ⟨sub, hsub⟩ := h e (List.mem_cons_self ..)
      obtain ⟨es, rfl⟩ := ih fun e' he' => h e' (List.mem_cons_of_mem _ he')
      refine ⟨(e.1, sub) :: es, ?_⟩
      rw [List.map_cons, ← hsub]

theorem mapM_subschemas (es : List (String × Map)) :
    (es.map fun e => (e.1, Value.object e.2)).mapM
      (fun e => e.2.asObject.map fun p => (e.1, p)) = some es := by
  induction es with
  | nil => rfl
  | cons e es ih =>
      rw [List.map_cons, List.mapM_cons, ih]
      rfl

theorem decodeProperties_object (es : List (String × Map)) :
    decodeProperties (some (.object (es.map fun e => (e.1, .object e.2)))) =
      some (Entries.sorted es) := by
  simp [decodeProperties, mapM_subschemas, -List.mapM_map]

/-- Properties in order read back as they are written. -/
theorem decodeProperties_encodeProperties {ps : List (String × Map)}
    (h : ps.Pairwise fun a b => a.1 < b.1) :
    decodeProperties (encodeProperties ps) = some ps := by
  cases ps with
  | nil => rfl
  | cons p ps =>
      rw [encodeProperties, if_neg (by simp), decodeProperties_object,
        Entries.sorted_of_sorted h]

/-- A boolean among the subschemas is one too many. -/
theorem decodeProperties_of_bool {ps : Map} {e : String × Value} {b : Bool} (he : e ∈ ps)
    (hb : e.2 = .bool b) : decodeProperties (some (.object ps)) = none := by
  have hmapM : ps.mapM (fun e => e.2.asObject.map fun p => (e.1, p)) = none := by
    induction ps with
    | nil => cases he
    | cons e' ps ih =>
        rw [List.mapM_cons]
        rcases List.mem_cons.mp he with rfl | he
        · rw [hb]
          rfl
        · rw [ih he]
          cases e'.2.asObject <;> rfl
  simp [decodeProperties, hmapM]

namespace ToolSchema

/-- What decoding produces: properties in order, and no named keyword among the
others. -/
structure Normal (s : ToolSchema) : Prop where
  ordered : s.properties.Pairwise fun a b => a.1 < b.1
  avoids : Avoids names s.extra

theorem encode_ne_null (s : ToolSchema) : s.encode ≠ .null := Value.flattened_ne_null _ _

theorem encode_eq {s : ToolSchema} (h : Avoids names s.extra) :
    s.encode = .object (record [("properties", encodeProperties s.properties),
      ("required", skipEmpty .string s.required), ("$schema", s.schema.map .string),
      ("type", some (.string s.type_))] ++ s.extra) :=
  flattened_eq h rfl (by decide)

theorem decode_encode {s : ToolSchema} (h : s.Normal) : decode s.encode = some s := by
  rw [encode_eq h.avoids]
  have hproperties := h.avoids.get (show "properties" ∈ names by decide)
  have hrequired := h.avoids.get (show "required" ∈ names by decide)
  have hschema := h.avoids.get (show "$schema" ∈ names by decide)
  have htype := h.avoids.get (show "type" ∈ names by decide)
  have hextra : flattenedExtra names (record [("properties", encodeProperties s.properties),
      ("required", skipEmpty .string s.required), ("$schema", s.schema.map .string),
      ("type", some (.string s.type_))] ++ s.extra) = s.extra :=
    flattenedExtra_append h.avoids rfl
  simp [decode, optionField_eq, stringField_eq, vecField_eq, get_flattened, hproperties,
    hrequired, hschema, htype, hextra, decodeProperties_encodeProperties h.ordered]

/-! ### Reading an object schema -/

/-- The properties as they are written back. -/
theorem properties_object {m : Map} (h : ObjectSchema m)
    (hbool : ¬ BooleanProperty (.object m)) :
    ∃ es : List (String × Map),
      decodeProperties (m.get "properties") = some (Entries.sorted es) ∧
        Option.Rel Alike (keyword m "properties")
          ((encodeProperties (Entries.sorted es)).filter fun v =>
            !saysNothing "properties" v) := by
  cases hget : m.get "properties" with
  | none =>
      refine ⟨[], rfl, ?_⟩
      rw [keyword_eq, hget]
      exact .none
  | some v =>
      obtain ⟨ps, rfl, hnodup, hsubs⟩ := h.properties v hget
      obtain ⟨es, rfl⟩ : ∃ es : List (String × Map),
          ps = es.map fun e => (e.1, .object e.2) := by
        refine exists_subschemas fun e he => ?_
        rcases hsubs e he with hsub | ⟨b, hb⟩
        · exact hsub
        · exact absurd ⟨ps, hget, e, he, b, hb⟩ hbool
      have hkeys : (es.map Prod.fst).Nodup := by
        have hfst : Map.keys (es.map fun e => (e.1, Value.object e.2)) = es.map Prod.fst := by
          rw [Map.keys, List.map_map]
          rfl
        rw [← hfst]
        exact hnodup
      refine ⟨es, decodeProperties_object es, ?_⟩
      rw [keyword_eq, hget]
      cases es with
      | nil => exact .none
      | cons e es =>
          have hne : Entries.sorted (e :: es) ≠ [] := by
            rw [Ne, Entries.sorted_eq_nil_iff hkeys]
            exact List.cons_ne_nil _ _
          have hleft : (some (Value.object ((e :: es).map fun e => (e.1, .object e.2)))).filter
              (fun v => !saysNothing "properties" v) =
                some (.object ((e :: es).map fun e => (e.1, .object e.2))) := by
            simp [Option.filter, saysNothing]
          have hright : (encodeProperties (Entries.sorted (e :: es))).filter
              (fun v => !saysNothing "properties" v) =
                some (.object ((Entries.sorted (e :: es)).map fun e => (e.1, .object e.2))) := by
            rw [encodeProperties, if_neg (by simpa using hne)]
            simp [Option.filter, saysNothing, hne]
          rw [hleft, hright]
          refine .some (.object fun key => ?_)
          rw [get_map_object, get_map_object, Entries.get_sorted hkeys]
          exact alikeOption_refl _

theorem required_object {m : Map} (h : ObjectSchema m) :
    ∃ rs : List String, vecField m "required" Value.asStr = some rs ∧
      keyword m "required" =
        (skipEmpty Value.string rs).filter fun v => !saysNothing "required" v := by
  cases hget : m.get "required" with
  | none => exact ⟨[], by rw [vecField_eq, hget]; rfl, by rw [keyword_eq, hget]; rfl⟩
  | some v =>
      obtain ⟨rs, rfl⟩ := h.required v hget
      refine ⟨rs, ?_, ?_⟩
      · rw [vecField_eq, hget]
        exact (decodeVec_encodeVec fun x _ => reads_string x).trans (by rw [List.map_id])
      · rw [keyword_eq, hget]
        cases rs with
        | nil => rfl
        | cons r rs => rfl

/-- **Schemas without boolean properties** are read, and written back the same up
to the order of the properties. -/
theorem decode_object {m : Map} (h : ObjectSchema m) (hbool : ¬ BooleanProperty (.object m)) :
    ∃ s, decode (.object m) = some s ∧ s.Normal ∧ SameSchema (.object m) s.encode := by
  obtain ⟨o, ho⟩ := optional_schema h
  have havoids := avoids_flattenedExtra names h.nodup
  obtain ⟨es, hproperties, hsame⟩ := properties_object h hbool
  obtain ⟨rs, hrequired, hsameRequired⟩ := required_object h
  refine ⟨⟨Entries.sorted es, rs, o, "object", flattenedExtra names m⟩, ?_,
    ⟨Entries.pairwise_sorted es, havoids⟩, ?_⟩
  · simp [decode, optionField_eq, stringField_eq, h.type, ho, hproperties, hrequired]
  · rw [encode_eq havoids]
    refine ⟨m, _, rfl, rfl, fun key => ?_⟩
    rw [keyword_eq (record _ ++ _) key, get_flattened, get_flattenedExtra]
    by_cases h1 : "properties" = key
    · subst h1
      simpa [names] using hsame
    · by_cases h2 : "required" = key
      · subst h2
        rw [hsameRequired]
        simpa [names] using alikeOption_refl _
      · have hget : (Map.get (record [("properties", encodeProperties (Entries.sorted es)),
            ("required", skipEmpty .string rs), ("$schema", o.map .string),
            ("type", some (.string "object"))]) key).or
              (if key ∈ names then none else m.get key) = m.get key := by
          by_cases h3 : "$schema" = key
          · subst h3
            simp [names, ho]
          · by_cases h4 : "type" = key
            · subst h4
              simp [names, h.type]
            · simp [names, h1, h2, h3, h4, Ne.symm h1, Ne.symm h2, Ne.symm h3, Ne.symm h4]
        rw [hget, ← keyword_eq]
        exact alikeOption_refl _

theorem decode_of_boolean {m : Map} (hbool : BooleanProperty (.object m)) :
    decode (.object m) = none := by
  obtain ⟨ps, hps, e, he, b, hb⟩ := hbool
  have hget : m.get "properties" = some (.object ps) := hps
  simp [decode, hget, decodeProperties_of_bool he hb]

end ToolSchema

end Wire.Legacy

/-! ## Tools -/

namespace Wire

@[simp] theorem optional_toolAnnotations (o : Option ToolAnnotations) :
    optional ToolAnnotations.decode (o.map ToolAnnotations.encode) = some o := by
  rw [optional_map ToolAnnotations.reads fun _ => Value.struct_ne_null _, Option.map_id, id_eq]

@[simp] theorem optional_toolExecution (o : Option Legacy.ToolExecution) :
    optional Legacy.ToolExecution.decode (o.map Legacy.ToolExecution.encode) = some o := by
  rw [optional_map Legacy.ToolExecution.reads fun _ => Value.struct_ne_null _, Option.map_id,
    id_eq]

/-- The schemas are as decoding leaves them. -/
structure Draft.Tool.Normal (t : Draft.Tool) : Prop where
  input : Avoids Draft.ToolInputSchema.names t.inputSchema.extra
  output : ∀ s ∈ t.outputSchema, Avoids Draft.ToolOutputSchema.names s.extra

theorem Draft.Tool.decode_encode {t : Draft.Tool} (h : t.Normal) : decode t.encode = some t := by
  have houtput : optional ToolOutputSchema.decode (t.outputSchema.map ToolOutputSchema.encode) =
      some t.outputSchema := by
    rw [optional_map_of_mem (f := id) ToolOutputSchema.encode_ne_null
      fun s hs => ToolOutputSchema.decode_encode (h.output s hs), Option.map_id, id_eq]
  simp [decode, encode, orEmpty_skipEmpty Icon.reads, MetaWire.draft.decode_encode,
    ToolInputSchema.decode_encode h.input, houtput]

structure Legacy.Tool.Normal (t : Legacy.Tool) : Prop where
  input : t.inputSchema.Normal
  output : ∀ s ∈ t.outputSchema, s.Normal

theorem Legacy.Tool.decode_encode {t : Legacy.Tool} (h : t.Normal) :
    decode t.encode = some t := by
  have houtput : optional ToolSchema.decode (t.outputSchema.map ToolSchema.encode) =
      some t.outputSchema := by
    rw [optional_map_of_mem (f := id) ToolSchema.encode_ne_null
      fun s hs => ToolSchema.decode_encode (h.output s hs), Option.map_id, id_eq]
  simp [decode, encode, orEmpty_skipEmpty Icon.reads, MetaWire.legacy.decode_encode,
    ToolSchema.decode_encode h.input, houtput]

end Wire

namespace Neutral

def Tool.draftWire (t : Tool) : Value := t.toDraft.encode

/-- The tool as a client of the draft sees it. -/
def Tool.draftBack (t : Tool) : Option Tool := (Wire.Draft.Tool.decode t.draftWire).map ofDraft

def Tool.legacyWire (t : Tool) : Value := t.toLegacy.encode

def Tool.legacyBack (t : Tool) : Option Tool :=
  (Wire.Legacy.Tool.decode t.legacyWire).map ofLegacy

/-! ### In a listing -/

namespace ListToolsResult

def draftWire (r : ListToolsResult) : Value := r.toDraft.encode

def draftBack (r : ListToolsResult) : Option ListToolsResult :=
  (Wire.Draft.ListToolsResult.decode r.draftWire).map ofDraft

def legacyWire (r : ListToolsResult) : Value := r.toLegacy.encode

def legacyBack (r : ListToolsResult) : Option ListToolsResult :=
  (Wire.Legacy.ListToolsResult.decode r.legacyWire).map ofLegacy

/-- A listing shows its tools as they are written one by one, and a client gets
of it what it gets of them. -/
structure OneByOne (r : ListToolsResult) (toolWire : Tool → Value) (toolBack : Tool → Option Tool)
    (wire : Value) (back : Option ListToolsResult) : Prop where
  advertised : wire.get "tools" = some (.array (r.tools.map toolWire))
  readBack : back.map (·.tools) = r.tools.mapM toolBack

theorem oneByOne_draft (r : ListToolsResult) :
    r.OneByOne Tool.draftWire Tool.draftBack r.draftWire r.draftBack := by
  have hwire : encodeVec Wire.Draft.Tool.encode (r.tools.map Tool.toDraft) =
      .array (r.tools.map Tool.draftWire) := by
    rw [encodeVec, List.map_map]
    rfl
  constructor
  · simp [draftWire, toDraft, Wire.Draft.ListToolsResult.encode, Value.struct, hwire,
      -List.map_map]
  · have hread : decodeVec Wire.Draft.Tool.decode (.array (r.tools.map Tool.draftWire)) =
        (r.tools.map Tool.draftWire).mapM Wire.Draft.Tool.decode := rfl
    unfold draftBack draftWire Tool.draftBack
    rw [← mapM_map_map, Option.map_map]
    cases hdecode : (r.tools.map Tool.draftWire).mapM Wire.Draft.Tool.decode with
    | none =>
        simp [toDraft, Wire.Draft.ListToolsResult.encode, Wire.Draft.ListToolsResult.decode,
          CacheScope.decode_toValue, Value.asU64, hwire, hread, hdecode, -List.map_map,
          -List.mapM_map]
    | some ts =>
        simp [toDraft, Wire.Draft.ListToolsResult.encode, Wire.Draft.ListToolsResult.decode,
          CacheScope.decode_toValue, Value.asU64, hwire, hread, hdecode, ofDraft, -List.map_map,
          -List.mapM_map]

theorem oneByOne_legacy (r : ListToolsResult) :
    r.OneByOne Tool.legacyWire Tool.legacyBack r.legacyWire r.legacyBack := by
  have hwire : encodeVec Wire.Legacy.Tool.encode (r.tools.map Tool.toLegacy) =
      .array (r.tools.map Tool.legacyWire) := by
    rw [encodeVec, List.map_map]
    rfl
  constructor
  · simp [legacyWire, toLegacy, Wire.Legacy.ListToolsResult.encode, Value.struct, hwire,
      -List.map_map]
  · have hread : decodeVec Wire.Legacy.Tool.decode (.array (r.tools.map Tool.legacyWire)) =
        (r.tools.map Tool.legacyWire).mapM Wire.Legacy.Tool.decode := rfl
    unfold legacyBack legacyWire Tool.legacyBack
    rw [← mapM_map_map, Option.map_map]
    cases hdecode : (r.tools.map Tool.legacyWire).mapM Wire.Legacy.Tool.decode with
    | none =>
        simp [toLegacy, Wire.Legacy.ListToolsResult.encode, Wire.Legacy.ListToolsResult.decode,
          hwire, hread, hdecode, -List.map_map, -List.mapM_map]
    | some ts =>
        simp [toLegacy, Wire.Legacy.ListToolsResult.encode, Wire.Legacy.ListToolsResult.decode,
          hwire, hread, hdecode, ofLegacy, -List.map_map, -List.mapM_map]

end ListToolsResult

/-! ### Survival -/

/-- The advertised schemas, and those of the client's tool, are the declared
ones. -/
structure SchemasSurvive (t : Tool) (wire : Value) (back : Option Tool) : Prop where
  input : ∃ v, wire.get "inputSchema" = some v ∧ SameSchema t.inputSchema v
  output : Option.Rel SameSchema t.outputSchema (wire.get "outputSchema")
  client : ∃ t', back = some t' ∧ SameSchema t.inputSchema t'.inputSchema ∧
    Option.Rel SameSchema t.outputSchema t'.outputSchema

theorem get_draftWire (t : Tool) :
    t.draftWire.get "inputSchema" = some t.toDraft.inputSchema.encode ∧
      t.draftWire.get "outputSchema" =
        t.toDraft.outputSchema.map Wire.Draft.ToolOutputSchema.encode := by
  simp [Tool.draftWire, Wire.Draft.Tool.encode, Value.struct]

theorem get_legacyWire (t : Tool) :
    t.legacyWire.get "inputSchema" = some t.toLegacy.inputSchema.encode ∧
      t.legacyWire.get "outputSchema" =
        t.toLegacy.outputSchema.map Wire.Legacy.ToolSchema.encode := by
  simp [Tool.legacyWire, Wire.Legacy.Tool.encode, Value.struct]

/-- A draft tool keeps what its schemas encode to. -/
theorem draft_survives {t : Tool} (hin : IsObjectSchema t.inputSchema)
    (hout : ∀ v ∈ t.outputSchema, IsObjectSchema v) :
    SchemasSurvive t t.draftWire t.draftBack := by
  obtain ⟨m, hm, hobj⟩ := hin
  obtain ⟨s, m', hdecode, havoids, hencode, hget⟩ := Wire.Draft.ToolInputSchema.decode_object hobj
  have hinput : t.toDraft.inputSchema = s := by
    rw [Tool.toDraft, hm, hdecode]
    rfl
  have hsame : SameSchema t.inputSchema t.toDraft.inputSchema.encode := by
    rw [hinput, hencode, hm]
    exact sameSchema_of_get fun key => (hget key).symm
  have houtput : (∀ s ∈ t.toDraft.outputSchema,
      Avoids Wire.Draft.ToolOutputSchema.names s.extra) ∧
      Option.Rel SameSchema t.outputSchema
        (t.toDraft.outputSchema.map Wire.Draft.ToolOutputSchema.encode) := by
    rw [Tool.toDraft]
    cases ho : t.outputSchema with
    | none => exact ⟨nofun, .none⟩
    | some v =>
        obtain ⟨mo, rfl, hobjo⟩ := hout v ho
        obtain ⟨so, mo', hdecodeo, havoidso, hencodeo, hgeto⟩ :=
          Wire.Draft.ToolOutputSchema.decode_object hobjo
        rw [Option.bind_some, hdecodeo, Option.map_some, hencodeo]
        constructor
        · intro s' hs'
          obtain rfl := Option.some.inj hs'
          exact havoidso
        · exact .some (sameSchema_of_get fun key => (hgeto key).symm)
  have hnormal : t.toDraft.Normal := ⟨hinput ▸ havoids, houtput.1⟩
  refine ⟨⟨_, (get_draftWire t).1, hsame⟩, ?_, ?_⟩
  · rw [(get_draftWire t).2]
    exact houtput.2
  · refine ⟨.ofDraft t.toDraft, ?_, hsame, houtput.2⟩
    rw [Tool.draftBack, Tool.draftWire, Wire.Draft.Tool.decode_encode hnormal]
    rfl

/-- The schema of any object says nothing about properties. -/
theorem not_sameSchema_anyObject {v : Value} (hbool : BooleanProperty v) :
    ¬ SameSchema v (.object [("type", .string "object")]) := by
  rintro ⟨m, m', rfl, hm', hsame⟩
  obtain ⟨ps, hps, e, he, -⟩ := hbool
  have hget : Map.get m "properties" = some (.object ps) := hps
  have hne : ps ≠ [] := List.ne_nil_of_mem he
  have hkey := hsame "properties"
  have hleft : keyword m "properties" = some (.object ps) := by
    rw [keyword_eq, hget]
    simp [Option.filter, saysNothing, hne]
  have hright : keyword m' "properties" = none := by
    obtain rfl := Value.object.inj hm'
    rfl
  rw [hleft, hright] at hkey
  cases hkey

/-- The input schema of a legacy tool. -/
theorem legacy_input {t : Tool} (hin : IsObjectSchema t.inputSchema) :
    t.toLegacy.inputSchema.Normal ∧
      (SameSchema t.inputSchema t.toLegacy.inputSchema.encode ↔
        ¬ BooleanProperty t.inputSchema) := by
  obtain ⟨m, hm, hobj⟩ := hin
  rw [Tool.toLegacy, hm]
  by_cases hbool : BooleanProperty (.object m)
  · rw [Wire.Legacy.ToolSchema.decode_of_boolean hbool]
    refine ⟨⟨List.Pairwise.nil, avoids_empty _⟩, ?_⟩
    exact iff_of_false (not_sameSchema_anyObject hbool) (not_not_intro hbool)
  · obtain ⟨s, hdecode, hnormal, hsame⟩ := Wire.Legacy.ToolSchema.decode_object hobj hbool
    rw [hdecode]
    exact ⟨hnormal, iff_of_true hsame hbool⟩

theorem legacy_output {t : Tool} (hout : ∀ v ∈ t.outputSchema, IsObjectSchema v) :
    (∀ s ∈ t.toLegacy.outputSchema, s.Normal) ∧
      (Option.Rel SameSchema t.outputSchema
          (t.toLegacy.outputSchema.map Wire.Legacy.ToolSchema.encode) ↔
        ∀ v ∈ t.outputSchema, ¬ BooleanProperty v) := by
  rw [Tool.toLegacy]
  cases ho : t.outputSchema with
  | none => exact ⟨nofun, iff_of_true .none nofun⟩
  | some v =>
      obtain ⟨m, rfl, hobj⟩ := hout v ho
      rw [Option.bind_some]
      by_cases hbool : BooleanProperty (.object m)
      · rw [Wire.Legacy.ToolSchema.decode_of_boolean hbool]
        refine ⟨nofun, iff_of_false ?_ fun h => h _ rfl hbool⟩
        rintro ⟨⟩
      · obtain ⟨s, hdecode, hnormal, hsame⟩ := Wire.Legacy.ToolSchema.decode_object hobj hbool
        rw [hdecode]
        constructor
        · intro s' hs'
          obtain rfl := Option.some.inj hs'
          exact hnormal
        · refine iff_of_true (.some hsame) fun v' hv' => ?_
          obtain rfl := Option.some.inj hv'
          exact hbool

/-- A tool with one argument, whose schema is `payload`. -/
def echo (payload : Value) : Tool :=
  { name := "echo"
    title := none
    description := none
    inputSchema := .object
      [("type", .string "object"), ("properties", .object [("payload", payload)]),
        ("required", .array [.string "payload"])]
    outputSchema := none
    taskSupport := none
    annotations := none
    icons := []
    meta_ := Map.empty }

theorem isObjectSchema_echo {payload : Value}
    (h : (∃ sub, payload = .object sub) ∨ ∃ b, payload = .bool b) :
    IsObjectSchema (echo payload).inputSchema := by
  have hkeys : ["type", "properties", "required"].Nodup := by decide
  refine ⟨_, rfl, hkeys, rfl, ?_, ?_, ?_⟩
  · intro v hv
    cases hv
  · intro v hv
    obtain rfl := Option.some.inj hv
    exact ⟨["payload"], rfl⟩
  · intro v hv
    obtain rfl := Option.some.inj hv
    refine ⟨_, rfl, List.nodup_singleton _, ?_⟩
    intro e he
    obtain rfl := List.mem_singleton.mp he
    exact h

end Neutral

end TurboMcp.Protocol
