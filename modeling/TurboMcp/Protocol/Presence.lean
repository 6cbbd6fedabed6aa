import TurboMcp.Protocol.Listings

/-!
# Presence across the wires

What is absent and what is there but empty are told apart by most of the neutral
fields that distinguish them.  The legacy wire has a map where the neutral result
of a tool has an optional object, and reads an empty one as none.
-/

namespace TurboMcp.Protocol

open TurboMcp.Core TurboMcp.Lib

/-! ## Schemas read -/

theorem get_foldl_insert_of_not_mem {extra : Map} {key : String} (h : key ∉ extra.keys) :
    ∀ m : Map, Map.get (extra.foldl (fun m e => Map.insert m e.1 e.2) m) key = m.get key := by
  induction extra with
  | nil => exact fun m => rfl
  | cons e extra ih =>
      intro m
      have hne : e.1 ≠ key := fun he => h (he ▸ List.mem_cons_self)
      rw [List.foldl_cons, ih (fun hmem => h (List.mem_cons_of_mem _ hmem)), Map.get_insert,
        if_neg hne]

theorem not_mem_keys_flattenedExtra {names : List String} {name : String} (h : name ∈ names)
    (m : Map) : name ∉ (flattenedExtra names m).keys := by
  intro hmem
  obtain ⟨e, he, rfl⟩ := List.mem_map.mp hmem
  exact of_decide_eq_true (List.mem_filter.mp he).2 h

namespace Wire

/-- No named keyword among the others. -/
def Apart (names : List String) (extra : Map) : Prop := ∀ name ∈ names, name ∉ extra.keys

namespace Draft

theorem ToolInputSchema.apart_of_decode {v : Value} {s : ToolInputSchema}
    (h : decode v = some s) : Apart names s.extra := by
  simp only [decode, Option.bind_eq_bind, Option.bind_eq_some_iff] at h
  obtain ⟨m, -, schema, -, type_, -, hs⟩ := h
  obtain rfl := Option.some.inj hs
  exact fun name hname => not_mem_keys_flattenedExtra hname m

theorem ToolInputSchema.exists_decode {s : ToolInputSchema} (h : Apart names s.extra) :
    ∃ s', decode s.encode = some s' := by
  have hschema := get_foldl_insert_of_not_mem (h "$schema" (by decide))
  have htype := get_foldl_insert_of_not_mem (h "type" (by decide))
  simp [encode, decode, Value.flattened, Value.asObject, optionField_eq, stringField_eq, hschema,
    htype, Value.asStr]

theorem ToolOutputSchema.apart_of_decode {v : Value} {s : ToolOutputSchema}
    (h : decode v = some s) : Apart names s.extra := by
  simp only [decode, Option.bind_eq_bind, Option.bind_eq_some_iff] at h
  obtain ⟨m, -, schema, -, hs⟩ := h
  obtain rfl := Option.some.inj hs
  exact fun name hname => not_mem_keys_flattenedExtra hname m

theorem ToolOutputSchema.exists_decode {s : ToolOutputSchema} (h : Apart names s.extra) :
    ∃ s', decode s.encode = some s' := by
  have hschema := get_foldl_insert_of_not_mem (h "$schema" (by decide))
  simp [encode, decode, Value.flattened, Value.asObject, optionField_eq, hschema]

end Draft

namespace Legacy.ToolSchema

theorem apart_of_decode {v : Value} {s : ToolSchema} (h : decode v = some s) :
    Apart names s.extra := by
  simp only [decode, Option.bind_eq_bind, Option.bind_eq_some_iff] at h
  obtain ⟨m, -, properties, -, required, -, schema, -, type_, -, hs⟩ := h
  obtain rfl := Option.some.inj hs
  exact fun name hname => not_mem_keys_flattenedExtra hname m

theorem exists_decodeProperties (ps : List (String × Map)) :
    ∃ ps', decodeProperties (encodeProperties ps) = some ps' := by
  cases ps with
  | nil => exact ⟨[], rfl⟩
  | cons p ps => exact ⟨_, decodeProperties_object (p :: ps)⟩

theorem exists_decode {s : ToolSchema} (h : Apart names s.extra) :
    ∃ s', decode s.encode = some s' := by
  have hproperties := get_foldl_insert_of_not_mem (h "properties" (by decide))
  have hrequired := get_foldl_insert_of_not_mem (h "required" (by decide))
  have hschema := get_foldl_insert_of_not_mem (h "$schema" (by decide))
  have htype := get_foldl_insert_of_not_mem (h "type" (by decide))
  obtain ⟨ps, hps⟩ := exists_decodeProperties s.properties
  simp [encode, decode, Value.flattened, Value.asObject, optionField_eq, stringField_eq,
    vecField_eq, hproperties, hrequired, hschema, htype, hps, Value.asStr]

end Legacy.ToolSchema

/-- An optional schema is read where each that may be there is. -/
theorem exists_optional {α β : Type} {dec : Value → Option β} {enc : α → Value} {o : Option α}
    (hnull : ∀ a, enc a ≠ .null) (h : ∀ a ∈ o, ∃ b, dec (enc a) = some b) :
    ∃ o', optional dec (o.map enc) = some o' := by
  cases o with
  | none => exact ⟨none, rfl⟩
  | some a =>
      obtain ⟨b, hb⟩ := h a rfl
      exact ⟨some b, by rw [Option.map_some, optional_some (hnull a), hb]; rfl⟩

/-! ## Pages read -/

theorem Draft.Page.decode_encode {α : Type} {field : String} {enc : α → Value}
    {dec : Value → Option α} {f : α → α} {p : Page α}
    (hfield : field ∉ ["cacheScope", "_meta", "nextCursor", "resultType", "ttlMs"])
    (hmeta : p.meta_ = none) (h : ∀ x ∈ p.items, dec (enc x) = some (f x)) :
    decode field dec (encode field enc p) = some { p with items := p.items.map f } := by
  simp only [List.mem_cons, List.not_mem_nil, or_false, not_or] at hfield
  obtain ⟨hscope, hmetaField, hcursor, htype, httl⟩ := hfield
  simp [decode, encode, hscope, hmetaField, hcursor, htype, httl, Ne.symm hscope,
    Ne.symm hmetaField, Ne.symm hcursor, Ne.symm htype, Ne.symm httl, hmeta,
    Neutral.CacheScope.decode_toValue, decodeVec_encodeVec h, Value.asU64, Value.asStr]

theorem Legacy.Page.decode_encode {α : Type} {field : String} {enc : α → Value}
    {dec : Value → Option α} {f : α → α} {p : Page α}
    (hfield : field ∉ ["_meta", "nextCursor"])
    (h : ∀ x ∈ p.items, dec (enc x) = some (f x)) :
    decode field dec (encode field enc p) = some { p with items := p.items.map f } := by
  simp only [List.mem_cons, List.not_mem_nil, or_false, not_or] at hfield
  obtain ⟨hmeta, hcursor⟩ := hfield
  simp [decode, encode, hmeta, hcursor, Ne.symm hmeta, Ne.symm hcursor, decodeVec_encodeVec h]

end Wire

/-! ## Records there and back -/

/-- The two families of wire types. -/
inductive WireVersion
  | draft
  | legacy
  deriving DecidableEq

def WireVersion.metaWire : WireVersion → Wire.MetaWire
  | draft => .draft
  | legacy => .legacy

/-- The cache hints of a page that come back. -/
def WireVersion.cacheBack : WireVersion → Option CachePolicy → Option CachePolicy
  | draft, cache => some (cache.getD .noCache)
  | legacy, _ => none

namespace Neutral

/-- The priority, if there is one, is a number of JSON's. -/
def FinitePriority (o : Option Annotations) : Prop :=
  ∀ a ∈ o, ∀ p ∈ a.priority, p.isFinite = true

section

variable (w : Wire.MetaWire)

/-! ### Resources -/

/-- To the wire type, to JSON and back. -/
def Resource.roundTrip (r : Resource) : Option Resource :=
  (Wire.Resource.decode (w := w) (r.toWire w).encode).map ofWire

/-- The resource that comes back. -/
def Resource.reread (r : Resource) : Resource :=
  { r with annotations := r.annotations.map Annotations.reread }

theorem Resource.decode_toWire (r : Resource) :
    Wire.Resource.decode (r.toWire w).encode = some (r.toWire w).reread := by
  apply Wire.Resource.decode_encode
  intro n hn
  obtain ⟨s, -, rfl⟩ := Option.map_eq_some_iff.mp hn
  exact sizeToWire_lt s

theorem Resource.ofWire_reread {r : Resource} (h : r.SizeFits) :
    ofWire (r.toWire w).reread = r.reread := by
  have hsize : (r.size.map sizeToWire).map sizeOfWire = r.size := by
    cases hs : r.size with
    | none => rfl
    | some s => exact congrArg some (sizeOfWire_sizeToWire (h s hs))
  simp [toWire, Wire.Resource.reread, ofWire, reread, annotations_ofWire_reread, w.toMap_ofMap,
    hsize, map_ofWire_toWire Icon.ofWire_toWire, -Option.map_map, -List.map_map]

theorem Resource.roundTrip_eq {r : Resource} (h : r.SizeFits) :
    r.roundTrip w = some r.reread := by
  rw [roundTrip, decode_toWire, Option.map_some, ofWire_reread w h]

theorem Resource.reread_eq_self_iff (r : Resource) :
    r.reread = r ↔ FinitePriority r.annotations := by
  rw [FinitePriority, ← annotations_reread_eq_self_iff]
  obtain ⟨uri, name, title, description, mimeType, size, annotations, icons, meta_⟩ := r
  simp [reread]

/-! ### Resource templates -/

def ResourceTemplate.roundTrip (t : ResourceTemplate) : Option ResourceTemplate :=
  (Wire.ResourceTemplate.decode (w := w) (t.toWire w).encode).map ofWire

/-- The template that comes back. -/
def ResourceTemplate.reread (t : ResourceTemplate) : ResourceTemplate :=
  { t with annotations := t.annotations.map Annotations.reread }

theorem ResourceTemplate.ofWire_reread (t : ResourceTemplate) :
    ofWire (t.toWire w).reread = t.reread := by
  simp [toWire, Wire.ResourceTemplate.reread, ofWire, reread, annotations_ofWire_reread,
    w.toMap_ofMap, map_ofWire_toWire Icon.ofWire_toWire, -Option.map_map, -List.map_map]

theorem ResourceTemplate.roundTrip_eq (t : ResourceTemplate) :
    t.roundTrip w = some t.reread := by
  rw [roundTrip, Wire.ResourceTemplate.reads, Option.map_some, ofWire_reread]

theorem ResourceTemplate.reread_eq_self_iff (t : ResourceTemplate) :
    t.reread = t ↔ FinitePriority t.annotations := by
  rw [FinitePriority, ← annotations_reread_eq_self_iff]
  obtain ⟨uriTemplate, name, title, description, mimeType, annotations, icons, meta_⟩ := t
  simp [reread]

/-! ### Prompts -/

def Prompt.roundTrip (p : Prompt) : Option Prompt :=
  (Wire.Prompt.decode (w := w) (p.toWire w).encode).map ofWire

/-- A flag is written whether it is set or not. -/
theorem PromptArgument.ofWire_toWire (a : PromptArgument) : ofWire a.toWire = a := rfl

theorem Prompt.ofWire_toWire (p : Prompt) : ofWire (p.toWire w) = p := by
  simp [toWire, ofWire, w.toMap_ofMap, map_ofWire_toWire Icon.ofWire_toWire,
    map_ofWire_toWire PromptArgument.ofWire_toWire, -List.map_map]

theorem Prompt.roundTrip_eq (p : Prompt) : p.roundTrip w = some p := by
  rw [roundTrip, Wire.Prompt.reads, Option.map_some, id_eq, ofWire_toWire]

end

/-! ### Completions -/

theorem totalOfWire_totalToWire (n : UInt32) : totalOfWire (totalToWire n) = n := by
  have hlt := n.toNat_lt
  unfold totalOfWire totalToWire
  rw [if_pos (by omega), Int.toNat_natCast, UInt32.ofNat_toNat]

theorem CompleteResult.ofCompletion_toCompletion (r : CompleteResult) :
    ofCompletion r.toCompletion = r := by
  simp only [ofCompletion, toCompletion, optionMap_ofWire_toWire totalOfWire_totalToWire]

theorem CompleteResult.decode_toCompletion (r : CompleteResult) :
    Wire.CompleteResultCompletion.decode r.toCompletion.encode = some r.toCompletion := by
  apply Wire.CompleteResultCompletion.decode_encode
  intro n hn
  obtain ⟨total, -, rfl⟩ := Option.map_eq_some_iff.mp hn
  have hlt := total.toNat_lt
  show (total.toNat : Int) < 2 ^ 63
  omega

def CompleteResult.roundTrip : WireVersion → CompleteResult → Option CompleteResult
  | .draft, r => (Wire.Draft.CompleteResult.decode r.toDraft.encode).map ofDraft
  | .legacy, r => (Wire.Legacy.CompleteResult.decode r.toLegacy.encode).map ofLegacy

theorem CompleteResult.roundTrip_eq (v : WireVersion) (r : CompleteResult) :
    r.roundTrip v = some r := by
  cases v with
  | draft =>
      simp [roundTrip, toDraft, Wire.Draft.CompleteResult.encode,
        Wire.Draft.CompleteResult.decode, decode_toCompletion, ofDraft, Value.asStr,
        ofCompletion_toCompletion]
  | legacy =>
      simp [roundTrip, toLegacy, Wire.Legacy.CompleteResult.encode,
        Wire.Legacy.CompleteResult.decode, decode_toCompletion, ofLegacy,
        ofCompletion_toCompletion]

/-! ### Tools -/

def Tool.roundTrip : WireVersion → Tool → Option Tool
  | .draft, t => t.draftBack
  | .legacy, t => t.legacyBack

/-- A tool but for its schemas and, on the draft, its task support. -/
def Tool.facts (v : WireVersion) (t : Tool) : Tool :=
  { t with
    inputSchema := .null
    outputSchema := none
    taskSupport := if v = .draft then none else t.taskSupport }

theorem ToolAnnotations.ofWire_toWire (a : ToolAnnotations) : ofWire a.toWire = a := rfl

theorem TaskSupport.ofWire_toWire (s : TaskSupport) : ofWire s.toWire = s := by
  cases s <;> rfl

/-- Whatever its schemas are, a tool is read. -/
theorem Tool.exists_draft (t : Tool) :
    ∃ wire, Wire.Draft.Tool.decode t.draftWire = some wire ∧
      (ofDraft wire).facts .draft = t.facts .draft := by
  have hinput : ∃ s, Wire.Draft.ToolInputSchema.decode t.toDraft.inputSchema.encode = some s := by
    apply Wire.Draft.ToolInputSchema.exists_decode
    show Wire.Apart _ ((Wire.Draft.ToolInputSchema.decode t.inputSchema).getD _).extra
    cases hdecode : Wire.Draft.ToolInputSchema.decode t.inputSchema with
    | none => exact fun _ _ => List.not_mem_nil
    | some s => exact Wire.Draft.ToolInputSchema.apart_of_decode hdecode
  have houtput : ∃ o, optional Wire.Draft.ToolOutputSchema.decode
      (t.toDraft.outputSchema.map Wire.Draft.ToolOutputSchema.encode) = some o := by
    apply Wire.exists_optional Wire.Draft.ToolOutputSchema.encode_ne_null
    intro s hs
    obtain ⟨v, -, hdecode⟩ := Option.bind_eq_some_iff.mp hs
    exact Wire.Draft.ToolOutputSchema.exists_decode
      (Wire.Draft.ToolOutputSchema.apart_of_decode hdecode)
  obtain ⟨input, hinput⟩ := hinput
  obtain ⟨output, houtput⟩ := houtput
  refine ⟨{ t.toDraft with inputSchema := input, outputSchema := output }, ?_, ?_⟩
  · simp [Tool.draftWire, Wire.Draft.Tool.encode, Wire.Draft.Tool.decode, hinput, houtput,
      orEmpty_skipEmpty Wire.Icon.reads, Wire.MetaWire.draft.decode_encode, Value.asStr]
  · simp [Tool.facts, ofDraft, toDraft, Wire.MetaWire.draft.toMap_ofMap,
      map_ofWire_toWire Icon.ofWire_toWire, optionMap_ofWire_toWire ToolAnnotations.ofWire_toWire,
      -Option.map_map, -List.map_map]

theorem Tool.exists_legacy (t : Tool) :
    ∃ wire, Wire.Legacy.Tool.decode t.legacyWire = some wire ∧
      (ofLegacy wire).facts .legacy = t.facts .legacy := by
  have hinput : ∃ s, Wire.Legacy.ToolSchema.decode t.toLegacy.inputSchema.encode = some s := by
    apply Wire.Legacy.ToolSchema.exists_decode
    show Wire.Apart _ ((Wire.Legacy.ToolSchema.decode t.inputSchema).getD _).extra
    cases hdecode : Wire.Legacy.ToolSchema.decode t.inputSchema with
    | none => exact fun _ _ => List.not_mem_nil
    | some s => exact Wire.Legacy.ToolSchema.apart_of_decode hdecode
  have houtput : ∃ o, optional Wire.Legacy.ToolSchema.decode
      (t.toLegacy.outputSchema.map Wire.Legacy.ToolSchema.encode) = some o := by
    apply Wire.exists_optional Wire.Legacy.ToolSchema.encode_ne_null
    intro s hs
    obtain ⟨v, -, hdecode⟩ := Option.bind_eq_some_iff.mp hs
    exact Wire.Legacy.ToolSchema.exists_decode (Wire.Legacy.ToolSchema.apart_of_decode hdecode)
  have htask : ((t.toLegacy.execution.bind (·.taskSupport)).map TaskSupport.ofWire) =
      t.taskSupport := by
    rw [Tool.toLegacy]
    cases t.taskSupport with
    | none => rfl
    | some s => exact congrArg some (TaskSupport.ofWire_toWire s)
  obtain ⟨input, hinput⟩ := hinput
  obtain ⟨output, houtput⟩ := houtput
  refine ⟨{ t.toLegacy with inputSchema := input, outputSchema := output }, ?_, ?_⟩
  · simp [Tool.legacyWire, Wire.Legacy.Tool.encode, Wire.Legacy.Tool.decode, hinput, houtput,
      orEmpty_skipEmpty Wire.Icon.reads, Wire.MetaWire.legacy.decode_encode, Value.asStr]
  · simp only [Tool.facts, ofLegacy, htask]
    simp [toLegacy, Wire.MetaWire.legacy.toMap_ofMap, map_ofWire_toWire Icon.ofWire_toWire,
      optionMap_ofWire_toWire ToolAnnotations.ofWire_toWire, -Option.map_map, -List.map_map]

theorem Tool.facts_roundTrip (v : WireVersion) (t : Tool) :
    (t.roundTrip v).map (facts v) = some (t.facts v) := by
  cases v with
  | draft =>
      obtain ⟨wire, hwire, hfacts⟩ := t.exists_draft
      rw [roundTrip, draftBack, hwire, Option.map_some, Option.map_some, hfacts]
  | legacy =>
      obtain ⟨wire, hwire, hfacts⟩ := t.exists_legacy
      rw [roundTrip, legacyBack, hwire, Option.map_some, Option.map_some, hfacts]

end Neutral

/-! ## Pages there and back -/

namespace Neutral

theorem decode_draftPage {α : Type} {field : String} {enc : α → Value} {dec : Value → Option α}
    {f : α → α} {cache : Option CachePolicy} {cursor : Option String} {items : List α}
    (hfield : field ∉ ["cacheScope", "_meta", "nextCursor", "resultType", "ttlMs"])
    (h : ∀ x ∈ items, dec (enc x) = some (f x)) :
    Wire.Draft.Page.decode field dec
        (Wire.Draft.Page.encode field enc (draftPage cache cursor items)) =
      some (draftPage cache cursor (items.map f)) :=
  Wire.Draft.Page.decode_encode hfield rfl h

theorem decode_legacyPage {α : Type} {field : String} {enc : α → Value} {dec : Value → Option α}
    {f : α → α} {cursor : Option String} {items : List α}
    (hfield : field ∉ ["_meta", "nextCursor"]) (h : ∀ x ∈ items, dec (enc x) = some (f x)) :
    Wire.Legacy.Page.decode field dec
        (Wire.Legacy.Page.encode field enc ⟨Map.empty, cursor, items⟩) =
      some ⟨Map.empty, cursor, items.map f⟩ :=
  Wire.Legacy.Page.decode_encode hfield h

/-! ### Resources -/

def ListResourcesResult.roundTrip :
    WireVersion → ListResourcesResult → Option ListResourcesResult
  | .draft, r => (Wire.Draft.ListResourcesResult.decode r.toDraft.encode).map ofDraft
  | .legacy, r => (Wire.Legacy.ListResourcesResult.decode r.toLegacy.encode).map ofLegacy

theorem reads_resources (w : Wire.MetaWire) (rs : List Resource) :
    ∀ x ∈ rs.map (Resource.toWire w), Wire.Resource.decode x.encode = some x.reread := by
  intro x hx
  obtain ⟨r, -, rfl⟩ := List.mem_map.mp hx
  exact Resource.decode_toWire w r

theorem map_resource_reread (w : Wire.MetaWire) {rs : List Resource}
    (h : ∀ r ∈ rs, r.SizeFits) :
    ((rs.map (Resource.toWire w)).map Wire.Resource.reread).map Resource.ofWire =
      rs.map Resource.reread := by
  rw [List.map_map, List.map_map]
  exact List.map_congr_left fun r hr => Resource.ofWire_reread w (h r hr)

theorem ListResourcesResult.roundTrip_eq (v : WireVersion) {r : ListResourcesResult}
    (h : ∀ x ∈ r.resources, x.SizeFits) :
    r.roundTrip v =
      some ⟨r.resources.map Resource.reread, r.nextCursor, v.cacheBack r.cache⟩ := by
  cases v with
  | draft =>
      show (Wire.Draft.Page.decode _ _ (Wire.Draft.Page.encode _ _ (draftPage _ _ _))).map _ = _
      rw [decode_draftPage (by decide) (reads_resources .draft r.resources), Option.map_some,
        ← map_resource_reread .draft h]
      rfl
  | legacy =>
      show (Wire.Legacy.Page.decode _ _ (Wire.Legacy.Page.encode _ _ ⟨_, _, _⟩)).map _ = _
      rw [decode_legacyPage (by decide) (reads_resources .legacy r.resources), Option.map_some,
        ← map_resource_reread .legacy h]
      rfl

/-! ### Resource templates -/

def ListResourceTemplatesResult.roundTrip :
    WireVersion → ListResourceTemplatesResult → Option ListResourceTemplatesResult
  | .draft, r => (Wire.Draft.ListResourceTemplatesResult.decode r.toDraft.encode).map ofDraft
  | .legacy, r => (Wire.Legacy.ListResourceTemplatesResult.decode r.toLegacy.encode).map ofLegacy

theorem map_template_reread (w : Wire.MetaWire) (ts : List ResourceTemplate) :
    ((ts.map (ResourceTemplate.toWire w)).map Wire.ResourceTemplate.reread).map
      ResourceTemplate.ofWire = ts.map ResourceTemplate.reread := by
  rw [List.map_map, List.map_map]
  exact List.map_congr_left fun t _ => ResourceTemplate.ofWire_reread w t

theorem ListResourceTemplatesResult.roundTrip_eq (v : WireVersion)
    (r : ListResourceTemplatesResult) :
    r.roundTrip v =
      some ⟨r.resourceTemplates.map ResourceTemplate.reread, r.nextCursor,
        v.cacheBack r.cache⟩ := by
  cases v with
  | draft =>
      show (Wire.Draft.Page.decode _ _ (Wire.Draft.Page.encode _ _ (draftPage _ _ _))).map _ = _
      rw [decode_draftPage (by decide) fun t _ => Wire.ResourceTemplate.reads t,
        Option.map_some, ← map_template_reread .draft]
      rfl
  | legacy =>
      show (Wire.Legacy.Page.decode _ _ (Wire.Legacy.Page.encode _ _ ⟨_, _, _⟩)).map _ = _
      rw [decode_legacyPage (by decide) fun t _ => Wire.ResourceTemplate.reads t,
        Option.map_some, ← map_template_reread .legacy]
      rfl

/-! ### Prompts -/

def ListPromptsResult.roundTrip : WireVersion → ListPromptsResult → Option ListPromptsResult
  | .draft, r => (Wire.Draft.ListPromptsResult.decode r.toDraft.encode).map ofDraft
  | .legacy, r => (Wire.Legacy.ListPromptsResult.decode r.toLegacy.encode).map ofLegacy

theorem map_prompt_reread (w : Wire.MetaWire) (ps : List Prompt) :
    ((ps.map (Prompt.toWire w)).map id).map Prompt.ofWire = ps := by
  rw [List.map_id, map_ofWire_toWire (Prompt.ofWire_toWire w)]

theorem ListPromptsResult.roundTrip_eq (v : WireVersion) (r : ListPromptsResult) :
    r.roundTrip v = some { r with cache := v.cacheBack r.cache } := by
  cases v with
  | draft =>
      show (Wire.Draft.Page.decode _ _ (Wire.Draft.Page.encode _ _ (draftPage _ _ _))).map _ = _
      rw [decode_draftPage (by decide) fun p _ => Wire.Prompt.reads p, Option.map_some]
      show some (ListPromptsResult.mk (((r.prompts.map _).map id).map Prompt.ofWire) _ _) = _
      rw [map_prompt_reread .draft]
      rfl
  | legacy =>
      show (Wire.Legacy.Page.decode _ _ (Wire.Legacy.Page.encode _ _ ⟨_, _, _⟩)).map _ = _
      rw [decode_legacyPage (by decide) fun p _ => Wire.Prompt.reads p, Option.map_some]
      show some (ListPromptsResult.mk (((r.prompts.map _).map id).map Prompt.ofWire) _ _) = _
      rw [map_prompt_reread .legacy]
      rfl

/-! ### Tools -/

def ListToolsResult.roundTrip : WireVersion → ListToolsResult → Option ListToolsResult
  | .draft, r => (Wire.Draft.ListToolsResult.decode r.toDraft.encode).map ofDraft
  | .legacy, r => (Wire.Legacy.ListToolsResult.decode r.toLegacy.encode).map ofLegacy

/-- A page of tools but for their schemas and, on the draft, their task support. -/
def ListToolsResult.facts (v : WireVersion) (r : ListToolsResult) : ListToolsResult :=
  { r with tools := r.tools.map (Tool.facts v) }

theorem ListToolsResult.facts_roundTrip (v : WireVersion) (r : ListToolsResult) :
    (r.roundTrip v).map (facts v) =
      some { r.facts v with cache := v.cacheBack r.cache } := by
  cases v with
  | draft =>
      choose back hread hfacts using Tool.exists_draft
      have hdecode : decodeVec Wire.Draft.Tool.decode
          (encodeVec Wire.Draft.Tool.encode (r.tools.map Tool.toDraft)) =
            some (r.tools.map back) := by
        rw [encodeVec, List.map_map]
        exact decodeVec_encodeVec fun t _ => hread t
      have hmap : ((r.tools.map back).map Tool.ofDraft).map (Tool.facts .draft) =
          r.tools.map (Tool.facts .draft) := by
        rw [List.map_map, List.map_map]
        exact List.map_congr_left fun t _ => hfacts t
      simp [roundTrip, toDraft, Wire.Draft.ListToolsResult.encode,
        Wire.Draft.ListToolsResult.decode, CacheScope.decode_toValue, Value.asU64, Value.asStr,
        hdecode, ofDraft, facts, hmap, WireVersion.cacheBack, -List.map_map]
  | legacy =>
      choose back hread hfacts using Tool.exists_legacy
      have hdecode : decodeVec Wire.Legacy.Tool.decode
          (encodeVec Wire.Legacy.Tool.encode (r.tools.map Tool.toLegacy)) =
            some (r.tools.map back) := by
        rw [encodeVec, List.map_map]
        exact decodeVec_encodeVec fun t _ => hread t
      have hmap : ((r.tools.map back).map Tool.ofLegacy).map (Tool.facts .legacy) =
          r.tools.map (Tool.facts .legacy) := by
        rw [List.map_map, List.map_map]
        exact List.map_congr_left fun t _ => hfacts t
      simp [roundTrip, toLegacy, Wire.Legacy.ListToolsResult.encode,
        Wire.Legacy.ListToolsResult.decode, hdecode, ofLegacy, facts, hmap,
        WireVersion.cacheBack, -List.map_map]

/-! ### Structured results -/

def CallToolResult.roundTrip : WireVersion → CallToolResult → Option CallToolResult
  | .draft, r => r.draftRoundTrip
  | .legacy, r => r.legacyRoundTrip

/-- The structured content that comes back, of one that is absent or an object. -/
def structuredBack : WireVersion → Option Value → Option Value
  | .draft, o => o
  | .legacy, o => o.filter fun v => v ≠ .object Map.empty

theorem CallToolResult.roundTrip_eq (v : WireVersion) {r : CallToolResult}
    (h : ∀ c ∈ r.content, c.SizeFits)
    (hobject : ∀ s ∈ r.structuredContent, ∃ m, s = .object m) :
    r.roundTrip v =
      some ⟨r.content.map Content.reread, r.isError, structuredBack v r.structuredContent⟩ := by
  cases v with
  | draft =>
      have hstructured : r.structuredContent.filter (fun s => !decide (s = .null)) =
          r.structuredContent := by
        cases hs : r.structuredContent with
        | none => rfl
        | some s =>
            obtain ⟨m, rfl⟩ := hobject s hs
            rfl
      simp [roundTrip, draftRoundTrip, toDraft, Wire.Draft.CallToolResult.encode,
        Wire.Draft.CallToolResult.decode, ofDraft, decodeVec_content, map_content_reread _ h,
        structuredBack, hstructured, -List.map_map]
  | legacy =>
      simp [roundTrip, legacyRoundTrip, toLegacy, Wire.Legacy.CallToolResult.encode,
        Wire.Legacy.CallToolResult.decode, ofLegacy, decodeVec_content,
        map_content_reread _ h, -List.map_map]
      cases hs : r.structuredContent with
      | none => rfl
      | some s =>
          obtain ⟨m, rfl⟩ := hobject s hs
          cases m <;> rfl

/-! ## Survival -/

/-- What a server lists, a page of it, or a result. -/
inductive Payload
  | tool (t : Tool)
  | resource (r : Resource)
  | resourceTemplate (t : ResourceTemplate)
  | prompt (p : Prompt)
  | tools (r : ListToolsResult)
  | resources (r : ListResourcesResult)
  | resourceTemplates (r : ListResourceTemplatesResult)
  | prompts (r : ListPromptsResult)
  | completion (r : CompleteResult)
  | toolResult (r : CallToolResult)
  deriving DecidableEq

namespace Payload

/-- To the wire type of a version, to JSON and back. -/
def roundTrip (v : WireVersion) : Payload → Option Payload
  | tool t => (t.roundTrip v).map tool
  | resource r => (r.roundTrip v.metaWire).map resource
  | resourceTemplate t => (t.roundTrip v.metaWire).map resourceTemplate
  | prompt p => (p.roundTrip v.metaWire).map prompt
  | tools r => (r.roundTrip v).map tools
  | resources r => (r.roundTrip v).map resources
  | resourceTemplates r => (r.roundTrip v).map resourceTemplates
  | prompts r => (r.roundTrip v).map prompts
  | completion r => (r.roundTrip v).map completion
  | toolResult r => (r.roundTrip v).map toolResult

/-- All but what may differ: a tool's schemas, its task support on the draft, and the
cache hints. -/
def facts (v : WireVersion) : Payload → Payload
  | tool t => tool (t.facts v)
  | tools r => tools { r.facts v with cache := none }
  | resources r => resources { r with cache := none }
  | resourceTemplates r => resourceTemplates { r with cache := none }
  | prompts r => prompts { r with cache := none }
  | p => p

/-- Sizes are `i64`s, and structured content, if there is any, an object. -/
def Fits : Payload → Prop
  | resource r => r.SizeFits
  | resources r => ∀ x ∈ r.resources, x.SizeFits
  | toolResult r =>
      (∀ c ∈ r.content, c.SizeFits) ∧ ∀ s ∈ r.structuredContent, ∃ m, s = .object m
  | _ => True

/-- Annotations have a priority of JSON's, content survives, and what is structured
is not empty on the legacy wire. -/
def Survives (v : WireVersion) : Payload → Prop
  | resource r => FinitePriority r.annotations
  | resourceTemplate t => FinitePriority t.annotations
  | resources r => ∀ x ∈ r.resources, FinitePriority x.annotations
  | resourceTemplates r => ∀ t ∈ r.resourceTemplates, FinitePriority t.annotations
  | toolResult r =>
      (∀ c ∈ r.content, c.Survives) ∧
        (v = .legacy → r.structuredContent ≠ some (.object Map.empty))
  | _ => True

end Payload

theorem structuredBack_eq_self_iff (v : WireVersion) (o : Option Value) :
    structuredBack v o = o ↔ (v = .legacy → o ≠ some (.object Map.empty)) := by
  cases v with
  | draft => simp [structuredBack]
  | legacy =>
      cases o with
      | none => simp [structuredBack]
      | some s => by_cases hs : s = .object Map.empty <;> simp [structuredBack, Option.filter, hs]

/-- A result with an answer in it. -/
def answered : CallToolResult := ⟨[greeting], false, some (.object [("answer", .int 42)])⟩

/-- A result whose structured content is there but empty. -/
def emptied : CallToolResult := ⟨[greeting], false, some (.object Map.empty)⟩

end Neutral

end TurboMcp.Protocol
