import TurboMcp.Protocol.ToolSchemas

/-!
# Listings and completions on the wires

The other listed records, their pages and the answer to a completion request.
The pages of the two families differ in their envelopes: the draft's carry cache
hints and a result type.
-/

namespace TurboMcp.Protocol

open TurboMcp.Core TurboMcp.Lib

/-! ## Wire types -/

namespace Wire

variable {w : MetaWire}

structure Resource (w : MetaWire) where
  annotations : Option Annotations
  description : Option String
  icons : List Icon
  meta_ : w.Carrier
  mimeType : Option String
  name : String
  size : Option Int
  title : Option String
  uri : String

namespace Resource

def encode (r : Resource w) : Value :=
  .struct
    [("annotations", r.annotations.map Annotations.encode),
      ("description", r.description.map .string),
      ("icons", skipEmpty Icon.encode r.icons),
      ("_meta", w.encode r.meta_),
      ("mimeType", r.mimeType.map .string),
      ("name", some (.string r.name)),
      ("size", r.size.map .int),
      ("title", r.title.map .string),
      ("uri", some (.string r.uri))]

def decode (v : Value) : Option (Resource w) := do
  let m ← structFields ["annotations", "description", "icons", "_meta", "mimeType", "name",
    "size", "title", "uri"] v
  let annotations ← optionField m "annotations" Annotations.decode
  let description ← optionField m "description" Value.asStr
  let icons ← vecField m "icons" Icon.decode
  let meta_ ← w.decode (m.get "_meta")
  let mimeType ← optionField m "mimeType" Value.asStr
  let name ← stringField m "name"
  let size ← optionField m "size" Value.asI64
  let title ← optionField m "title" Value.asStr
  let uri ← stringField m "uri"
  pure { annotations, description, icons, meta_, mimeType, name, size, title, uri }

/-- The size is an `i64`. -/
def SizeFits (r : Resource w) : Prop := ∀ n ∈ r.size, n < 2 ^ 63

/-- The resource as it is read. -/
def reread (r : Resource w) : Resource w :=
  { r with annotations := r.annotations.map Annotations.reread }

theorem decode_encode {r : Resource w} (h : r.SizeFits) : decode r.encode = some r.reread := by
  simp [decode, encode, reread, w.decode_encode, orEmpty_skipEmpty Icon.reads, optional_i64 h]

end Resource

structure ResourceTemplate (w : MetaWire) where
  annotations : Option Annotations
  description : Option String
  icons : List Icon
  meta_ : w.Carrier
  mimeType : Option String
  name : String
  title : Option String
  uriTemplate : String

namespace ResourceTemplate

def encode (t : ResourceTemplate w) : Value :=
  .struct
    [("annotations", t.annotations.map Annotations.encode),
      ("description", t.description.map .string),
      ("icons", skipEmpty Icon.encode t.icons),
      ("_meta", w.encode t.meta_),
      ("mimeType", t.mimeType.map .string),
      ("name", some (.string t.name)),
      ("title", t.title.map .string),
      ("uriTemplate", some (.string t.uriTemplate))]

def decode (v : Value) : Option (ResourceTemplate w) := do
  let m ← structFields ["annotations", "description", "icons", "_meta", "mimeType", "name",
    "title", "uriTemplate"] v
  let annotations ← optionField m "annotations" Annotations.decode
  let description ← optionField m "description" Value.asStr
  let icons ← vecField m "icons" Icon.decode
  let meta_ ← w.decode (m.get "_meta")
  let mimeType ← optionField m "mimeType" Value.asStr
  let name ← stringField m "name"
  let title ← optionField m "title" Value.asStr
  let uriTemplate ← stringField m "uriTemplate"
  pure { annotations, description, icons, meta_, mimeType, name, title, uriTemplate }

/-- The template as it is read. -/
def reread (t : ResourceTemplate w) : ResourceTemplate w :=
  { t with annotations := t.annotations.map Annotations.reread }

theorem reads : Reads (decode (w := w)) encode reread := by
  intro t
  simp [decode, encode, reread, w.decode_encode, orEmpty_skipEmpty Icon.reads]

end ResourceTemplate

structure PromptArgument where
  description : Option String
  name : String
  required : Option Bool
  title : Option String

namespace PromptArgument

def encode (a : PromptArgument) : Value :=
  .struct
    [("description", a.description.map .string),
      ("name", some (.string a.name)),
      ("required", a.required.map .bool),
      ("title", a.title.map .string)]

def decode (v : Value) : Option PromptArgument := do
  let m ← structFields ["description", "name", "required", "title"] v
  let description ← optionField m "description" Value.asStr
  let name ← stringField m "name"
  let required ← optionField m "required" Value.asBool
  let title ← optionField m "title" Value.asStr
  pure { description, name, required, title }

theorem reads : Reads decode encode id := by
  intro a
  simp [decode, encode]

end PromptArgument

structure Prompt (w : MetaWire) where
  arguments : List PromptArgument
  description : Option String
  icons : List Icon
  meta_ : w.Carrier
  name : String
  title : Option String

namespace Prompt

def encode (p : Prompt w) : Value :=
  .struct
    [("arguments", skipEmpty PromptArgument.encode p.arguments),
      ("description", p.description.map .string),
      ("icons", skipEmpty Icon.encode p.icons),
      ("_meta", w.encode p.meta_),
      ("name", some (.string p.name)),
      ("title", p.title.map .string)]

def decode (v : Value) : Option (Prompt w) := do
  let m ← structFields ["arguments", "description", "icons", "_meta", "name", "title"] v
  let arguments ← vecField m "arguments" PromptArgument.decode
  let description ← optionField m "description" Value.asStr
  let icons ← vecField m "icons" Icon.decode
  let meta_ ← w.decode (m.get "_meta")
  let name ← stringField m "name"
  let title ← optionField m "title" Value.asStr
  pure { arguments, description, icons, meta_, name, title }

theorem reads : Reads (decode (w := w)) encode id := by
  intro p
  simp [decode, encode, w.decode_encode, orEmpty_skipEmpty Icon.reads,
    orEmpty_skipEmpty PromptArgument.reads]

end Prompt

structure CompleteResultCompletion where
  hasMore : Option Bool
  total : Option Int
  values : List String

namespace CompleteResultCompletion

def encode (c : CompleteResultCompletion) : Value :=
  .struct
    [("hasMore", c.hasMore.map .bool),
      ("total", c.total.map .int),
      ("values", some (encodeVec .string c.values))]

def decode (v : Value) : Option CompleteResultCompletion := do
  let m ← structFields ["hasMore", "total", "values"] v
  let hasMore ← optionField m "hasMore" Value.asBool
  let total ← optionField m "total" Value.asI64
  let values ← requiredField m "values" (decodeVec Value.asStr)
  pure { hasMore, total, values }

theorem decode_encode {c : CompleteResultCompletion} (h : ∀ n ∈ c.total, n < 2 ^ 63) :
    decode c.encode = some c := by
  have hvalues : decodeVec Value.asStr (encodeVec .string c.values) = some c.values := by
    rw [decodeVec_encodeVec fun s _ => reads_string s, List.map_id]
  simp [decode, encode, optional_i64 h, hvalues]

end CompleteResultCompletion

/-! ### Pages

`ListResourcesResult`, `ListResourceTemplatesResult` and `ListPromptsResult` have
the same fields but for the one of their items. -/

namespace Draft

structure Page (α : Type) where
  cacheScope : CacheScope
  meta_ : Option ResultMetaObject
  nextCursor : Option String
  items : List α
  resultType : String
  ttlMs : Nat

namespace Page

variable {α : Type}

def encode (field : String) (enc : α → Value) (p : Page α) : Value :=
  .struct
    [("cacheScope", some p.cacheScope.toValue),
      ("_meta", p.meta_.map ResultMetaObject.encode),
      ("nextCursor", p.nextCursor.map .string),
      (field, some (encodeVec enc p.items)),
      ("resultType", some (.string p.resultType)),
      ("ttlMs", some (.int p.ttlMs))]

def decode (field : String) (dec : Value → Option α) (v : Value) : Option (Page α) := do
  let m ← structFields ["cacheScope", "_meta", "nextCursor", field, "resultType", "ttlMs"] v
  let cacheScope ← requiredField m "cacheScope" CacheScope.decode
  let meta_ ← optionField m "_meta" ResultMetaObject.decode
  let nextCursor ← optionField m "nextCursor" Value.asStr
  let items ← requiredField m field (decodeVec dec)
  let resultType ← stringField m "resultType"
  let ttlMs ← requiredField m "ttlMs" Value.asU64
  pure { cacheScope, meta_, nextCursor, items, resultType, ttlMs }

end Page

abbrev ListResourcesResult := Page (Resource .draft)

def ListResourcesResult.encode : ListResourcesResult → Value :=
  Page.encode "resources" Resource.encode

def ListResourcesResult.decode : Value → Option ListResourcesResult :=
  Page.decode "resources" Resource.decode

abbrev ListResourceTemplatesResult := Page (ResourceTemplate .draft)

def ListResourceTemplatesResult.encode : ListResourceTemplatesResult → Value :=
  Page.encode "resourceTemplates" ResourceTemplate.encode

def ListResourceTemplatesResult.decode : Value → Option ListResourceTemplatesResult :=
  Page.decode "resourceTemplates" ResourceTemplate.decode

abbrev ListPromptsResult := Page (Prompt .draft)

def ListPromptsResult.encode : ListPromptsResult → Value := Page.encode "prompts" Prompt.encode

def ListPromptsResult.decode : Value → Option ListPromptsResult :=
  Page.decode "prompts" Prompt.decode

structure CompleteResult where
  completion : CompleteResultCompletion
  meta_ : Option ResultMetaObject
  resultType : String

namespace CompleteResult

def encode (r : CompleteResult) : Value :=
  .struct
    [("completion", some r.completion.encode),
      ("_meta", r.meta_.map ResultMetaObject.encode),
      ("resultType", some (.string r.resultType))]

def decode (v : Value) : Option CompleteResult := do
  let m ← structFields ["completion", "_meta", "resultType"] v
  let completion ← requiredField m "completion" CompleteResultCompletion.decode
  let meta_ ← optionField m "_meta" ResultMetaObject.decode
  let resultType ← stringField m "resultType"
  pure { completion, meta_, resultType }

end CompleteResult

end Draft

namespace Legacy

structure Page (α : Type) where
  meta_ : Map
  nextCursor : Option String
  items : List α

namespace Page

variable {α : Type}

def encode (field : String) (enc : α → Value) (p : Page α) : Value :=
  .struct
    [("_meta", skipEmptyMap p.meta_),
      ("nextCursor", p.nextCursor.map .string),
      (field, some (encodeVec enc p.items))]

def decode (field : String) (dec : Value → Option α) (v : Value) : Option (Page α) := do
  let m ← structFields ["_meta", "nextCursor", field] v
  let meta_ ← mapOrEmpty (m.get "_meta")
  let nextCursor ← optionField m "nextCursor" Value.asStr
  let items ← requiredField m field (decodeVec dec)
  pure { meta_, nextCursor, items }

end Page

abbrev ListResourcesResult := Page (Resource .legacy)

def ListResourcesResult.encode : ListResourcesResult → Value :=
  Page.encode "resources" Resource.encode

def ListResourcesResult.decode : Value → Option ListResourcesResult :=
  Page.decode "resources" Resource.decode

abbrev ListResourceTemplatesResult := Page (ResourceTemplate .legacy)

def ListResourceTemplatesResult.encode : ListResourceTemplatesResult → Value :=
  Page.encode "resourceTemplates" ResourceTemplate.encode

def ListResourceTemplatesResult.decode : Value → Option ListResourceTemplatesResult :=
  Page.decode "resourceTemplates" ResourceTemplate.decode

abbrev ListPromptsResult := Page (Prompt .legacy)

def ListPromptsResult.encode : ListPromptsResult → Value := Page.encode "prompts" Prompt.encode

def ListPromptsResult.decode : Value → Option ListPromptsResult :=
  Page.decode "prompts" Prompt.decode

structure CompleteResult where
  completion : CompleteResultCompletion
  meta_ : Map

namespace CompleteResult

def encode (r : CompleteResult) : Value :=
  .struct [("completion", some r.completion.encode), ("_meta", skipEmptyMap r.meta_)]

def decode (v : Value) : Option CompleteResult := do
  let m ← structFields ["completion", "_meta"] v
  let completion ← requiredField m "completion" CompleteResultCompletion.decode
  let meta_ ← mapOrEmpty (m.get "_meta")
  pure { completion, meta_ }

end CompleteResult

end Legacy

end Wire

/-! ## Conversions -/

namespace Neutral

def Resource.toWire (w : Wire.MetaWire) (r : Resource) : Wire.Resource w :=
  { annotations := r.annotations.map Annotations.toWire
    description := r.description
    icons := r.icons.map Icon.toWire
    meta_ := w.ofMap r.meta_
    mimeType := r.mimeType
    name := r.name
    size := r.size.map sizeToWire
    title := r.title
    uri := r.uri }

def Resource.ofWire {w : Wire.MetaWire} (r : Wire.Resource w) : Resource :=
  { uri := r.uri
    name := r.name
    title := r.title
    description := r.description
    mimeType := r.mimeType
    size := r.size.map sizeOfWire
    annotations := r.annotations.map Annotations.ofWire
    icons := r.icons.map Icon.ofWire
    meta_ := w.toMap r.meta_ }

def ResourceTemplate.toWire (w : Wire.MetaWire) (t : ResourceTemplate) :
    Wire.ResourceTemplate w :=
  { annotations := t.annotations.map Annotations.toWire
    description := t.description
    icons := t.icons.map Icon.toWire
    meta_ := w.ofMap t.meta_
    mimeType := t.mimeType
    name := t.name
    title := t.title
    uriTemplate := t.uriTemplate }

def ResourceTemplate.ofWire {w : Wire.MetaWire} (t : Wire.ResourceTemplate w) :
    ResourceTemplate :=
  { uriTemplate := t.uriTemplate
    name := t.name
    title := t.title
    description := t.description
    mimeType := t.mimeType
    annotations := t.annotations.map Annotations.ofWire
    icons := t.icons.map Icon.ofWire
    meta_ := w.toMap t.meta_ }

def PromptArgument.toWire (a : PromptArgument) : Wire.PromptArgument :=
  { description := a.description, name := a.name, required := some a.required, title := a.title }

def PromptArgument.ofWire (a : Wire.PromptArgument) : PromptArgument :=
  { name := a.name, title := a.title, description := a.description,
    required := a.required.getD false }

def Prompt.toWire (w : Wire.MetaWire) (p : Prompt) : Wire.Prompt w :=
  { arguments := p.arguments.map PromptArgument.toWire
    description := p.description
    icons := p.icons.map Icon.toWire
    meta_ := w.ofMap p.meta_
    name := p.name
    title := p.title }

def Prompt.ofWire {w : Wire.MetaWire} (p : Wire.Prompt w) : Prompt :=
  { name := p.name
    title := p.title
    description := p.description
    arguments := p.arguments.map PromptArgument.ofWire
    icons := p.icons.map Icon.ofWire
    meta_ := w.toMap p.meta_ }

/-! ### Pages -/

/-- The draft's envelope of a page. -/
def draftPage {α : Type} (cache : Option CachePolicy) (nextCursor : Option String)
    (items : List α) : Wire.Draft.Page α :=
  let cache := cache.getD .noCache
  { cacheScope := cache.scope
    meta_ := none
    nextCursor
    items
    resultType := resultTypeComplete
    ttlMs := cache.ttlMs }

/-- The cache hints of a page. -/
def cacheOfPage {α : Type} (p : Wire.Draft.Page α) : Option CachePolicy :=
  some { ttlMs := p.ttlMs, scope := p.cacheScope }

def ListResourcesResult.toDraft (r : ListResourcesResult) : Wire.Draft.ListResourcesResult :=
  draftPage r.cache r.nextCursor (r.resources.map (Resource.toWire .draft))

def ListResourcesResult.ofDraft (r : Wire.Draft.ListResourcesResult) : ListResourcesResult :=
  { resources := r.items.map Resource.ofWire, nextCursor := r.nextCursor, cache := cacheOfPage r }

def ListResourcesResult.toLegacy (r : ListResourcesResult) : Wire.Legacy.ListResourcesResult :=
  { meta_ := Map.empty, nextCursor := r.nextCursor,
    items := r.resources.map (Resource.toWire .legacy) }

def ListResourcesResult.ofLegacy (r : Wire.Legacy.ListResourcesResult) : ListResourcesResult :=
  { resources := r.items.map Resource.ofWire, nextCursor := r.nextCursor, cache := none }

def ListResourceTemplatesResult.toDraft (r : ListResourceTemplatesResult) :
    Wire.Draft.ListResourceTemplatesResult :=
  draftPage r.cache r.nextCursor (r.resourceTemplates.map (ResourceTemplate.toWire .draft))

def ListResourceTemplatesResult.ofDraft (r : Wire.Draft.ListResourceTemplatesResult) :
    ListResourceTemplatesResult :=
  { resourceTemplates := r.items.map ResourceTemplate.ofWire, nextCursor := r.nextCursor,
    cache := cacheOfPage r }

def ListResourceTemplatesResult.toLegacy (r : ListResourceTemplatesResult) :
    Wire.Legacy.ListResourceTemplatesResult :=
  { meta_ := Map.empty, nextCursor := r.nextCursor,
    items := r.resourceTemplates.map (ResourceTemplate.toWire .legacy) }

def ListResourceTemplatesResult.ofLegacy (r : Wire.Legacy.ListResourceTemplatesResult) :
    ListResourceTemplatesResult :=
  { resourceTemplates := r.items.map ResourceTemplate.ofWire, nextCursor := r.nextCursor,
    cache := none }

def ListPromptsResult.toDraft (r : ListPromptsResult) : Wire.Draft.ListPromptsResult :=
  draftPage r.cache r.nextCursor (r.prompts.map (Prompt.toWire .draft))

def ListPromptsResult.ofDraft (r : Wire.Draft.ListPromptsResult) : ListPromptsResult :=
  { prompts := r.items.map Prompt.ofWire, nextCursor := r.nextCursor, cache := cacheOfPage r }

def ListPromptsResult.toLegacy (r : ListPromptsResult) : Wire.Legacy.ListPromptsResult :=
  { meta_ := Map.empty, nextCursor := r.nextCursor,
    items := r.prompts.map (Prompt.toWire .legacy) }

def ListPromptsResult.ofLegacy (r : Wire.Legacy.ListPromptsResult) : ListPromptsResult :=
  { prompts := r.items.map Prompt.ofWire, nextCursor := r.nextCursor, cache := none }

/-! ### Completions -/

/-- `i64::from`. -/
def totalToWire (n : UInt32) : Int := n.toNat

/-- `u32::try_from(t).unwrap_or(u32::MAX)`. -/
def totalOfWire (n : Int) : UInt32 :=
  if 0 ≤ n ∧ n < 2 ^ 32 then UInt32.ofNat n.toNat else 4294967295

def CompleteResult.toCompletion (r : CompleteResult) : Wire.CompleteResultCompletion :=
  { hasMore := r.hasMore, total := r.total.map totalToWire, values := r.values }

def CompleteResult.ofCompletion (c : Wire.CompleteResultCompletion) : CompleteResult :=
  { values := c.values, total := c.total.map totalOfWire, hasMore := c.hasMore }

def CompleteResult.toDraft (r : CompleteResult) : Wire.Draft.CompleteResult :=
  { completion := r.toCompletion, meta_ := none, resultType := resultTypeComplete }

def CompleteResult.ofDraft (r : Wire.Draft.CompleteResult) : CompleteResult :=
  .ofCompletion r.completion

def CompleteResult.toLegacy (r : CompleteResult) : Wire.Legacy.CompleteResult :=
  { completion := r.toCompletion, meta_ := Map.empty }

def CompleteResult.ofLegacy (r : Wire.Legacy.CompleteResult) : CompleteResult :=
  .ofCompletion r.completion

end Neutral

end TurboMcp.Protocol
