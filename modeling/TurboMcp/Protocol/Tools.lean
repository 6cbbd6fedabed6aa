import TurboMcp.Protocol.Content

/-!
# Tools on the wires

A tool's schemas pass through generated structs with a catch-all for the
keywords they do not name.  The legacy ones type `properties` and `required`;
the draft's only `$schema` and, for inputs, `type`.
-/

namespace TurboMcp.Protocol

open TurboMcp.Core TurboMcp.Lib

/-! ## Wire types -/

namespace Wire

structure ToolAnnotations where
  destructiveHint : Option Bool
  idempotentHint : Option Bool
  openWorldHint : Option Bool
  readOnlyHint : Option Bool
  title : Option String

namespace ToolAnnotations

def encode (a : ToolAnnotations) : Value :=
  .struct
    [("destructiveHint", a.destructiveHint.map .bool),
      ("idempotentHint", a.idempotentHint.map .bool),
      ("openWorldHint", a.openWorldHint.map .bool),
      ("readOnlyHint", a.readOnlyHint.map .bool),
      ("title", a.title.map .string)]

def decode (v : Value) : Option ToolAnnotations := do
  let m ← structFields ["destructiveHint", "idempotentHint", "openWorldHint", "readOnlyHint",
    "title"] v
  let destructiveHint ← optionField m "destructiveHint" Value.asBool
  let idempotentHint ← optionField m "idempotentHint" Value.asBool
  let openWorldHint ← optionField m "openWorldHint" Value.asBool
  let readOnlyHint ← optionField m "readOnlyHint" Value.asBool
  let title ← optionField m "title" Value.asStr
  pure { destructiveHint, idempotentHint, openWorldHint, readOnlyHint, title }

theorem reads : Reads decode encode id := by
  intro a
  simp [decode, encode]

end ToolAnnotations

namespace Draft

structure ToolInputSchema where
  schema : Option String
  type_ : String
  extra : Map

namespace ToolInputSchema

def names : List String := ["$schema", "type"]

def encode (s : ToolInputSchema) : Value :=
  .flattened [("$schema", s.schema.map .string), ("type", some (.string s.type_))] s.extra

def decode (v : Value) : Option ToolInputSchema := do
  let m ← v.asObject
  let schema ← optionField m "$schema" Value.asStr
  let type_ ← stringField m "type"
  pure { schema, type_, extra := flattenedExtra names m }

end ToolInputSchema

structure ToolOutputSchema where
  schema : Option String
  extra : Map

namespace ToolOutputSchema

def names : List String := ["$schema"]

def encode (s : ToolOutputSchema) : Value :=
  .flattened [("$schema", s.schema.map .string)] s.extra

def decode (v : Value) : Option ToolOutputSchema := do
  let m ← v.asObject
  let schema ← optionField m "$schema" Value.asStr
  pure { schema, extra := flattenedExtra names m }

end ToolOutputSchema

structure Tool where
  annotations : Option ToolAnnotations
  description : Option String
  icons : List Icon
  inputSchema : ToolInputSchema
  meta_ : MetaWire.draft.Carrier
  name : String
  outputSchema : Option ToolOutputSchema
  title : Option String

namespace Tool

def encode (t : Tool) : Value :=
  .struct
    [("annotations", t.annotations.map ToolAnnotations.encode),
      ("description", t.description.map .string),
      ("icons", skipEmpty Icon.encode t.icons),
      ("inputSchema", some t.inputSchema.encode),
      ("_meta", MetaWire.draft.encode t.meta_),
      ("name", some (.string t.name)),
      ("outputSchema", t.outputSchema.map ToolOutputSchema.encode),
      ("title", t.title.map .string)]

def decode (v : Value) : Option Tool := do
  let m ← structFields ["annotations", "description", "icons", "inputSchema", "_meta", "name",
    "outputSchema", "title"] v
  let annotations ← optionField m "annotations" ToolAnnotations.decode
  let description ← optionField m "description" Value.asStr
  let icons ← vecField m "icons" Icon.decode
  let inputSchema ← requiredField m "inputSchema" ToolInputSchema.decode
  let meta_ ← MetaWire.draft.decode (m.get "_meta")
  let name ← stringField m "name"
  let outputSchema ← optionField m "outputSchema" ToolOutputSchema.decode
  let title ← optionField m "title" Value.asStr
  pure { annotations, description, icons, inputSchema, meta_, name, outputSchema, title }

end Tool

structure ListToolsResult where
  cacheScope : CacheScope
  meta_ : Option ResultMetaObject
  nextCursor : Option String
  resultType : String
  tools : List Tool
  ttlMs : Nat

namespace ListToolsResult

def encode (r : ListToolsResult) : Value :=
  .struct
    [("cacheScope", some r.cacheScope.toValue),
      ("_meta", r.meta_.map ResultMetaObject.encode),
      ("nextCursor", r.nextCursor.map .string),
      ("resultType", some (.string r.resultType)),
      ("tools", some (encodeVec Tool.encode r.tools)),
      ("ttlMs", some (.int r.ttlMs))]

def decode (v : Value) : Option ListToolsResult := do
  let m ← structFields ["cacheScope", "_meta", "nextCursor", "resultType", "tools", "ttlMs"] v
  let cacheScope ← requiredField m "cacheScope" CacheScope.decode
  let meta_ ← optionField m "_meta" ResultMetaObject.decode
  let nextCursor ← optionField m "nextCursor" Value.asStr
  let resultType ← stringField m "resultType"
  let tools ← requiredField m "tools" (decodeVec Tool.decode)
  let ttlMs ← requiredField m "ttlMs" Value.asU64
  pure { cacheScope, meta_, nextCursor, resultType, tools, ttlMs }

end ListToolsResult

end Draft

namespace Legacy

/-- A `BTreeMap<String, Map<String, Value>>`. -/
def decodeProperties : Option Value → Option (List (String × Map))
  | none => some []
  | some v => do
      let m ← v.asObject
      let entries ← m.mapM fun e => e.2.asObject.map fun p => (e.1, p)
      pure (Entries.sorted entries)

def encodeProperties (ps : List (String × Map)) : Option Value :=
  if ps.isEmpty then none else some (.object (ps.map fun e => (e.1, .object e.2)))

/-- `ToolInputSchema` and `ToolOutputSchema` have the same fields. -/
structure ToolSchema where
  properties : List (String × Map)
  required : List String
  schema : Option String
  type_ : String
  extra : Map

abbrev ToolInputSchema := ToolSchema

abbrev ToolOutputSchema := ToolSchema

namespace ToolSchema

def names : List String := ["properties", "required", "$schema", "type"]

def encode (s : ToolSchema) : Value :=
  .flattened
    [("properties", encodeProperties s.properties),
      ("required", skipEmpty .string s.required),
      ("$schema", s.schema.map .string),
      ("type", some (.string s.type_))] s.extra

def decode (v : Value) : Option ToolSchema := do
  let m ← v.asObject
  let properties ← decodeProperties (m.get "properties")
  let required ← vecField m "required" Value.asStr
  let schema ← optionField m "$schema" Value.asStr
  let type_ ← stringField m "type"
  pure { properties, required, schema, type_, extra := flattenedExtra names m }

end ToolSchema

inductive ToolExecutionTaskSupport
  | forbidden
  | optional
  | required
  deriving DecidableEq

namespace ToolExecutionTaskSupport

def encode : ToolExecutionTaskSupport → Value
  | forbidden => .string "forbidden"
  | optional => .string "optional"
  | required => .string "required"

def decode : Value → Option ToolExecutionTaskSupport
  | .string "forbidden" => some forbidden
  | .string "optional" => some optional
  | .string "required" => some required
  | _ => none

theorem reads : Reads decode encode id := by
  intro s
  cases s <;> rfl

theorem encode_ne_null (s : ToolExecutionTaskSupport) : s.encode ≠ .null := by
  cases s <;> exact nofun

end ToolExecutionTaskSupport

structure ToolExecution where
  taskSupport : Option ToolExecutionTaskSupport

namespace ToolExecution

def encode (e : ToolExecution) : Value :=
  .struct [("taskSupport", e.taskSupport.map ToolExecutionTaskSupport.encode)]

def decode (v : Value) : Option ToolExecution := do
  let m ← structFields ["taskSupport"] v
  let taskSupport ← optionField m "taskSupport" ToolExecutionTaskSupport.decode
  pure { taskSupport }

theorem reads : Reads decode encode id := by
  intro e
  simp [decode, encode,
    optional_map ToolExecutionTaskSupport.reads ToolExecutionTaskSupport.encode_ne_null]

end ToolExecution

structure Tool where
  annotations : Option ToolAnnotations
  description : Option String
  execution : Option ToolExecution
  icons : List Icon
  inputSchema : ToolInputSchema
  meta_ : MetaWire.legacy.Carrier
  name : String
  outputSchema : Option ToolOutputSchema
  title : Option String

namespace Tool

def encode (t : Tool) : Value :=
  .struct
    [("annotations", t.annotations.map ToolAnnotations.encode),
      ("description", t.description.map .string),
      ("execution", t.execution.map ToolExecution.encode),
      ("icons", skipEmpty Icon.encode t.icons),
      ("inputSchema", some t.inputSchema.encode),
      ("_meta", MetaWire.legacy.encode t.meta_),
      ("name", some (.string t.name)),
      ("outputSchema", t.outputSchema.map ToolSchema.encode),
      ("title", t.title.map .string)]

def decode (v : Value) : Option Tool := do
  let m ← structFields ["annotations", "description", "execution", "icons", "inputSchema",
    "_meta", "name", "outputSchema", "title"] v
  let annotations ← optionField m "annotations" ToolAnnotations.decode
  let description ← optionField m "description" Value.asStr
  let execution ← optionField m "execution" ToolExecution.decode
  let icons ← vecField m "icons" Icon.decode
  let inputSchema ← requiredField m "inputSchema" ToolSchema.decode
  let meta_ ← MetaWire.legacy.decode (m.get "_meta")
  let name ← stringField m "name"
  let outputSchema ← optionField m "outputSchema" ToolSchema.decode
  let title ← optionField m "title" Value.asStr
  pure { annotations, description, execution, icons, inputSchema, meta_, name, outputSchema,
         title }

end Tool

structure ListToolsResult where
  meta_ : Map
  nextCursor : Option String
  tools : List Tool

namespace ListToolsResult

def encode (r : ListToolsResult) : Value :=
  .struct
    [("_meta", skipEmptyMap r.meta_),
      ("nextCursor", r.nextCursor.map .string),
      ("tools", some (encodeVec Tool.encode r.tools))]

def decode (v : Value) : Option ListToolsResult := do
  let m ← structFields ["_meta", "nextCursor", "tools"] v
  let meta_ ← mapOrEmpty (m.get "_meta")
  let nextCursor ← optionField m "nextCursor" Value.asStr
  let tools ← requiredField m "tools" (decodeVec Tool.decode)
  pure { meta_, nextCursor, tools }

end ListToolsResult

end Legacy

end Wire

/-! ## Conversions -/

namespace Neutral

def ToolAnnotations.toWire (a : ToolAnnotations) : Wire.ToolAnnotations :=
  { destructiveHint := a.destructiveHint
    idempotentHint := a.idempotentHint
    openWorldHint := a.openWorldHint
    readOnlyHint := a.readOnlyHint
    title := a.title }

def ToolAnnotations.ofWire (a : Wire.ToolAnnotations) : ToolAnnotations :=
  { title := a.title
    readOnlyHint := a.readOnlyHint
    destructiveHint := a.destructiveHint
    idempotentHint := a.idempotentHint
    openWorldHint := a.openWorldHint }

def TaskSupport.toWire : TaskSupport → Wire.Legacy.ToolExecutionTaskSupport
  | forbidden => .forbidden
  | optional => .optional
  | required => .required

def TaskSupport.ofWire : Wire.Legacy.ToolExecutionTaskSupport → TaskSupport
  | .forbidden => forbidden
  | .optional => optional
  | .required => required

/-- A schema that does not decode becomes the schema of any object, and an
output schema that does not is dropped. -/
def Tool.toDraft (t : Tool) : Wire.Draft.Tool :=
  { annotations := t.annotations.map ToolAnnotations.toWire
    description := t.description
    icons := t.icons.map Icon.toWire
    inputSchema := (Wire.Draft.ToolInputSchema.decode t.inputSchema).getD
      { schema := none, type_ := "object", extra := Map.empty }
    meta_ := Wire.MetaWire.draft.ofMap t.meta_
    name := t.name
    outputSchema := t.outputSchema.bind Wire.Draft.ToolOutputSchema.decode
    title := t.title }

/-- The draft has no per-tool task support. -/
def Tool.ofDraft (t : Wire.Draft.Tool) : Tool :=
  { name := t.name
    title := t.title
    description := t.description
    inputSchema := t.inputSchema.encode
    outputSchema := t.outputSchema.map Wire.Draft.ToolOutputSchema.encode
    taskSupport := none
    annotations := t.annotations.map ToolAnnotations.ofWire
    icons := t.icons.map Icon.ofWire
    meta_ := Wire.MetaWire.draft.toMap t.meta_ }

def Tool.toLegacy (t : Tool) : Wire.Legacy.Tool :=
  { annotations := t.annotations.map ToolAnnotations.toWire
    description := t.description
    execution := t.taskSupport.map fun s => { taskSupport := some s.toWire }
    icons := t.icons.map Icon.toWire
    inputSchema := (Wire.Legacy.ToolSchema.decode t.inputSchema).getD
      { properties := [], required := [], schema := none, type_ := "object",
        extra := Map.empty }
    meta_ := Wire.MetaWire.legacy.ofMap t.meta_
    name := t.name
    outputSchema := t.outputSchema.bind Wire.Legacy.ToolSchema.decode
    title := t.title }

def Tool.ofLegacy (t : Wire.Legacy.Tool) : Tool :=
  { name := t.name
    title := t.title
    description := t.description
    inputSchema := t.inputSchema.encode
    outputSchema := t.outputSchema.map Wire.Legacy.ToolSchema.encode
    taskSupport := (t.execution.bind (·.taskSupport)).map TaskSupport.ofWire
    annotations := t.annotations.map ToolAnnotations.ofWire
    icons := t.icons.map Icon.ofWire
    meta_ := Wire.MetaWire.legacy.toMap t.meta_ }

def ListToolsResult.toDraft (r : ListToolsResult) : Wire.Draft.ListToolsResult :=
  let cache := r.cache.getD .noCache
  { cacheScope := cache.scope
    meta_ := none
    nextCursor := r.nextCursor
    resultType := resultTypeComplete
    tools := r.tools.map Tool.toDraft
    ttlMs := cache.ttlMs }

def ListToolsResult.ofDraft (r : Wire.Draft.ListToolsResult) : ListToolsResult :=
  { tools := r.tools.map Tool.ofDraft
    nextCursor := r.nextCursor
    cache := some { ttlMs := r.ttlMs, scope := r.cacheScope } }

def ListToolsResult.toLegacy (r : ListToolsResult) : Wire.Legacy.ListToolsResult :=
  { meta_ := Map.empty, nextCursor := r.nextCursor, tools := r.tools.map Tool.toLegacy }

def ListToolsResult.ofLegacy (r : Wire.Legacy.ListToolsResult) : ListToolsResult :=
  { tools := r.tools.map Tool.ofLegacy, nextCursor := r.nextCursor, cache := none }

end Neutral

end TurboMcp.Protocol
