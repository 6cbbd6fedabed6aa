import TurboMcp.Protocol.Neutral

/-!
# The wire types of content

The two generated families of types are the same but for `_meta`, which one
keeps as an optional object and the other as a map: a `MetaWire` says which.
`type` is a string like any other, and the unions are read without it.
-/

namespace TurboMcp.Protocol.Wire

open TurboMcp.Core TurboMcp.Lib

/-! ## `_meta` -/

/-- How a family of wire types holds `_meta`. -/
structure MetaWire where
  Carrier : Type
  /-- What it is from a neutral map, where an empty one is absent. -/
  ofMap : Map → Carrier
  toMap : Carrier → Map
  encode : Carrier → Option Value
  decode : Option Value → Option Carrier
  toMap_ofMap : ∀ m, toMap (ofMap m) = m
  decode_encode : ∀ c, decode (encode c) = some c

/-- The draft's `Option<MetaObject>`. -/
def MetaWire.draft : MetaWire where
  Carrier := Option Map
  ofMap m := if m.isEmpty then none else some m
  toMap c := c.getD Map.empty
  encode c := c.map .object
  decode
    | none | some .null => some none
    | some v => v.asObject.map some
  toMap_ofMap m := by cases m <;> rfl
  decode_encode c := by cases c <;> rfl

/-- The legacy wire's `Map<String, Value>`, skipped when it is empty. -/
def MetaWire.legacy : MetaWire where
  Carrier := Map
  ofMap m := m
  toMap m := m
  encode := skipEmptyMap
  decode := mapOrEmpty
  toMap_ofMap _ := rfl
  decode_encode m := by cases m <;> rfl

variable (w : MetaWire)

/-! ## Parts of blocks -/

inductive Role
  | assistant
  | user
  deriving DecidableEq

namespace Role

def encode : Role → Value
  | assistant => .string "assistant"
  | user => .string "user"

def decode : Value → Option Role
  | .string "assistant" => some assistant
  | .string "user" => some user
  | _ => none

end Role

structure Annotations where
  audience : List Role
  lastModified : Option String
  priority : Option F64
  deriving DecidableEq

namespace Annotations

def encode (a : Annotations) : Value :=
  .struct
    [("audience", skipEmpty Role.encode a.audience),
      ("lastModified", a.lastModified.map .string),
      ("priority", a.priority.map F64.toValue)]

def decode (v : Value) : Option Annotations := do
  let m ← structFields ["audience", "lastModified", "priority"] v
  let audience ← vecField m "audience" Role.decode
  let lastModified ← optionField m "lastModified" Value.asStr
  let priority ← optionField m "priority" F64.decode
  pure { audience, lastModified, priority }

end Annotations

inductive IconTheme
  | dark
  | light
  deriving DecidableEq

namespace IconTheme

def encode : IconTheme → Value
  | dark => .string "dark"
  | light => .string "light"

def decode : Value → Option IconTheme
  | .string "dark" => some dark
  | .string "light" => some light
  | _ => none

end IconTheme

structure Icon where
  mimeType : Option String
  sizes : List String
  src : String
  theme : Option IconTheme
  deriving DecidableEq

namespace Icon

def encode (i : Icon) : Value :=
  .struct
    [("mimeType", i.mimeType.map .string),
      ("sizes", skipEmpty .string i.sizes),
      ("src", some (.string i.src)),
      ("theme", i.theme.map IconTheme.encode)]

def decode (v : Value) : Option Icon := do
  let m ← structFields ["mimeType", "sizes", "src", "theme"] v
  let mimeType ← optionField m "mimeType" Value.asStr
  let sizes ← vecField m "sizes" Value.asStr
  let src ← stringField m "src"
  let theme ← optionField m "theme" IconTheme.decode
  pure { mimeType, sizes, src, theme }

end Icon

/-! ## Resource contents -/

structure TextResourceContents where
  meta_ : w.Carrier
  mimeType : Option String
  text : String
  uri : String

structure BlobResourceContents where
  blob : String
  meta_ : w.Carrier
  mimeType : Option String
  uri : String

/-- `EmbeddedResourceResource` and `ReadResourceResultContentsItem` are the same
union. -/
inductive ContentsItem
  | textResourceContents (t : TextResourceContents w)
  | blobResourceContents (b : BlobResourceContents w)

variable {w}

namespace TextResourceContents

def encode (t : TextResourceContents w) : Value :=
  .struct
    [("_meta", w.encode t.meta_),
      ("mimeType", t.mimeType.map .string),
      ("text", some (.string t.text)),
      ("uri", some (.string t.uri))]

def decode (v : Value) : Option (TextResourceContents w) := do
  let m ← structFields ["_meta", "mimeType", "text", "uri"] v
  let meta_ ← w.decode (m.get "_meta")
  let mimeType ← optionField m "mimeType" Value.asStr
  let text ← stringField m "text"
  let uri ← stringField m "uri"
  pure { meta_, mimeType, text, uri }

end TextResourceContents

namespace BlobResourceContents

def encode (b : BlobResourceContents w) : Value :=
  .struct
    [("blob", some (.string b.blob)),
      ("_meta", w.encode b.meta_),
      ("mimeType", b.mimeType.map .string),
      ("uri", some (.string b.uri))]

def decode (v : Value) : Option (BlobResourceContents w) := do
  let m ← structFields ["blob", "_meta", "mimeType", "uri"] v
  let blob ← stringField m "blob"
  let meta_ ← w.decode (m.get "_meta")
  let mimeType ← optionField m "mimeType" Value.asStr
  let uri ← stringField m "uri"
  pure { blob, meta_, mimeType, uri }

end BlobResourceContents

namespace ContentsItem

def encode : ContentsItem w → Value
  | textResourceContents t => t.encode
  | blobResourceContents b => b.encode

def decode : Value → Option (ContentsItem w) :=
  firstOf
    [fun v => (TextResourceContents.decode v).map textResourceContents,
      fun v => (BlobResourceContents.decode v).map blobResourceContents]

end ContentsItem

/-! ## Blocks -/

variable (w)

structure TextContent where
  annotations : Option Annotations
  meta_ : w.Carrier
  text : String
  type_ : String

/-- `ImageContent` and `AudioContent` have the same fields. -/
structure MediaContent where
  annotations : Option Annotations
  data : String
  meta_ : w.Carrier
  mimeType : String
  type_ : String

abbrev ImageContent := MediaContent w

abbrev AudioContent := MediaContent w

structure EmbeddedResource where
  annotations : Option Annotations
  meta_ : w.Carrier
  resource : ContentsItem w
  type_ : String

structure ResourceLink where
  annotations : Option Annotations
  description : Option String
  icons : List Icon
  meta_ : w.Carrier
  mimeType : Option String
  name : String
  size : Option Int
  title : Option String
  type_ : String
  uri : String

inductive ContentBlock
  | textContent (t : TextContent w)
  | imageContent (i : ImageContent w)
  | audioContent (a : AudioContent w)
  | resourceLink (l : ResourceLink w)
  | embeddedResource (e : EmbeddedResource w)

variable {w}

namespace TextContent

def encode (t : TextContent w) : Value :=
  .struct
    [("annotations", t.annotations.map Annotations.encode),
      ("_meta", w.encode t.meta_),
      ("text", some (.string t.text)),
      ("type", some (.string t.type_))]

def decode (v : Value) : Option (TextContent w) := do
  let m ← structFields ["annotations", "_meta", "text", "type"] v
  let annotations ← optionField m "annotations" Annotations.decode
  let meta_ ← w.decode (m.get "_meta")
  let text ← stringField m "text"
  let type_ ← stringField m "type"
  pure { annotations, meta_, text, type_ }

end TextContent

namespace MediaContent

def encode (i : MediaContent w) : Value :=
  .struct
    [("annotations", i.annotations.map Annotations.encode),
      ("data", some (.string i.data)),
      ("_meta", w.encode i.meta_),
      ("mimeType", some (.string i.mimeType)),
      ("type", some (.string i.type_))]

def decode (v : Value) : Option (MediaContent w) := do
  let m ← structFields ["annotations", "data", "_meta", "mimeType", "type"] v
  let annotations ← optionField m "annotations" Annotations.decode
  let data ← stringField m "data"
  let meta_ ← w.decode (m.get "_meta")
  let mimeType ← stringField m "mimeType"
  let type_ ← stringField m "type"
  pure { annotations, data, meta_, mimeType, type_ }

end MediaContent

namespace EmbeddedResource

def encode (e : EmbeddedResource w) : Value :=
  .struct
    [("annotations", e.annotations.map Annotations.encode),
      ("_meta", w.encode e.meta_),
      ("resource", some e.resource.encode),
      ("type", some (.string e.type_))]

def decode (v : Value) : Option (EmbeddedResource w) := do
  let m ← structFields ["annotations", "_meta", "resource", "type"] v
  let annotations ← optionField m "annotations" Annotations.decode
  let meta_ ← w.decode (m.get "_meta")
  let resource ← requiredField m "resource" ContentsItem.decode
  let type_ ← stringField m "type"
  pure { annotations, meta_, resource, type_ }

end EmbeddedResource

namespace ResourceLink

def encode (l : ResourceLink w) : Value :=
  .struct
    [("annotations", l.annotations.map Annotations.encode),
      ("description", l.description.map .string),
      ("icons", skipEmpty Icon.encode l.icons),
      ("_meta", w.encode l.meta_),
      ("mimeType", l.mimeType.map .string),
      ("name", some (.string l.name)),
      ("size", l.size.map .int),
      ("title", l.title.map .string),
      ("type", some (.string l.type_)),
      ("uri", some (.string l.uri))]

def decode (v : Value) : Option (ResourceLink w) := do
  let m ← structFields ["annotations", "description", "icons", "_meta", "mimeType", "name",
    "size", "title", "type", "uri"] v
  let annotations ← optionField m "annotations" Annotations.decode
  let description ← optionField m "description" Value.asStr
  let icons ← vecField m "icons" Icon.decode
  let meta_ ← w.decode (m.get "_meta")
  let mimeType ← optionField m "mimeType" Value.asStr
  let name ← stringField m "name"
  let size ← optionField m "size" Value.asI64
  let title ← optionField m "title" Value.asStr
  let type_ ← stringField m "type"
  let uri ← stringField m "uri"
  pure { annotations, description, icons, meta_, mimeType, name, size, title, type_, uri }

end ResourceLink

namespace ContentBlock

def encode : ContentBlock w → Value
  | textContent t => t.encode
  | imageContent i => i.encode
  | audioContent a => a.encode
  | resourceLink l => l.encode
  | embeddedResource e => e.encode

/-- The variants in the order of the union. -/
def decode : Value → Option (ContentBlock w) :=
  firstOf
    [fun v => (TextContent.decode v).map textContent,
      fun v => (MediaContent.decode v).map imageContent,
      fun v => (MediaContent.decode v).map audioContent,
      fun v => (ResourceLink.decode v).map resourceLink,
      fun v => (EmbeddedResource.decode v).map embeddedResource]

end ContentBlock

/-! ## Results -/

structure PromptMessage (w : MetaWire) where
  content : ContentBlock w
  role : Role

namespace PromptMessage

def encode (p : PromptMessage w) : Value :=
  .struct [("content", some p.content.encode), ("role", some p.role.encode)]

def decode (v : Value) : Option (PromptMessage w) := do
  let m ← structFields ["content", "role"] v
  let content ← requiredField m "content" ContentBlock.decode
  let role ← requiredField m "role" Role.decode
  pure { content, role }

end PromptMessage

structure Implementation where
  description : Option String
  icons : List Icon
  name : String
  title : Option String
  version : String
  websiteUrl : Option String

namespace Implementation

def encode (i : Implementation) : Value :=
  .struct
    [("description", i.description.map .string),
      ("icons", skipEmpty Icon.encode i.icons),
      ("name", some (.string i.name)),
      ("title", i.title.map .string),
      ("version", some (.string i.version)),
      ("websiteUrl", i.websiteUrl.map .string)]

def decode (v : Value) : Option Implementation := do
  let m ← structFields ["description", "icons", "name", "title", "version", "websiteUrl"] v
  let description ← optionField m "description" Value.asStr
  let icons ← vecField m "icons" Icon.decode
  let name ← stringField m "name"
  let title ← optionField m "title" Value.asStr
  let version ← stringField m "version"
  let websiteUrl ← optionField m "websiteUrl" Value.asStr
  pure { description, icons, name, title, version, websiteUrl }

end Implementation

/-- The draft's `_meta` of a result. -/
structure ResultMetaObject where
  serverInfo : Option Implementation
  extra : Map

namespace ResultMetaObject

def serverInfoKey : String := "io.modelcontextprotocol/serverInfo"

def encode (r : ResultMetaObject) : Value :=
  .flattened [(serverInfoKey, r.serverInfo.map Implementation.encode)] r.extra

def decode (v : Value) : Option ResultMetaObject := do
  let m ← v.asObject
  let serverInfo ← optionField m serverInfoKey Implementation.decode
  pure { serverInfo, extra := flattenedExtra [serverInfoKey] m }

end ResultMetaObject

namespace Draft

structure CallToolResult where
  content : List (ContentBlock .draft)
  isError : Option Bool
  meta_ : Option ResultMetaObject
  resultType : String
  structuredContent : Option Value

def CallToolResult.encode (r : CallToolResult) : Value :=
  .struct
    [("content", some (encodeVec ContentBlock.encode r.content)),
      ("isError", r.isError.map .bool),
      ("_meta", r.meta_.map ResultMetaObject.encode),
      ("resultType", some (.string r.resultType)),
      ("structuredContent", r.structuredContent)]

def CallToolResult.decode (v : Value) : Option CallToolResult := do
  let m ← structFields ["content", "isError", "_meta", "resultType", "structuredContent"] v
  let content ← requiredField m "content" (decodeVec ContentBlock.decode)
  let isError ← optionField m "isError" Value.asBool
  let meta_ ← optionField m "_meta" ResultMetaObject.decode
  let resultType ← stringField m "resultType"
  let structuredContent ← optionField m "structuredContent" some
  pure { content, isError, meta_, resultType, structuredContent }

structure GetPromptResult where
  description : Option String
  messages : List (PromptMessage .draft)
  meta_ : Option ResultMetaObject
  resultType : String

def GetPromptResult.encode (r : GetPromptResult) : Value :=
  .struct
    [("description", r.description.map .string),
      ("messages", some (encodeVec PromptMessage.encode r.messages)),
      ("_meta", r.meta_.map ResultMetaObject.encode),
      ("resultType", some (.string r.resultType))]

def GetPromptResult.decode (v : Value) : Option GetPromptResult := do
  let m ← structFields ["description", "messages", "_meta", "resultType"] v
  let description ← optionField m "description" Value.asStr
  let messages ← requiredField m "messages" (decodeVec PromptMessage.decode)
  let meta_ ← optionField m "_meta" ResultMetaObject.decode
  let resultType ← stringField m "resultType"
  pure { description, messages, meta_, resultType }

structure ReadResourceResult where
  cacheScope : CacheScope
  contents : List (ContentsItem .draft)
  meta_ : Option ResultMetaObject
  resultType : String
  ttlMs : Nat

def ReadResourceResult.encode (r : ReadResourceResult) : Value :=
  .struct
    [("cacheScope", some r.cacheScope.toValue),
      ("contents", some (encodeVec ContentsItem.encode r.contents)),
      ("_meta", r.meta_.map ResultMetaObject.encode),
      ("resultType", some (.string r.resultType)),
      ("ttlMs", some (.int r.ttlMs))]

def ReadResourceResult.decode (v : Value) : Option ReadResourceResult := do
  let m ← structFields ["cacheScope", "contents", "_meta", "resultType", "ttlMs"] v
  let cacheScope ← requiredField m "cacheScope" CacheScope.decode
  let contents ← requiredField m "contents" (decodeVec ContentsItem.decode)
  let meta_ ← optionField m "_meta" ResultMetaObject.decode
  let resultType ← stringField m "resultType"
  let ttlMs ← requiredField m "ttlMs" Value.asU64
  pure { cacheScope, contents, meta_, resultType, ttlMs }

end Draft

namespace Legacy

structure CallToolResult where
  content : List (ContentBlock .legacy)
  isError : Option Bool
  meta_ : Map
  structuredContent : Map

def CallToolResult.encode (r : CallToolResult) : Value :=
  .struct
    [("content", some (encodeVec ContentBlock.encode r.content)),
      ("isError", r.isError.map .bool),
      ("_meta", skipEmptyMap r.meta_),
      ("structuredContent", skipEmptyMap r.structuredContent)]

def CallToolResult.decode (v : Value) : Option CallToolResult := do
  let m ← structFields ["content", "isError", "_meta", "structuredContent"] v
  let content ← requiredField m "content" (decodeVec ContentBlock.decode)
  let isError ← optionField m "isError" Value.asBool
  let meta_ ← mapOrEmpty (m.get "_meta")
  let structuredContent ← mapOrEmpty (m.get "structuredContent")
  pure { content, isError, meta_, structuredContent }

structure GetPromptResult where
  description : Option String
  messages : List (PromptMessage .legacy)
  meta_ : Map

def GetPromptResult.encode (r : GetPromptResult) : Value :=
  .struct
    [("description", r.description.map .string),
      ("messages", some (encodeVec PromptMessage.encode r.messages)),
      ("_meta", skipEmptyMap r.meta_)]

def GetPromptResult.decode (v : Value) : Option GetPromptResult := do
  let m ← structFields ["description", "messages", "_meta"] v
  let description ← optionField m "description" Value.asStr
  let messages ← requiredField m "messages" (decodeVec PromptMessage.decode)
  let meta_ ← mapOrEmpty (m.get "_meta")
  pure { description, messages, meta_ }

structure ReadResourceResult where
  contents : List (ContentsItem .legacy)
  meta_ : Map

def ReadResourceResult.encode (r : ReadResourceResult) : Value :=
  .struct
    [("contents", some (encodeVec ContentsItem.encode r.contents)),
      ("_meta", skipEmptyMap r.meta_)]

def ReadResourceResult.decode (v : Value) : Option ReadResourceResult := do
  let m ← structFields ["contents", "_meta"] v
  let contents ← requiredField m "contents" (decodeVec ContentsItem.decode)
  let meta_ ← mapOrEmpty (m.get "_meta")
  pure { contents, meta_ }

end Legacy

end TurboMcp.Protocol.Wire
