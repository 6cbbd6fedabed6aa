import TurboMcp.Core.Serde

/-!
# The neutral types

What handlers return and clients receive, whatever the wire.
-/

namespace TurboMcp.Protocol

open TurboMcp.Core

/-! ## Caching -/

inductive CacheScope
  | isPublic
  | isPrivate
  deriving DecidableEq

def CacheScope.toValue : CacheScope → Value
  | isPublic => .string "public"
  | isPrivate => .string "private"

def CacheScope.decode : Value → Option CacheScope
  | .string "public" => some .isPublic
  | .string "private" => some .isPrivate
  | _ => none

structure CachePolicy where
  ttlMs : Nat
  scope : CacheScope
  deriving DecidableEq

/-- Immediately stale and private. -/
def CachePolicy.noCache : CachePolicy := ⟨0, .isPrivate⟩

namespace Neutral

/-! ## Content -/

inductive Role
  | user
  | assistant
  deriving DecidableEq

/-- Whom an item is for, how important it is, and when it last changed. -/
structure Annotations where
  audience : List Role
  priority : Option F64
  lastModified : Option String
  deriving DecidableEq

inductive IconTheme
  | light
  | dark
  deriving DecidableEq

structure Icon where
  src : String
  mimeType : Option String
  sizes : List String
  theme : Option IconTheme
  deriving DecidableEq

/-- A resource descriptor. -/
structure Resource where
  uri : String
  name : String
  title : Option String
  description : Option String
  mimeType : Option String
  size : Option UInt64
  annotations : Option Annotations
  icons : List Icon
  meta_ : Map
  deriving DecidableEq

inductive ResourceContents
  | text (uri : String) (mimeType : Option String) (text : String) (meta_ : Map)
  | blob (uri : String) (mimeType : Option String) (blob : String) (meta_ : Map)
  deriving DecidableEq

/-- A content block. -/
inductive Content
  | text (text : String) (annotations : Option Annotations) (meta_ : Map)
  | image (data mimeType : String) (annotations : Option Annotations) (meta_ : Map)
  | audio (data mimeType : String) (annotations : Option Annotations) (meta_ : Map)
  | resource (contents : ResourceContents) (annotations : Option Annotations) (meta_ : Map)
  | resourceLink (resource : Resource)
  deriving DecidableEq

/-! ## Results -/

structure CallToolResult where
  content : List Content
  isError : Bool
  structuredContent : Option Value
  deriving DecidableEq

structure PromptMessage where
  role : Role
  content : Content
  deriving DecidableEq

structure GetPromptResult where
  description : Option String
  messages : List PromptMessage
  deriving DecidableEq

structure ReadResourceResult where
  contents : List ResourceContents
  cache : Option CachePolicy
  deriving DecidableEq

/-! ## Tools -/

inductive TaskSupport
  | forbidden
  | optional
  | required
  deriving DecidableEq

/-- Behaviour hints. -/
structure ToolAnnotations where
  title : Option String
  readOnlyHint : Option Bool
  destructiveHint : Option Bool
  idempotentHint : Option Bool
  openWorldHint : Option Bool
  deriving DecidableEq

structure Tool where
  name : String
  title : Option String
  description : Option String
  inputSchema : Value
  outputSchema : Option Value
  taskSupport : Option TaskSupport
  annotations : Option ToolAnnotations
  icons : List Icon
  meta_ : Map
  deriving DecidableEq

structure ListToolsResult where
  tools : List Tool
  nextCursor : Option String
  cache : Option CachePolicy
  deriving DecidableEq

/-! ## Other listings -/

structure ListResourcesResult where
  resources : List Resource
  nextCursor : Option String
  cache : Option CachePolicy
  deriving DecidableEq

/-- A family of resources. -/
structure ResourceTemplate where
  uriTemplate : String
  name : String
  title : Option String
  description : Option String
  mimeType : Option String
  annotations : Option Annotations
  icons : List Icon
  meta_ : Map
  deriving DecidableEq

structure ListResourceTemplatesResult where
  resourceTemplates : List ResourceTemplate
  nextCursor : Option String
  cache : Option CachePolicy
  deriving DecidableEq

structure PromptArgument where
  name : String
  title : Option String
  description : Option String
  required : Bool
  deriving DecidableEq

structure Prompt where
  name : String
  title : Option String
  description : Option String
  arguments : List PromptArgument
  icons : List Icon
  meta_ : Map
  deriving DecidableEq

structure ListPromptsResult where
  prompts : List Prompt
  nextCursor : Option String
  cache : Option CachePolicy
  deriving DecidableEq

/-- What may complete an argument. -/
structure CompleteResult where
  values : List String
  total : Option UInt32
  hasMore : Option Bool
  deriving DecidableEq

end Neutral

end TurboMcp.Protocol
