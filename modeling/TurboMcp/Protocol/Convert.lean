import TurboMcp.Protocol.Wire

/-!
# Conversions between the neutral and the wire types

Outbound on the server, inbound on the client; the envelope fields of a result
are filled in on the way out and dropped on the way in.
-/

namespace TurboMcp.Protocol

open TurboMcp.Core TurboMcp.Lib

/-- `i64::try_from(s).unwrap_or(i64::MAX)`. -/
def sizeToWire (s : UInt64) : Int := if s.toNat < 2 ^ 63 then s.toNat else 2 ^ 63 - 1

/-- `u64::try_from(s).unwrap_or(0)`. -/
def sizeOfWire (n : Int) : UInt64 := if 0 ≤ n then UInt64.ofNat n.toNat else 0

/-- `result_type::COMPLETE`. -/
def resultTypeComplete : String := "complete"

namespace Neutral

/-! ## Parts of blocks -/

def Role.toWire : Role → Wire.Role
  | user => .user
  | assistant => .assistant

def Role.ofWire : Wire.Role → Role
  | .user => user
  | .assistant => assistant

def Annotations.toWire (a : Annotations) : Wire.Annotations :=
  { audience := a.audience.map Role.toWire
    lastModified := a.lastModified
    priority := a.priority }

def Annotations.ofWire (a : Wire.Annotations) : Annotations :=
  { audience := a.audience.map Role.ofWire
    priority := a.priority
    lastModified := a.lastModified }

def IconTheme.toWire : IconTheme → Wire.IconTheme
  | light => .light
  | dark => .dark

def IconTheme.ofWire : Wire.IconTheme → IconTheme
  | .light => light
  | .dark => dark

def Icon.toWire (i : Icon) : Wire.Icon :=
  { mimeType := i.mimeType, sizes := i.sizes, src := i.src,
    theme := i.theme.map IconTheme.toWire }

def Icon.ofWire (i : Wire.Icon) : Icon :=
  { src := i.src, mimeType := i.mimeType, sizes := i.sizes,
    theme := i.theme.map IconTheme.ofWire }

/-! ## Content -/

def ResourceContents.toWire (w : Wire.MetaWire) : ResourceContents → Wire.ContentsItem w
  | text uri mimeType body meta_ =>
      .textResourceContents { meta_ := w.ofMap meta_, mimeType, text := body, uri }
  | blob uri mimeType body meta_ =>
      .blobResourceContents { blob := body, meta_ := w.ofMap meta_, mimeType, uri }

def ResourceContents.ofWire {w : Wire.MetaWire} : Wire.ContentsItem w → ResourceContents
  | .textResourceContents t => text t.uri t.mimeType t.text (w.toMap t.meta_)
  | .blobResourceContents b => blob b.uri b.mimeType b.blob (w.toMap b.meta_)

def Resource.toLink (w : Wire.MetaWire) (r : Resource) : Wire.ResourceLink w :=
  { annotations := r.annotations.map Annotations.toWire
    description := r.description
    icons := r.icons.map Icon.toWire
    meta_ := w.ofMap r.meta_
    mimeType := r.mimeType
    name := r.name
    size := r.size.map sizeToWire
    title := r.title
    type_ := "resource_link"
    uri := r.uri }

def Resource.ofLink {w : Wire.MetaWire} (l : Wire.ResourceLink w) : Resource :=
  { uri := l.uri
    name := l.name
    title := l.title
    description := l.description
    mimeType := l.mimeType
    size := l.size.map sizeOfWire
    annotations := l.annotations.map Annotations.ofWire
    icons := l.icons.map Icon.ofWire
    meta_ := w.toMap l.meta_ }

def Content.toWire (w : Wire.MetaWire) : Content → Wire.ContentBlock w
  | text body annotations meta_ =>
      .textContent
        { annotations := annotations.map Annotations.toWire, meta_ := w.ofMap meta_,
          text := body, type_ := "text" }
  | image data mimeType annotations meta_ =>
      .imageContent
        { annotations := annotations.map Annotations.toWire, data, meta_ := w.ofMap meta_,
          mimeType, type_ := "image" }
  | audio data mimeType annotations meta_ =>
      .audioContent
        { annotations := annotations.map Annotations.toWire, data, meta_ := w.ofMap meta_,
          mimeType, type_ := "audio" }
  | resource contents annotations meta_ =>
      .embeddedResource
        { annotations := annotations.map Annotations.toWire, meta_ := w.ofMap meta_,
          resource := contents.toWire w, type_ := "resource" }
  | resourceLink r => .resourceLink (r.toLink w)

def Content.ofWire {w : Wire.MetaWire} : Wire.ContentBlock w → Content
  | .textContent t => text t.text (t.annotations.map Annotations.ofWire) (w.toMap t.meta_)
  | .imageContent i =>
      image i.data i.mimeType (i.annotations.map Annotations.ofWire) (w.toMap i.meta_)
  | .audioContent a =>
      audio a.data a.mimeType (a.annotations.map Annotations.ofWire) (w.toMap a.meta_)
  | .embeddedResource e =>
      resource (.ofWire e.resource) (e.annotations.map Annotations.ofWire) (w.toMap e.meta_)
  | .resourceLink l => resourceLink (.ofLink l)

/-! ## Results -/

def PromptMessage.toWire (w : Wire.MetaWire) (m : PromptMessage) : Wire.PromptMessage w :=
  { content := m.content.toWire w, role := m.role.toWire }

def PromptMessage.ofWire {w : Wire.MetaWire} (m : Wire.PromptMessage w) : PromptMessage :=
  { role := .ofWire m.role, content := .ofWire m.content }

def CallToolResult.toDraft (r : CallToolResult) : Wire.Draft.CallToolResult :=
  { content := r.content.map (Content.toWire .draft)
    isError := some r.isError
    meta_ := none
    resultType := resultTypeComplete
    structuredContent := r.structuredContent }

def CallToolResult.ofDraft (r : Wire.Draft.CallToolResult) : CallToolResult :=
  { content := r.content.map Content.ofWire
    isError := r.isError.getD false
    structuredContent := r.structuredContent }

/-- The legacy wire only has objects for structured content. -/
def CallToolResult.toLegacy (r : CallToolResult) : Wire.Legacy.CallToolResult :=
  { content := r.content.map (Content.toWire .legacy)
    isError := some r.isError
    meta_ := Map.empty
    structuredContent := match r.structuredContent with
      | some (.object m) => m
      | _ => Map.empty }

def CallToolResult.ofLegacy (r : Wire.Legacy.CallToolResult) : CallToolResult :=
  { content := r.content.map Content.ofWire
    isError := r.isError.getD false
    structuredContent :=
      if r.structuredContent.isEmpty then none else some (.object r.structuredContent) }

def GetPromptResult.toDraft (r : GetPromptResult) : Wire.Draft.GetPromptResult :=
  { description := r.description
    messages := r.messages.map (PromptMessage.toWire .draft)
    meta_ := none
    resultType := resultTypeComplete }

def GetPromptResult.ofDraft (r : Wire.Draft.GetPromptResult) : GetPromptResult :=
  { description := r.description, messages := r.messages.map PromptMessage.ofWire }

def GetPromptResult.toLegacy (r : GetPromptResult) : Wire.Legacy.GetPromptResult :=
  { description := r.description
    messages := r.messages.map (PromptMessage.toWire .legacy)
    meta_ := Map.empty }

def GetPromptResult.ofLegacy (r : Wire.Legacy.GetPromptResult) : GetPromptResult :=
  { description := r.description, messages := r.messages.map PromptMessage.ofWire }

def ReadResourceResult.toDraft (r : ReadResourceResult) : Wire.Draft.ReadResourceResult :=
  let cache := r.cache.getD .noCache
  { cacheScope := cache.scope
    contents := r.contents.map (ResourceContents.toWire .draft)
    meta_ := none
    resultType := resultTypeComplete
    ttlMs := cache.ttlMs }

def ReadResourceResult.ofDraft (r : Wire.Draft.ReadResourceResult) : ReadResourceResult :=
  { contents := r.contents.map ResourceContents.ofWire
    cache := some { ttlMs := r.ttlMs, scope := r.cacheScope } }

def ReadResourceResult.toLegacy (r : ReadResourceResult) : Wire.Legacy.ReadResourceResult :=
  { contents := r.contents.map (ResourceContents.toWire .legacy), meta_ := Map.empty }

def ReadResourceResult.ofLegacy (r : Wire.Legacy.ReadResourceResult) : ReadResourceResult :=
  { contents := r.contents.map ResourceContents.ofWire, cache := none }

end Neutral

end TurboMcp.Protocol
