import TurboMcp.Protocol.Wire

/-!
# What a decoder makes of what is written

A wire value reads back as itself, but for two things: a priority that is not
finite is lost, and an audio block is read as an image, whose fields are the
same and which comes first.
-/

namespace TurboMcp.Protocol.Wire

open TurboMcp.Core TurboMcp.Lib

variable {w : MetaWire}

/-! ## Parts of blocks -/

theorem Role.reads : Reads Role.decode Role.encode id := by
  intro r
  cases r <;> rfl

theorem IconTheme.reads : Reads IconTheme.decode IconTheme.encode id := by
  intro t
  cases t <;> rfl

theorem IconTheme.encode_ne_null (t : IconTheme) : t.encode ≠ .null := by
  cases t <;> exact nofun

@[simp] theorem optional_iconTheme (o : Option IconTheme) :
    optional IconTheme.decode (o.map IconTheme.encode) = some o := by
  rw [optional_map IconTheme.reads IconTheme.encode_ne_null, Option.map_id, id_eq]

theorem Icon.reads : Reads Icon.decode Icon.encode id := by
  intro i
  simp [Icon.decode, Icon.encode]

/-- The annotations as they are read. -/
def Annotations.reread (a : Annotations) : Annotations :=
  { a with priority := a.priority.filter F64.isFinite }

theorem Annotations.reads : Reads Annotations.decode Annotations.encode Annotations.reread := by
  intro a
  simp [Annotations.decode, Annotations.encode, Annotations.reread,
    orEmpty_skipEmpty Role.reads]

@[simp] theorem optional_annotations (o : Option Annotations) :
    optional Annotations.decode (o.map Annotations.encode) = some (o.map Annotations.reread) :=
  optional_map Annotations.reads (fun _ => Value.struct_ne_null _) o

/-! ## Resource contents -/

theorem TextResourceContents.reads :
    Reads (TextResourceContents.decode (w := w)) TextResourceContents.encode id := by
  intro t
  simp [TextResourceContents.decode, TextResourceContents.encode, w.decode_encode]

theorem BlobResourceContents.reads :
    Reads (BlobResourceContents.decode (w := w)) BlobResourceContents.encode id := by
  intro b
  simp [BlobResourceContents.decode, BlobResourceContents.encode, w.decode_encode]

/-- A blob has no text. -/
theorem TextResourceContents.decode_blob (b : BlobResourceContents w) :
    TextResourceContents.decode (w := w) b.encode = none := by
  simp [TextResourceContents.decode, BlobResourceContents.encode, w.decode_encode]

theorem ContentsItem.reads : Reads (ContentsItem.decode (w := w)) ContentsItem.encode id := by
  intro c
  cases c with
  | textResourceContents t => simp [decode, encode, TextResourceContents.reads t]
  | blobResourceContents b =>
      simp [decode, encode, TextResourceContents.decode_blob, BlobResourceContents.reads b]

/-! ## Blocks -/

/-- The size is an `i64`. -/
def ResourceLink.SizeFits (l : ResourceLink w) : Prop := ∀ n ∈ l.size, n < 2 ^ 63

def TextContent.reread (t : TextContent w) : TextContent w :=
  { t with annotations := t.annotations.map Annotations.reread }

def MediaContent.reread (i : MediaContent w) : MediaContent w :=
  { i with annotations := i.annotations.map Annotations.reread }

def EmbeddedResource.reread (e : EmbeddedResource w) : EmbeddedResource w :=
  { e with annotations := e.annotations.map Annotations.reread }

def ResourceLink.reread (l : ResourceLink w) : ResourceLink w :=
  { l with annotations := l.annotations.map Annotations.reread }

/-- The block as it is read. -/
def ContentBlock.reread : ContentBlock w → ContentBlock w
  | textContent t => textContent t.reread
  | imageContent i => imageContent i.reread
  | audioContent a => imageContent a.reread
  | resourceLink l => resourceLink l.reread
  | embeddedResource e => embeddedResource e.reread

theorem TextContent.reads : Reads (TextContent.decode (w := w)) TextContent.encode reread := by
  intro t
  simp [decode, encode, reread, w.decode_encode]

theorem MediaContent.reads : Reads (MediaContent.decode (w := w)) MediaContent.encode reread := by
  intro i
  simp [decode, encode, reread, w.decode_encode]

theorem EmbeddedResource.reads :
    Reads (EmbeddedResource.decode (w := w)) EmbeddedResource.encode reread := by
  intro e
  simp [decode, encode, reread, w.decode_encode, ContentsItem.reads e.resource]

theorem ResourceLink.decode_encode {l : ResourceLink w} (h : l.SizeFits) :
    decode l.encode = some l.reread := by
  simp [decode, encode, reread, w.decode_encode, orEmpty_skipEmpty Icon.reads, optional_i64 h]

/-! ### Telling blocks apart

Each decoder tried before a block's own misses a required field. -/

theorem TextContent.decode_media (i : MediaContent w) :
    TextContent.decode (w := w) i.encode = none := by
  simp [decode, MediaContent.encode, w.decode_encode]

theorem TextContent.decode_resourceLink (l : ResourceLink w) :
    TextContent.decode (w := w) l.encode = none := by
  simp [decode, ResourceLink.encode, w.decode_encode]

theorem TextContent.decode_embeddedResource (e : EmbeddedResource w) :
    TextContent.decode (w := w) e.encode = none := by
  simp [decode, EmbeddedResource.encode, w.decode_encode]

theorem MediaContent.decode_resourceLink (l : ResourceLink w) :
    MediaContent.decode (w := w) l.encode = none := by
  simp [decode, ResourceLink.encode]

theorem MediaContent.decode_embeddedResource (e : EmbeddedResource w) :
    MediaContent.decode (w := w) e.encode = none := by
  simp [decode, EmbeddedResource.encode]

theorem ResourceLink.decode_embeddedResource (e : EmbeddedResource w) :
    ResourceLink.decode (w := w) e.encode = none := by
  simp [decode, EmbeddedResource.encode, w.decode_encode]

/-- The block fits its wire type. -/
def ContentBlock.SizeFits : ContentBlock w → Prop
  | resourceLink l => l.SizeFits
  | _ => True

/-- **Blocks read back** as they were written, audio as an image. -/
theorem ContentBlock.decode_encode {b : ContentBlock w} (h : b.SizeFits) :
    decode b.encode = some b.reread := by
  cases b with
  | textContent t => simp [decode, encode, reread, TextContent.reads t]
  | imageContent i =>
      simp [decode, encode, reread, TextContent.decode_media, MediaContent.reads i]
  | audioContent a =>
      simp [decode, encode, reread, TextContent.decode_media, MediaContent.reads a]
  | resourceLink l =>
      simp [decode, encode, reread, TextContent.decode_resourceLink,
        MediaContent.decode_resourceLink, ResourceLink.decode_encode h]
  | embeddedResource e =>
      simp [decode, encode, reread, TextContent.decode_embeddedResource,
        MediaContent.decode_embeddedResource, ResourceLink.decode_embeddedResource,
        EmbeddedResource.reads e]

end TurboMcp.Protocol.Wire
