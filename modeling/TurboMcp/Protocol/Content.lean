import TurboMcp.Protocol.Convert
import TurboMcp.Protocol.Reread

/-!
# Content across the wires

A neutral content block comes back from either wire as `Content.reread` says:
itself, except that audio comes back as an image and a priority that is not
finite is lost.
-/

namespace TurboMcp.Protocol.Neutral

open TurboMcp.Core TurboMcp.Lib

variable (w : Wire.MetaWire)

/-! ## Conversions there and back -/

@[simp] theorem Role.ofWire_toWire (r : Role) : ofWire r.toWire = r := by
  cases r <;> rfl

@[simp] theorem IconTheme.ofWire_toWire (t : IconTheme) : ofWire t.toWire = t := by
  cases t <;> rfl

theorem map_ofWire_toWire {α β : Type} {f : α → β} {g : β → α} (h : ∀ a, g (f a) = a)
    (xs : List α) : (xs.map f).map g = xs := by
  rw [List.map_map]
  exact (List.map_congr_left fun a _ => h a).trans (List.map_id' xs)

theorem optionMap_ofWire_toWire {α β : Type} {f : α → β} {g : β → α} (h : ∀ a, g (f a) = a)
    (o : Option α) : (o.map f).map g = o := by
  cases o with
  | none => rfl
  | some a => rw [Option.map_some, Option.map_some, h a]

@[simp] theorem Icon.ofWire_toWire (i : Icon) : ofWire i.toWire = i := by
  simp only [ofWire, toWire, optionMap_ofWire_toWire IconTheme.ofWire_toWire]

@[simp] theorem ResourceContents.ofWire_toWire (c : ResourceContents) :
    ofWire (c.toWire w) = c := by
  cases c <;> simp [ofWire, toWire, w.toMap_ofMap]

/-- The size is an `i64`. -/
def Resource.SizeFits (r : Resource) : Prop := ∀ s ∈ r.size, s.toNat < 2 ^ 63

instance (r : Resource) : Decidable r.SizeFits :=
  match h : r.size with
  | none => isTrue (by simp [Resource.SizeFits, h])
  | some s => decidable_of_iff (s.toNat < 2 ^ 63) (by simp [Resource.SizeFits, h])

theorem sizeToWire_lt (s : UInt64) : sizeToWire s < 2 ^ 63 := by
  unfold sizeToWire
  split <;> omega

theorem sizeOfWire_sizeToWire {s : UInt64} (h : s.toNat < 2 ^ 63) :
    sizeOfWire (sizeToWire s) = s := by
  unfold sizeOfWire sizeToWire
  rw [if_pos h, if_pos (Int.natCast_nonneg _), Int.toNat_natCast, UInt64.ofNat_toNat]

/-! ## What comes back -/

/-- The annotations that come back. -/
def Annotations.reread (a : Annotations) : Annotations :=
  { a with priority := a.priority.filter F64.isFinite }

theorem Annotations.ofWire_reread (a : Annotations) :
    ofWire (a.toWire.reread) = a.reread := by
  simp [ofWire, toWire, Wire.Annotations.reread, reread, map_ofWire_toWire Role.ofWire_toWire]

theorem annotations_ofWire_reread (o : Option Annotations) :
    ((o.map Annotations.toWire).map Wire.Annotations.reread).map Annotations.ofWire =
      o.map Annotations.reread := by
  cases o with
  | none => rfl
  | some a => exact congrArg some (Annotations.ofWire_reread a)

/-- The content that comes back. -/
def Content.reread : Content → Content
  | text body annotations meta_ => text body (annotations.map Annotations.reread) meta_
  | image data mimeType annotations meta_ =>
      image data mimeType (annotations.map Annotations.reread) meta_
  | audio data mimeType annotations meta_ =>
      image data mimeType (annotations.map Annotations.reread) meta_
  | resource contents annotations meta_ =>
      resource contents (annotations.map Annotations.reread) meta_
  | resourceLink r =>
      resourceLink { r with annotations := r.annotations.map Annotations.reread }

/-- A linked resource has a size that fits the wire. -/
def Content.SizeFits : Content → Prop
  | resourceLink r => r.SizeFits
  | _ => True

instance : (c : Content) → Decidable c.SizeFits
  | .resourceLink r => inferInstanceAs (Decidable r.SizeFits)
  | .text .. | .image .. | .audio .. | .resource .. => isTrue trivial

theorem Content.ofWire_reread {c : Content} (h : c.SizeFits) :
    ofWire (c.toWire w).reread = c.reread := by
  cases c with
  | text body annotations meta_ =>
      simp [toWire, Wire.ContentBlock.reread, Wire.TextContent.reread, ofWire, reread,
        annotations_ofWire_reread, w.toMap_ofMap, -Option.map_map]
  | image data mimeType annotations meta_ =>
      simp [toWire, Wire.ContentBlock.reread, Wire.MediaContent.reread, ofWire, reread,
        annotations_ofWire_reread, w.toMap_ofMap, -Option.map_map]
  | audio data mimeType annotations meta_ =>
      simp [toWire, Wire.ContentBlock.reread, Wire.MediaContent.reread, ofWire, reread,
        annotations_ofWire_reread, w.toMap_ofMap, -Option.map_map]
  | resource contents annotations meta_ =>
      simp [toWire, Wire.ContentBlock.reread, Wire.EmbeddedResource.reread, ofWire, reread,
        annotations_ofWire_reread, w.toMap_ofMap, -Option.map_map]
  | resourceLink r =>
      have hsize : (r.size.map sizeToWire).map sizeOfWire = r.size := by
        cases hs : r.size with
        | none => rfl
        | some s => exact congrArg some (sizeOfWire_sizeToWire (h s hs))
      simp [toWire, Wire.ContentBlock.reread, Wire.ResourceLink.reread, ofWire, reread,
        Resource.toLink, Resource.ofLink, annotations_ofWire_reread, w.toMap_ofMap, hsize,
        map_ofWire_toWire Icon.ofWire_toWire, -Option.map_map, -List.map_map]

/-! ### What survives -/

def Content.isAudio : Content → Bool
  | audio .. => true
  | _ => false

def Content.annotations : Content → Option Annotations
  | text _ a _ | image _ _ a _ | audio _ _ a _ | resource _ a _ => a
  | resourceLink r => r.annotations

/-- Not audio, and without a priority that is no number of JSON's. -/
def Content.Survives (c : Content) : Prop :=
  c.isAudio = false ∧ ∀ a ∈ c.annotations, ∀ p ∈ a.priority, p.isFinite = true

theorem annotations_reread_eq_self_iff (o : Option Annotations) :
    o.map Annotations.reread = o ↔ ∀ a ∈ o, ∀ p ∈ a.priority, p.isFinite = true := by
  cases o with
  | none => simp
  | some a =>
      obtain ⟨audience, priority, lastModified⟩ := a
      cases priority with
      | none => simp [Annotations.reread]
      | some p => cases hp : p.isFinite <;> simp [Annotations.reread, Option.filter, hp]

theorem Content.reread_eq_self_iff (c : Content) : c.reread = c ↔ c.Survives := by
  unfold Survives
  rw [← annotations_reread_eq_self_iff]
  cases c with
  | audio data mimeType annotations meta_ => simp [reread, isAudio]
  | resourceLink r =>
      obtain ⟨uri, name, title, description, mimeType, size, annotations, icons, meta_⟩ := r
      simp [reread, isAudio, Content.annotations]
  | _ => simp [reread, isAudio, Content.annotations]

/-! ## Round trips -/

/-- To the wire type, to JSON and back. -/
def Content.roundTrip (c : Content) : Option Content :=
  (Wire.ContentBlock.decode (w := w) (c.toWire w).encode).map ofWire

def CallToolResult.draftRoundTrip (r : CallToolResult) : Option CallToolResult :=
  (Wire.Draft.CallToolResult.decode r.toDraft.encode).map ofDraft

def CallToolResult.legacyRoundTrip (r : CallToolResult) : Option CallToolResult :=
  (Wire.Legacy.CallToolResult.decode r.toLegacy.encode).map ofLegacy

def GetPromptResult.draftRoundTrip (r : GetPromptResult) : Option GetPromptResult :=
  (Wire.Draft.GetPromptResult.decode r.toDraft.encode).map ofDraft

def GetPromptResult.legacyRoundTrip (r : GetPromptResult) : Option GetPromptResult :=
  (Wire.Legacy.GetPromptResult.decode r.toLegacy.encode).map ofLegacy

def ReadResourceResult.draftRoundTrip (r : ReadResourceResult) : Option ReadResourceResult :=
  (Wire.Draft.ReadResourceResult.decode r.toDraft.encode).map ofDraft

def ReadResourceResult.legacyRoundTrip (r : ReadResourceResult) : Option ReadResourceResult :=
  (Wire.Legacy.ReadResourceResult.decode r.toLegacy.encode).map ofLegacy

theorem Content.sizeFits_toWire {c : Content} : (c.toWire w).SizeFits := by
  cases c with
  | resourceLink r =>
      intro n hn
      obtain ⟨s, -, rfl⟩ := Option.map_eq_some_iff.mp hn
      exact sizeToWire_lt s
  | _ => trivial

theorem Content.decode_toWire (c : Content) :
    Wire.ContentBlock.decode (c.toWire w).encode = some (c.toWire w).reread :=
  Wire.ContentBlock.decode_encode (sizeFits_toWire w)

theorem Content.roundTrip_eq {c : Content} (h : c.SizeFits) :
    c.roundTrip w = some c.reread := by
  rw [roundTrip, decode_toWire, Option.map_some, ofWire_reread w h]

/-! ### In results -/

theorem decodeVec_content (cs : List Content) :
    decodeVec (Wire.ContentBlock.decode (w := w))
        (encodeVec Wire.ContentBlock.encode (cs.map (Content.toWire w))) =
      some (cs.map fun c => (c.toWire w).reread) := by
  rw [decodeVec_encodeVec (f := Wire.ContentBlock.reread), List.map_map]
  · rfl
  · intro b hb
    obtain ⟨c, -, rfl⟩ := List.mem_map.mp hb
    exact Content.decode_toWire w c

theorem map_content_reread {cs : List Content} (h : ∀ c ∈ cs, c.SizeFits) :
    (cs.map fun c => (c.toWire w).reread).map Content.ofWire = cs.map Content.reread := by
  rw [List.map_map]
  exact List.map_congr_left fun c hc => Content.ofWire_reread w (h c hc)

theorem CallToolResult.content_draftRoundTrip {r : CallToolResult}
    (h : ∀ c ∈ r.content, c.SizeFits) :
    r.draftRoundTrip.map (·.content) = some (r.content.map Content.reread) := by
  simp [draftRoundTrip, toDraft, Wire.Draft.CallToolResult.encode,
    Wire.Draft.CallToolResult.decode, ofDraft, decodeVec_content, map_content_reread _ h,
    -List.map_map]

theorem CallToolResult.content_legacyRoundTrip {r : CallToolResult}
    (h : ∀ c ∈ r.content, c.SizeFits) :
    r.legacyRoundTrip.map (·.content) = some (r.content.map Content.reread) := by
  simp [legacyRoundTrip, toLegacy, Wire.Legacy.CallToolResult.encode,
    Wire.Legacy.CallToolResult.decode, ofLegacy, decodeVec_content, map_content_reread _ h,
    -List.map_map]

/-- The message that comes back. -/
def PromptMessage.reread (m : PromptMessage) : PromptMessage :=
  { m with content := m.content.reread }

theorem PromptMessage.decode_toWire (m : PromptMessage) :
    Wire.PromptMessage.decode (m.toWire w).encode =
      some { content := (m.content.toWire w).reread, role := m.role.toWire } := by
  simp [toWire, Wire.PromptMessage.encode, Wire.PromptMessage.decode, Content.decode_toWire,
    Wire.Role.reads m.role.toWire]

theorem decodeVec_messages (ms : List PromptMessage) :
    decodeVec (Wire.PromptMessage.decode (w := w))
        (encodeVec Wire.PromptMessage.encode (ms.map (PromptMessage.toWire w))) =
      some (ms.map fun m => { content := (m.content.toWire w).reread, role := m.role.toWire }) := by
  rw [decodeVec_encodeVec (f := fun p => { p with content := p.content.reread }), List.map_map]
  · rfl
  · intro p hp
    obtain ⟨m, -, rfl⟩ := List.mem_map.mp hp
    exact PromptMessage.decode_toWire w m

theorem map_message_reread {ms : List PromptMessage} (h : ∀ m ∈ ms, m.content.SizeFits) :
    (ms.map fun m => (⟨(m.content.toWire w).reread, m.role.toWire⟩ : Wire.PromptMessage w)).map
      PromptMessage.ofWire = ms.map PromptMessage.reread := by
  rw [List.map_map]
  refine List.map_congr_left fun m hm => ?_
  show PromptMessage.mk _ _ = _
  rw [Content.ofWire_reread w (h m hm), Role.ofWire_toWire]
  rfl

theorem GetPromptResult.messages_draftRoundTrip {r : GetPromptResult}
    (h : ∀ m ∈ r.messages, m.content.SizeFits) :
    r.draftRoundTrip.map (·.messages) = some (r.messages.map PromptMessage.reread) := by
  simp [draftRoundTrip, toDraft, Wire.Draft.GetPromptResult.encode,
    Wire.Draft.GetPromptResult.decode, ofDraft, decodeVec_messages, map_message_reread _ h,
    -List.map_map]

theorem GetPromptResult.messages_legacyRoundTrip {r : GetPromptResult}
    (h : ∀ m ∈ r.messages, m.content.SizeFits) :
    r.legacyRoundTrip.map (·.messages) = some (r.messages.map PromptMessage.reread) := by
  simp [legacyRoundTrip, toLegacy, Wire.Legacy.GetPromptResult.encode,
    Wire.Legacy.GetPromptResult.decode, ofLegacy, decodeVec_messages, map_message_reread _ h,
    -List.map_map]

theorem decodeVec_contents (cs : List ResourceContents) :
    decodeVec (Wire.ContentsItem.decode (w := w))
        (encodeVec Wire.ContentsItem.encode (cs.map (ResourceContents.toWire w))) =
      some (cs.map (ResourceContents.toWire w)) := by
  rw [decodeVec_encodeVec fun c _ => Wire.ContentsItem.reads c, List.map_id]

theorem CacheScope.decode_toValue (s : CacheScope) : CacheScope.decode s.toValue = some s := by
  cases s <;> rfl

/-- Contents and cache policy. -/
theorem ReadResourceResult.contents_draftRoundTrip (r : ReadResourceResult) :
    r.draftRoundTrip = some { r with cache := some (r.cache.getD .noCache) } := by
  simp [draftRoundTrip, toDraft, Wire.Draft.ReadResourceResult.encode,
    Wire.Draft.ReadResourceResult.decode, ofDraft, decodeVec_contents,
    CacheScope.decode_toValue, Value.asU64, map_ofWire_toWire (ResourceContents.ofWire_toWire _),
    -List.map_map]

/-- The legacy wire has no cache fields. -/
theorem ReadResourceResult.contents_legacyRoundTrip (r : ReadResourceResult) :
    r.legacyRoundTrip = some { r with cache := none } := by
  simp [legacyRoundTrip, toLegacy, Wire.Legacy.ReadResourceResult.encode,
    Wire.Legacy.ReadResourceResult.decode, ofLegacy, decodeVec_contents,
    map_ofWire_toWire (ResourceContents.ofWire_toWire _), -List.map_map]

/-! ## Survival -/

theorem map_content_reread_eq_self_iff {cs : List Content} :
    cs.map Content.reread = cs ↔ ∀ c ∈ cs, c.Survives := by
  rw [map_eq_self_iff]
  exact forall₂_congr fun c _ => c.reread_eq_self_iff

theorem map_message_reread_eq_self_iff {ms : List PromptMessage} :
    ms.map PromptMessage.reread = ms ↔ ∀ m ∈ ms, m.content.Survives := by
  rw [map_eq_self_iff]
  refine forall₂_congr fun m _ => ?_
  obtain ⟨role, content⟩ := m
  rw [← Content.reread_eq_self_iff]
  simp [PromptMessage.reread]

def greeting : Content := .text "hi" none Map.empty

def song : Content := .audio "YmFy" "audio/wav" none Map.empty

def greetings : GetPromptResult := ⟨none, [⟨.user, greeting⟩, ⟨.assistant, greeting⟩]⟩

end TurboMcp.Protocol.Neutral
