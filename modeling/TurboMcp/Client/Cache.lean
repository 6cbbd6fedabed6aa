import TurboMcp.Core.JsonRpc
import TurboMcp.Core.Serde

/-!
# The response cache

Results that declare a `ttlMs` are kept until it is over; what the server
announces as changed is dropped early.  `lookup` is what a caller sees of the
cache: the entry of a key that has not expired.
-/

namespace TurboMcp.Client

open TurboMcp.Core TurboMcp.Lib

/-- A method, and the cursor of a listing or the URI of a read. -/
abbrev CacheKey := String × Option String

/-- Times are in milliseconds. -/
structure CacheEntry where
  value : Value
  expiresAt : Nat

structure ResponseCache where
  entries : Dict CacheKey CacheEntry

namespace ResponseCache

def maxEntries : Nat := 1024

def empty : ResponseCache := { entries := Dict.empty }

/-- A fresh result, if there is one; an expired one is dropped on the way. -/
def get (cache : ResponseCache) (now : Nat) (key : CacheKey) : Option Value × ResponseCache :=
  match cache.entries.get key with
  | some entry =>
      if now < entry.expiresAt then (some entry.value, cache)
      else (none, { entries := cache.entries.remove key })
  | none => (none, cache)

/-- The time a result may be kept, where it may be. -/
def ttlMs (value : Value) : Option Nat :=
  ((value.get "ttlMs").bind Value.asU64).filter (0 < ·)

/-- The keys that expire first. -/
def soonest (entries : Dict CacheKey CacheEntry) : List CacheKey :=
  (entries.entries.filter fun e =>
    entries.entries.all fun e' => e.2.expiresAt ≤ e'.2.expiresAt).map (·.1)

/-- At the cap, the expired entries go first. -/
def dropExpired (entries : Dict CacheKey CacheEntry) (now : Nat) : Dict CacheKey CacheEntry :=
  if maxEntries ≤ entries.len then entries.retain fun _ e => now < e.expiresAt else entries

/-- Still at the cap, one that expires first goes; of several, `tie` is the one
the map's order puts up. -/
def evict (entries : Dict CacheKey CacheEntry) (tie : Nat) : Dict CacheKey CacheEntry :=
  if maxEntries ≤ entries.len then
    match (soonest entries)[tie % (soonest entries).length]? with
    | some key => entries.remove key
    | none => entries
  else entries

def store (cache : ResponseCache) (now tie : Nat) (key : CacheKey) (value : Value) :
    ResponseCache :=
  match ttlMs value with
  | none => cache
  | some ttl =>
      { entries := (evict (dropExpired cache.entries now) tie).insert key
          { value, expiresAt := now + ttl } }

/-- Drop what a notification obsoletes. -/
def onNotification (cache : ResponseCache) (method : String) (params : Option Value) :
    ResponseCache :=
  if method = "notifications/tools/list_changed" then
    { entries := cache.entries.retain fun key _ => key.1 ≠ "tools/list" }
  else if method = "notifications/prompts/list_changed" then
    { entries := cache.entries.retain fun key _ => key.1 ≠ "prompts/list" }
  else if method = "notifications/resources/list_changed" then
    { entries := cache.entries.retain fun key _ =>
        key.1 ≠ "resources/list" ∧ key.1 ≠ "resources/templates/list" ∧ key.1 ≠ "resources/read" }
  else if method = "notifications/resources/updated" then
    match (params.bind (·.get "uri")).bind Value.asStr with
    | some uri => { entries := cache.entries.remove ("resources/read", some uri) }
    | none => cache
  else cache

def clear (_ : ResponseCache) : ResponseCache := empty

/-! ## What a caller sees -/

def lookup (cache : ResponseCache) (now : Nat) (key : CacheKey) : Option Value :=
  (cache.get now key).1

variable {cache : ResponseCache} {now : Nat} {key key' : CacheKey} {v : Value}

theorem lookup_eq_some :
    cache.lookup now key = some v ↔
      ∃ entry, cache.entries.get key = some entry ∧ now < entry.expiresAt ∧ entry.value = v := by
  unfold lookup get
  cases cache.entries.get key with
  | none => simp
  | some entry =>
      by_cases hfresh : now < entry.expiresAt
      · simp [hfresh]
      · simp [hfresh]

/-- What is there with fewer entries was there before. -/
theorem lookup_of_entries {cache' : ResponseCache}
    (h : ∀ entry, cache'.entries.get key = some entry → cache.entries.get key = some entry)
    (hv : cache'.lookup now key = some v) : cache.lookup now key = some v := by
  obtain ⟨entry, hentry, hfresh, hvalue⟩ := lookup_eq_some.mp hv
  exact lookup_eq_some.mpr ⟨entry, h entry hentry, hfresh, hvalue⟩

theorem lookup_of_later {ms : Nat} (h : cache.lookup (now + ms) key = some v) :
    cache.lookup now key = some v := by
  obtain ⟨entry, hentry, hfresh, hvalue⟩ := lookup_eq_some.mp h
  exact lookup_eq_some.mpr ⟨entry, hentry, by omega, hvalue⟩

theorem get_of_retain {entries : Dict CacheKey CacheEntry} {p : CacheKey → CacheEntry → Bool}
    {entry : CacheEntry} (h : (entries.retain p).get key = some entry) :
    entries.get key = some entry := by
  rw [Dict.get_retain, Option.filter_eq_some_iff] at h
  exact h.1

theorem lookup_of_get (h : (cache.get now key).2.lookup now key' = some v) :
    cache.lookup now key' = some v := by
  refine lookup_of_entries ?_ h
  intro entry
  unfold get
  split
  · split
    · exact fun hentry => hentry
    · exact get_of_retain
  · exact fun hentry => hentry

theorem get_of_evict {entries : Dict CacheKey CacheEntry} {tie : Nat} {entry : CacheEntry}
    (h : (evict (dropExpired entries now) tie).get key = some entry) :
    entries.get key = some entry := by
  have hexpired : (dropExpired entries now).get key = some entry →
      entries.get key = some entry := by
    unfold dropExpired
    split
    · exact get_of_retain
    · exact fun hentry => hentry
  unfold evict at h
  split at h
  · split at h
    · exact hexpired (get_of_retain h)
    · exact hexpired h
  · exact hexpired h

/-- Storing makes one entry visible, and no other. -/
theorem lookup_store {tie : Nat} {value : Value} :
    (cache.store now tie key value).lookup now key' = some v →
      (key' = key ∧ v = value ∧ (ttlMs value).isSome) ∨ cache.lookup now key' = some v := by
  unfold store
  cases httl : ttlMs value with
  | none => exact Or.inr
  | some ttl =>
      intro h
      obtain ⟨entry, hentry, hfresh, rfl⟩ := lookup_eq_some.mp h
      rw [Dict.get_insert] at hentry
      split at hentry
      · rename_i heq
        obtain rfl := Option.some.inj hentry
        exact Or.inl ⟨heq.symm, rfl, rfl⟩
      · exact Or.inr (lookup_eq_some.mpr ⟨entry, get_of_evict hentry, hfresh, rfl⟩)

theorem lookup_stored {tie : Nat} {value : Value} (h : (ttlMs value).isSome) :
    (cache.store now tie key value).lookup now key = some value := by
  obtain ⟨ttl, httl⟩ := Option.isSome_iff_exists.mp h
  have hpositive : 0 < ttl := by
    unfold ttlMs at httl
    rw [Option.filter_eq_some_iff] at httl
    exact of_decide_eq_true httl.2
  unfold store
  rw [httl]
  refine lookup_eq_some.mpr ⟨{ value, expiresAt := now + ttl }, ?_, ?_, rfl⟩
  · exact Dict.get_insert_self _ _ _
  · show now < now + ttl
    omega

/-! ## Invalidation -/

/-- The results a notification is about. -/
def Obsoletes (n : JsonRpcNotification) (key : CacheKey) : Prop :=
  (n.method = "notifications/tools/list_changed" ∧ key.1 = "tools/list") ∨
    (n.method = "notifications/prompts/list_changed" ∧ key.1 = "prompts/list") ∨
    (n.method = "notifications/resources/list_changed" ∧
      (key.1 = "resources/list" ∨ key.1 = "resources/templates/list" ∨
        key.1 = "resources/read")) ∨
    (n.method = "notifications/resources/updated" ∧
      ∃ uri, (n.params.bind (·.get "uri")).bind Value.asStr = some uri ∧
        key = ("resources/read", some uri))

/-- **Invalidation**: no result a notification is about is seen after it. -/
theorem lookup_onNotification {n : JsonRpcNotification}
    (h : (cache.onNotification n.method n.params).lookup now key = some v) :
    cache.lookup now key = some v ∧ ¬ Obsoletes n key := by
  have hnames : "notifications/tools/list_changed" ≠ "notifications/prompts/list_changed" ∧
      "notifications/tools/list_changed" ≠ "notifications/resources/list_changed" ∧
      "notifications/tools/list_changed" ≠ "notifications/resources/updated" ∧
      "notifications/prompts/list_changed" ≠ "notifications/resources/list_changed" ∧
      "notifications/prompts/list_changed" ≠ "notifications/resources/updated" ∧
      "notifications/resources/list_changed" ≠ "notifications/resources/updated" := by decide
  -- what is kept passes the filter
  have hkept : ∀ {p : CacheKey → CacheEntry → Bool},
      ResponseCache.lookup { entries := cache.entries.retain p } now key = some v →
        cache.lookup now key = some v ∧ ∃ e, p key e = true := by
    intro p hp
    refine ⟨lookup_of_entries (fun _ => get_of_retain) hp, ?_⟩
    obtain ⟨entry, hentry, -⟩ := lookup_eq_some.mp hp
    change (cache.entries.retain p).get key = some entry at hentry
    rw [Dict.get_retain, Option.filter_eq_some_iff] at hentry
    exact ⟨entry, hentry.2⟩
  unfold onNotification at h
  unfold Obsoletes
  split at h
  · rename_i hmethod
    obtain ⟨hlookup, e, he⟩ := hkept h
    refine ⟨hlookup, ?_⟩
    simpa [hmethod, hnames] using he
  · split at h
    · rename_i hmethod
      obtain ⟨hlookup, e, he⟩ := hkept h
      refine ⟨hlookup, ?_⟩
      simpa [hmethod, hnames, hnames.1.symm] using he
    · split at h
      · rename_i hmethod
        obtain ⟨hlookup, e, he⟩ := hkept h
        refine ⟨hlookup, ?_⟩
        simpa [hmethod, hnames] using he
      · split at h
        · rename_i htools hprompts hlist hmethod
          split at h
          · rename_i uri huri
            obtain ⟨hlookup, e, he⟩ := hkept h
            refine ⟨hlookup, ?_⟩
            simpa [htools, hprompts, hlist, hmethod, huri] using he
          · rename_i huri
            refine ⟨h, ?_⟩
            simp [htools, hprompts, hlist, huri]
        · rename_i htools hprompts hlist hupdated
          refine ⟨h, ?_⟩
          simp [htools, hprompts, hlist, hupdated]

end ResponseCache

end TurboMcp.Client
