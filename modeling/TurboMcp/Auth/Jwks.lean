import TurboMcp.Lib.Runs
import TurboMcp.Lib.Windows
import TurboMcp.Lib.Dict
import TurboMcp.Auth.Principal

/-!
# Keys from an authorization server

`HttpJwks` caches the key set of an authorization server.  A call looks in the
cache while it is fresh; where the cache has expired or lacks the `kid`, the set
is fetched, and where a set that was fetched for staleness lacks it, once more.
Nothing else limits the fetches: calls do not see each other's, and a `kid` the
server does not know costs a fetch each time it is asked for.
-/

namespace TurboMcp.Auth

open TurboMcp.Lib

structure Jwk (κ : Type) where
  keyId : Option String
  key : κ
  deriving DecidableEq

structure JwkSet (κ : Type) where
  keys : List (Jwk κ)
  deriving DecidableEq

namespace JwkSet

variable {κ : Type}

def find (set : JwkSet κ) (kid : String) : Option (Jwk κ) :=
  set.keys.find? fun jwk => jwk.keyId = some kid

/-- The key for `kid`; without one, the only key there is. -/
def lookup (set : JwkSet κ) : Option String → Option (Jwk κ)
  | some kid => set.find kid
  | none =>
      match set.keys with
      | [only] => some only
      | _ => none

end JwkSet

structure Cached (κ : Type) where
  set : JwkSet κ
  fetched : Nat

structure HttpJwks (κ : Type) where
  ttl : Nat
  cache : Option (Cached κ)

/-- Why there is no key set: the exchange failed, or what came is none. -/
inductive FetchError
  | failed (e : String)
  | undecodable (e : String)

def FetchError.error : FetchError → AuthError
  | failed e => .keyUnavailable ("JWKS fetch failed: " ++ e)
  | undecodable e => .keyUnavailable ("JWKS decode failed: " ++ e)

/-- What a fetch brings. -/
abbrev Response (κ : Type) := Except FetchError (JwkSet κ)

/-- How a call goes on: at a fetch, or with its result. -/
inductive Turn (δ : Type)
  | fetch (force : Bool)
  | done (result : Except AuthError δ)

namespace HttpJwks

variable {κ δ : Type}

def new (ttl : Nat) : HttpJwks κ where
  ttl := ttl
  cache := none

def cachedFresh (jwks : HttpJwks κ) (now : Nat) : Option (JwkSet κ) :=
  (jwks.cache.filter fun c => now - c.fetched < jwks.ttl).map (·.set)

/-- The cache has the key. -/
def holds (jwks : HttpJwks κ) (now : Nat) (kid : Option String) : Bool :=
  ((jwks.cachedFresh now).bind (·.lookup kid)).isSome

section

-- `DecodingKey::from_jwk`, and how a `kid` is printed
variable (fromJwk : Jwk κ → Except String δ) (debugKid : Option String → String)

def decodingKeyOf (jwk : Jwk κ) : Except AuthError δ :=
  match fromJwk jwk with
  | .ok key => .ok key
  | .error e => .error (.keyUnavailable ("bad JWK: " ++ e))

/-- One round of the loop of `decoding_key` with its key set at hand: a miss in the
first round enters the second, which fetches. -/
def look (kid : Option String) (force : Bool) (set : JwkSet κ) : Turn δ :=
  match set.lookup kid with
  | some jwk => .done (decodingKeyOf fromJwk jwk)
  | none =>
      if force then .done (.error (.keyUnavailable ("no JWK for kid " ++ debugKid kid)))
      else .fetch true

/-- `decoding_key`, up to its first fetch. -/
def enter (jwks : HttpJwks κ) (now : Nat) (kid : Option String) : Turn δ :=
  match jwks.cachedFresh now with
  | some set => look fromJwk debugKid kid false set
  | none => .fetch false

/-- `decoding_key`, with what a fetch brought. -/
def resume (kid : Option String) (force : Bool) : Response κ → Turn δ
  | .ok set => look fromJwk debugKid kid force set
  | .error e => .done (.error e.error)

/-- The cache after a fetch. -/
def store (jwks : HttpJwks κ) (now : Nat) : Response κ → HttpJwks κ
  | .ok set => { jwks with cache := some { set, fetched := now } }
  | .error _ => jwks

variable {jwks : HttpJwks κ} {now : Nat} {kid : Option String}

/-- The cache answers a call that it has the key for. -/
theorem enter_of_holds (h : jwks.holds now kid = true) :
    ∃ (set : JwkSet κ) (jwk : Jwk κ), set.lookup kid = some jwk ∧
      jwks.enter fromJwk debugKid now kid = .done (decodingKeyOf fromJwk jwk) := by
  unfold holds at h
  rcases hfresh : jwks.cachedFresh now with _ | set
  · rw [hfresh] at h
    cases h
  · rw [hfresh, Option.bind_some] at h
    obtain ⟨jwk, hjwk⟩ := Option.isSome_iff_exists.mp h
    refine ⟨set, jwk, hjwk, ?_⟩
    unfold enter
    rw [hfresh]
    simp only [look, hjwk]

/-- Other calls begin with a fetch, whether the cache has expired or lacks the key. -/
theorem enter_of_not_holds (h : jwks.holds now kid = false) :
    ∃ force, jwks.enter fromJwk debugKid now kid = .fetch force := by
  unfold holds at h
  unfold enter
  rcases hfresh : jwks.cachedFresh now with _ | set
  · exact ⟨false, rfl⟩
  · rw [hfresh, Option.bind_some, Option.isSome_eq_false_iff, Option.isNone_iff_eq_none] at h
    refine ⟨true, ?_⟩
    simp only [look, h]
    rfl

/-- After a fetch a call returns, with the key if the fetch brought it, or fetches
again: the first time, on a set that lacks the key. -/
theorem resume_cases (kid : Option String) (force : Bool) (response : Response κ) :
    (∃ set jwk, response = .ok set ∧ set.lookup kid = some jwk ∧
        resume fromJwk debugKid kid force response = .done (decodingKeyOf fromJwk jwk)) ∨
      ((∀ set, response = .ok set → set.lookup kid = none ∧ force = true) ∧
        ∃ e, resume fromJwk debugKid kid force response = .done (.error e)) ∨
      ∃ set, response = .ok set ∧ set.lookup kid = none ∧ force = false ∧
        resume fromJwk debugKid kid force response = .fetch true := by
  rcases response with e | set
  · right
    left
    exact ⟨nofun, e.error, rfl⟩
  · rcases hlookup : set.lookup kid with _ | jwk
    · right
      rcases force with _ | _
      · right
        refine ⟨set, rfl, hlookup, rfl, ?_⟩
        simp only [resume, look, hlookup]
        rfl
      · left
        refine ⟨?_, .keyUnavailable ("no JWK for kid " ++ debugKid kid), ?_⟩
        · rintro set' ⟨⟩
          exact ⟨hlookup, rfl⟩
        · simp only [resume, look, hlookup]
          rfl
    · left
      refine ⟨set, jwk, rfl, hlookup, ?_⟩
      simp only [resume, look, hlookup]

end

end HttpJwks

/-! ## Interleaved calls -/

/-- A call waiting for its fetch, with what fetches brought it so far. -/
structure KeyCall (κ : Type) where
  kid : Option String
  force : Bool
  answers : List (Response κ)

/-- A call that has returned. -/
structure KeyResult (κ δ : Type) where
  kid : Option String
  answers : List (Response κ)
  result : Except AuthError δ

/-- A source, its calls and what they did: each fetch with the call and the time it
was begun by and at, and the calls that the cache left without a key. -/
structure KeyCalls (κ δ : Type) where
  source : HttpJwks κ
  now : Nat
  begun : Nat
  waiting : Dict Nat (KeyCall κ)
  fetches : List (Nat × Nat)
  misses : List (Nat × Nat)
  returned : List (KeyResult κ δ)

/-- A call can be dropped where it waits. -/
inductive KeyAction (κ : Type)
  | wait (time : Nat)
  | call (kid : Option String)
  | respond (id : Nat) (response : Response κ)
  | drop (id : Nat)

namespace KeyCalls

variable {κ δ : Type}

def init (ttl : Nat) : KeyCalls κ δ where
  source := .new ttl
  now := 0
  begun := 0
  waiting := .empty
  fetches := []
  misses := []
  returned := []

/-- The call goes on. -/
def settle (s : KeyCalls κ δ) (id : Nat) (kid : Option String) (answers : List (Response κ)) :
    Turn δ → KeyCalls κ δ
  | .fetch force =>
      { s with
        waiting := s.waiting.insert id { kid, force, answers }
        fetches := s.fetches ++ [(id, s.now)] }
  | .done result =>
      { s with
        waiting := s.waiting.remove id
        returned := s.returned ++ [{ kid, answers, result }] }

section

variable (fromJwk : Jwk κ → Except String δ) (debugKid : Option String → String)

def step (s : KeyCalls κ δ) : KeyAction κ → Option (KeyCalls κ δ)
  | .wait time => some { s with now := s.now + time }
  | .call kid =>
      some ({ s with
        begun := s.begun + 1
        misses := if s.source.holds s.now kid then s.misses else s.misses ++ [(s.begun, s.now)]
        }.settle s.begun kid [] (s.source.enter fromJwk debugKid s.now kid))
  | .respond id response =>
      (s.waiting.get id).map fun call =>
        { s with source := s.source.store s.now response }.settle id call.kid
          (call.answers ++ [response])
          (HttpJwks.resume fromJwk debugKid call.kid call.force response)
  | .drop id => (s.waiting.get id).map fun _ => { s with waiting := s.waiting.remove id }

/-! ### What a step can do -/

/-- A call finds its key where it is: in the fresh cache at once, and otherwise in the
set that its fetch is answered with. It waits for that until it is dropped. -/
structure Finds (s : KeyCalls κ δ) (a : KeyAction κ) (t : KeyCalls κ δ) : Prop where
  cached : ∀ kid set jwk, a = .call kid → s.source.cachedFresh s.now = some set →
    set.lookup kid = some jwk →
      t.returned = s.returned ++ [⟨kid, [], HttpJwks.decodingKeyOf fromJwk jwk⟩]
  asks : ∀ kid, a = .call kid → s.source.holds s.now kid = false →
    ∃ force, t.waiting.get s.begun = some ⟨kid, force, []⟩
  answered : ∀ id call set jwk, a = .respond id (.ok set) → s.waiting.get id = some call →
    set.lookup call.kid = some jwk →
      t.waiting.get id = none ∧ t.returned = s.returned ++
        [⟨call.kid, call.answers ++ [.ok set], HttpJwks.decodingKeyOf fromJwk jwk⟩]
  waits : ∀ id call, s.waiting.get id = some call →
    t.waiting.get id = some call ∨ a = .drop id ∨ ∃ response, a = .respond id response

/-- Fewer than `b` of the calls that the cache leaves without a key begin within a
cooldown before a call it leaves without; and the set that a stale cache's call
fetches has its key. -/
def Admitted (b cooldown : Nat) (s : KeyCalls κ δ) : KeyAction κ → Prop
  | .call kid =>
      s.source.holds s.now kid = true ∨
        (recent cooldown s.now (s.misses.map Prod.snd)).length < b
  | .respond id (.ok set) =>
      ∀ call, s.waiting.get id = some call → call.force = false → (set.lookup call.kid).isSome
  | _ => True

/-- Nothing is fetched. -/
structure NoFetch (s t : KeyCalls κ δ) : Prop where
  fetches : t.fetches = s.fetches
  misses : t.misses = s.misses
  begun : s.begun ≤ t.begun
  now : s.now ≤ t.now
  waiting : ∀ id, (t.waiting.get id).isSome → (s.waiting.get id).isSome

/-- A call begins with a fetch. -/
structure FirstFetch (s t : KeyCalls κ δ) : Prop where
  fetches : t.fetches = s.fetches ++ [(s.begun, s.now)]
  misses : t.misses = s.misses ++ [(s.begun, s.now)]
  begun : t.begun = s.begun + 1
  now : t.now = s.now
  waiting : ∀ id, (t.waiting.get id).isSome → id = s.begun ∨ (s.waiting.get id).isSome

/-- A call fetches again. -/
structure SecondFetch (id : Nat) (s t : KeyCalls κ δ) : Prop where
  fetches : t.fetches = s.fetches ++ [(id, s.now)]
  misses : t.misses = s.misses
  begun : t.begun = s.begun
  now : t.now = s.now
  waiting : ∀ id', (t.waiting.get id').isSome → (s.waiting.get id').isSome

variable {fromJwk debugKid} {s t : KeyCalls κ δ}

theorem noFetch_done {u : KeyCalls κ δ} {kid : Option String} {answers : List (Response κ)}
    {id : Nat} {result : Except AuthError δ} (hfetches : u.fetches = s.fetches)
    (hmisses : u.misses = s.misses) (hbegun : s.begun ≤ u.begun) (hnow : u.now = s.now)
    (hwaiting : u.waiting = s.waiting) :
    NoFetch s (u.settle id kid answers (.done result)) where
  fetches := hfetches
  misses := hmisses
  begun := hbegun
  now := Nat.le_of_eq hnow.symm
  waiting := by
    intro id' hid
    rw [settle, Dict.get_remove, hwaiting] at hid
    split at hid
    · cases hid
    · exact hid

/-- **What a step can do**: fetch nothing, or begin a call with a fetch because the
cache has no key for it, or fetch again because the set of a stale cache's call
lacked the key. -/
theorem step_cases {a : KeyAction κ} (h : s.step fromJwk debugKid a = some t) :
    (NoFetch s t ∧ ∀ b cooldown, Admitted b cooldown s a) ∨
      (FirstFetch s t ∧ ∃ kid, a = .call kid ∧ s.source.holds s.now kid = false) ∨
      ∃ id call set, SecondFetch id s t ∧ a = .respond id (.ok set) ∧
        s.waiting.get id = some call ∧ call.force = false ∧ set.lookup call.kid = none := by
  rcases a with time | kid | ⟨id, response⟩ | id
  · cases h
    left
    refine ⟨⟨rfl, rfl, Nat.le_refl _, Nat.le_add_right _ _, fun _ h => h⟩, ?_⟩
    intro b cooldown
    exact trivial
  · cases h
    rcases hholds : s.source.holds s.now kid with _ | _
    · right
      left
      refine ⟨?_, kid, rfl, hholds⟩
      obtain ⟨force, hforce⟩ := HttpJwks.enter_of_not_holds fromJwk debugKid hholds
      rw [hforce]
      refine ⟨rfl, rfl, rfl, rfl, ?_⟩
      intro id hid
      rw [settle, Dict.get_insert] at hid
      split at hid
      · rename_i heq
        exact .inl heq.symm
      · exact .inr hid
    · left
      obtain ⟨set, jwk, hjwk, hdone⟩ := HttpJwks.enter_of_holds fromJwk debugKid hholds
      rw [hdone]
      exact ⟨noFetch_done rfl rfl (Nat.le_succ _) rfl rfl, fun b cooldown => .inl hholds⟩
  · obtain ⟨call, hcall, rfl⟩ := Option.map_eq_some_iff.mp h
    rcases HttpJwks.resume_cases fromJwk debugKid call.kid call.force response with
      ⟨set, jwk, rfl, hjwk, hdone⟩ | ⟨hlast, e, hdone⟩ | ⟨set, rfl, hlookup, hforce, hfetch⟩
    · left
      rw [hdone]
      refine ⟨noFetch_done rfl rfl (Nat.le_refl _) rfl rfl, ?_⟩
      intro b cooldown call' hcall' _
      rw [hcall] at hcall'
      cases hcall'
      rw [hjwk]
      rfl
    · left
      rw [hdone]
      refine ⟨noFetch_done rfl rfl (Nat.le_refl _) rfl rfl, ?_⟩
      intro b cooldown
      rcases response with e' | set
      · exact trivial
      · intro call' hcall' hfirst
        rw [hcall] at hcall'
        cases hcall'
        -- only an error ends the first round without a key
        rw [(hlast set rfl).2] at hfirst
        cases hfirst
    · right
      right
      refine ⟨id, call, set, ?_, rfl, hcall, hforce, hlookup⟩
      rw [hfetch]
      refine ⟨rfl, rfl, rfl, rfl, ?_⟩
      intro id' hid
      rw [settle, Dict.get_insert] at hid
      split at hid
      · rename_i heq
        rw [← heq, hcall]
        rfl
      · exact hid
  · obtain ⟨call, -, rfl⟩ := Option.map_eq_some_iff.mp h
    left
    refine ⟨⟨rfl, rfl, Nat.le_refl _, Nat.le_refl _, ?_⟩, ?_⟩
    · intro id' hid
      rw [Dict.get_remove] at hid
      split at hid
      · cases hid
      · exact hid
    · intro b cooldown
      exact trivial

/-! ### What is logged -/

/-- Fetches are logged when they begin, each under a call that has begun; a call that
waits has fetched; and as long as no call fetched twice, the fetches are those of
the calls that the cache left without a key. -/
structure Logged (s : KeyCalls κ δ) : Prop where
  minted : ∀ f ∈ s.fetches, f.1 < s.begun
  past : ∀ f ∈ s.fetches, f.2 ≤ s.now
  waiting : ∀ id, (s.waiting.get id).isSome → id ∈ s.fetches.map Prod.fst
  misses : (s.fetches.map Prod.fst).Nodup → s.misses = s.fetches

theorem logged_init (ttl : Nat) : Logged (init ttl : KeyCalls κ δ) where
  minted := by
    intro f hf
    cases hf
  past := by
    intro f hf
    cases hf
  waiting := by
    intro id hid
    cases hid
  misses := fun _ => rfl

theorem Logged.of_noFetch (hlogged : Logged s) (h : NoFetch s t) : Logged t where
  minted := by
    intro f hf
    rw [h.fetches] at hf
    exact Nat.lt_of_lt_of_le (hlogged.minted f hf) h.begun
  past := by
    intro f hf
    rw [h.fetches] at hf
    exact Nat.le_trans (hlogged.past f hf) h.now
  waiting := by
    intro id hid
    rw [h.fetches]
    exact hlogged.waiting id (h.waiting id hid)
  misses := by
    rw [h.fetches, h.misses]
    exact hlogged.misses

theorem Logged.of_firstFetch (hlogged : Logged s) (h : FirstFetch s t) : Logged t where
  minted := by
    rw [h.fetches, h.begun, List.forall_mem_append, List.forall_mem_singleton]
    exact ⟨fun f hf => Nat.lt_succ_of_lt (hlogged.minted f hf), Nat.lt_succ_self _⟩
  past := by
    rw [h.fetches, h.now, List.forall_mem_append, List.forall_mem_singleton]
    exact ⟨hlogged.past, Nat.le_refl _⟩
  waiting := by
    intro id hid
    rw [h.fetches, List.map_append, List.mem_append]
    rcases h.waiting id hid with rfl | hid
    · exact .inr List.mem_cons_self
    · exact .inl (hlogged.waiting id hid)
  misses := by
    intro hnodup
    rw [h.fetches, List.map_append] at hnodup
    rw [h.fetches, h.misses, hlogged.misses hnodup.of_append_left]

/-- A call that fetches again is in the log twice. -/
theorem not_nodup_of_secondFetch {id : Nat} (hlogged : Logged s) (h : SecondFetch id s t)
    (hid : (s.waiting.get id).isSome) : ¬ (t.fetches.map Prod.fst).Nodup := by
  intro hnodup
  rw [h.fetches, List.map_append] at hnodup
  have hdisjoint := List.disjoint_of_nodup_append hnodup
  exact hdisjoint (hlogged.waiting id hid) List.mem_cons_self

theorem Logged.of_secondFetch {id : Nat} (hlogged : Logged s) (h : SecondFetch id s t)
    (hid : (s.waiting.get id).isSome) : Logged t where
  minted := by
    obtain ⟨f, hf, hfst⟩ := List.mem_map.mp (hlogged.waiting id hid)
    rw [h.fetches, h.begun, List.forall_mem_append, List.forall_mem_singleton]
    refine ⟨hlogged.minted, ?_⟩
    have hlt := hlogged.minted f hf
    rwa [hfst] at hlt
  past := by
    rw [h.fetches, h.now, List.forall_mem_append, List.forall_mem_singleton]
    exact ⟨hlogged.past, Nat.le_refl _⟩
  waiting := by
    intro id' hid'
    rw [h.fetches, List.map_append]
    exact List.mem_append_left _ (hlogged.waiting id' (h.waiting id' hid'))
  misses := fun hnodup => absurd hnodup (not_nodup_of_secondFetch hlogged h hid)

theorem logged_step {a : KeyAction κ} (h : s.step fromJwk debugKid a = some t)
    (hlogged : Logged s) : Logged t := by
  rcases step_cases h with ⟨hkept, -⟩ | ⟨hfirst, -⟩ | ⟨id, call, set, hsecond, -, hcall, -⟩
  · exact hlogged.of_noFetch hkept
  · exact hlogged.of_firstFetch hfirst
  · exact hlogged.of_secondFetch hsecond (Option.isSome_of_eq_some hcall)

/-! ### The cooldown -/

/-- No call fetches twice, and no more than `b` fetches begin in any window as long as
the cooldown. -/
structure Cooled (b cooldown : Nat) (s : KeyCalls κ δ) : Prop where
  once : (s.fetches.map Prod.fst).Nodup
  window : Bounded b cooldown (s.fetches.map Prod.snd)

variable {b cooldown : Nat}

theorem cooled_of_noFetch (hcooled : Cooled b cooldown s) (h : NoFetch s t) :
    Cooled b cooldown t where
  once := by
    rw [h.fetches]
    exact hcooled.once
  window := by
    rw [h.fetches]
    exact hcooled.window

/-- A first fetch keeps the bound exactly if few enough calls were left without a key
within the cooldown. -/
theorem cooled_of_firstFetch_iff (hlogged : Logged s) (hcooled : Cooled b cooldown s)
    (h : FirstFetch s t) :
    Cooled b cooldown t ↔ (recent cooldown s.now (s.misses.map Prod.snd)).length < b := by
  have hpast : ∀ x ∈ s.fetches.map Prod.snd, x ≤ s.now := by
    rw [List.forall_mem_map]
    exact hlogged.past
  have hwindow : Bounded b cooldown (t.fetches.map Prod.snd) ↔
      (recent cooldown s.now (s.misses.map Prod.snd)).length < b := by
    rw [h.fetches, List.map_append, hlogged.misses hcooled.once]
    exact (bounded_concat_iff hpast).trans (and_iff_right hcooled.window)
  rw [← hwindow]
  constructor
  · exact Cooled.window
  · intro hbounded
    refine ⟨?_, hbounded⟩
    rw [h.fetches, List.map_append]
    -- The call has just begun, so its id is in no earlier entry.
    apply hcooled.once.append (List.nodup_singleton _)
    intro id hid hself
    have hbegun : id = s.begun := List.mem_singleton.mp hself
    obtain ⟨f, hf, rfl⟩ := List.mem_map.mp hid
    have hlt := hlogged.minted f hf
    omega

theorem cooled_step_iff {a : KeyAction κ} (h : s.step fromJwk debugKid a = some t)
    (hlogged : Logged s) (hcooled : Cooled b cooldown s) :
    Cooled b cooldown t ↔ Admitted b cooldown s a := by
  rcases step_cases h with ⟨hkept, hadmitted⟩ | ⟨hfirst, kid, rfl, hholds⟩ |
    ⟨id, call, set, hsecond, rfl, hcall, hforce, hlookup⟩
  · exact iff_of_true (cooled_of_noFetch hcooled hkept) (hadmitted b cooldown)
  · rw [cooled_of_firstFetch_iff hlogged hcooled hfirst]
    show _ ↔ s.source.holds s.now kid = true ∨ _
    rw [hholds, Bool.false_eq_true, false_or]
  · refine iff_of_false ?_ ?_
    · intro ht
      exact not_nodup_of_secondFetch hlogged hsecond (Option.isSome_of_eq_some hcall) ht.once
    · intro hadmitted
      have hsome := hadmitted call hcall hforce
      rw [hlookup] at hsome
      cases hsome

/-! ### Finding keys -/

theorem Logged.waiting_lt (hlogged : Logged s) {id : Nat} {call : KeyCall κ}
    (h : s.waiting.get id = some call) : id < s.begun := by
  obtain ⟨f, hf, rfl⟩ := List.mem_map.mp (hlogged.waiting id (Option.isSome_of_eq_some h))
  exact hlogged.minted f hf

/-- Where a call goes on, the others wait as they did. -/
theorem waiting_settle_of_ne (s : KeyCalls κ δ) {id id' : Nat} (hne : id ≠ id')
    (kid : Option String) (answers : List (Response κ)) (turn : Turn δ) :
    (s.settle id kid answers turn).waiting.get id' = s.waiting.get id' := by
  cases turn with
  | fetch force => rw [settle, Dict.get_insert, if_neg hne]
  | done result => rw [settle, Dict.get_remove, if_neg hne]

theorem finds_call {kid : Option String} (h : s.step fromJwk debugKid (.call kid) = some t)
    (hlogged : Logged s) : Finds fromJwk s (.call kid) t where
  cached := by
    rintro _ set jwk ⟨⟩ hfresh hjwk
    cases h
    simp only [HttpJwks.enter, hfresh, HttpJwks.look, hjwk]
    rfl
  asks := by
    rintro _ ⟨⟩ hholds
    cases h
    obtain ⟨force, hforce⟩ := HttpJwks.enter_of_not_holds fromJwk debugKid hholds
    refine ⟨force, ?_⟩
    rw [hforce]
    exact Dict.get_insert_self ..
  answered := nofun
  waits := by
    intro id call hcall
    cases h
    have hne : s.begun ≠ id := Nat.ne_of_gt (hlogged.waiting_lt hcall)
    left
    rw [waiting_settle_of_ne _ hne]
    exact hcall

theorem finds_respond {id : Nat} {response : Response κ}
    (h : s.step fromJwk debugKid (.respond id response) = some t) :
    Finds fromJwk s (.respond id response) t where
  cached := nofun
  asks := nofun
  answered := by
    rintro _ call set jwk ⟨⟩ hcall hjwk
    obtain ⟨call', hcall', rfl⟩ := Option.map_eq_some_iff.mp h
    rw [hcall] at hcall'
    cases hcall'
    -- A set that has the key ends the call with it, in the first round and in the second.
    rcases HttpJwks.resume_cases fromJwk debugKid call.kid call.force (.ok set) with
      ⟨_, jwk', ⟨⟩, hjwk', hdone⟩ | ⟨hlast, -⟩ | ⟨_, ⟨⟩, hlacks, -⟩
    · rw [hjwk] at hjwk'
      cases hjwk'
      rw [hdone]
      exact ⟨(Dict.get_remove ..).trans (if_pos rfl), rfl⟩
    · have hlacks := (hlast set rfl).1
      rw [hjwk] at hlacks
      cases hlacks
    · rw [hjwk] at hlacks
      cases hlacks
  waits := by
    intro id' call hcall
    by_cases hid : id = id'
    · subst hid
      exact .inr (.inr ⟨response, rfl⟩)
    · obtain ⟨call', -, rfl⟩ := Option.map_eq_some_iff.mp h
      left
      rw [waiting_settle_of_ne _ hid]
      exact hcall

theorem finds_step {a : KeyAction κ} (h : s.step fromJwk debugKid a = some t)
    (hlogged : Logged s) : Finds fromJwk s a t := by
  cases a with
  | wait time =>
      cases h
      exact ⟨nofun, nofun, nofun, fun _ _ hcall => .inl hcall⟩
  | call kid => exact finds_call h hlogged
  | respond id response => exact finds_respond h
  | drop id =>
      obtain ⟨call, -, rfl⟩ := Option.map_eq_some_iff.mp h
      refine ⟨nofun, nofun, nofun, fun id' call' hcall => ?_⟩
      by_cases hid : id = id'
      · subst hid
        exact .inr (.inl rfl)
      · left
        rw [Dict.get_remove, if_neg hid]
        exact hcall

/-- **The bound on refreshes**: in every run a call finds its key, where the cache or
the answer to its fetch has it.  Whatever `b` and the cooldown are, a run keeps to one
fetch a call and `b` fetches a cooldown exactly as long as its calls and the server's
answers are admitted. -/
theorem refresh_cooled_iff (fromJwk : Jwk κ → Except String δ)
    (debugKid : Option String → String) (ttl b cooldown : Nat)
    (tr : List (KeyAction κ × KeyCalls κ δ))
    (hrun : Run (fun s a t => s.step fromJwk debugKid a = some t) (init ttl) tr) :
    (∀ x ∈ steps (init ttl) tr, Finds fromJwk x.1 x.2.1 x.2.2) ∧
      ((∀ s ∈ states (init ttl) tr, Cooled b cooldown s) ↔
        ∀ x ∈ steps (init ttl) tr, Admitted b cooldown x.1 x.2.1) := by
  constructor
  · intro x hx
    apply finds_step (hrun x hx)
    exact hrun.invariant (logged_init ttl) (fun _ _ _ => logged_step) _ (source_mem_states hx)
  · refine hrun.forall_states_iff (logged_init ttl) ?_ ?_ ?_
    · exact ⟨List.nodup_nil, bounded_nil b cooldown⟩
    · intro s a t hstep hlogged
      exact logged_step hstep hlogged
    · intro s a t hstep hlogged hcooled
      exact cooled_step_iff hstep hlogged hcooled

end

/-! ### A known and an unknown key -/

def sampleStep (s : KeyCalls Unit Unit) (a : KeyAction Unit) : Option (KeyCalls Unit Unit) :=
  s.step (fun _ => .ok ()) (fun _ => "") a

def sampleKeys : JwkSet Unit := ⟨[⟨some "k1", ()⟩]⟩

/-- The set once `k2` has been added. -/
def rotatedKeys : JwkSet Unit := ⟨[⟨some "k1", ()⟩, ⟨some "k2", ()⟩]⟩

def sampleActions : List (KeyAction Unit) :=
  [.call (some "k1"), .respond 0 (.ok sampleKeys), .call (some "k1"), .wait 61,
    .call (some "k2"), .respond 2 (.ok rotatedKeys)]

def sampleRun : List (KeyAction Unit × KeyCalls Unit Unit) :=
  trace (fun s a => (sampleStep s a).getD s) (init 3600) sampleActions

/-- A known key costs one fetch, and a new one is found after the cooldown. -/
theorem known_key_cooled :
    (∀ x ∈ steps (init 3600) sampleRun, Finds (fun _ => .ok ()) x.1 x.2.1 x.2.2) ∧
      ∃ s ∈ states (init 3600) sampleRun,
        s.begun = 3 ∧ s.fetches = [(0, 0), (2, 61)] ∧
          s.returned.getLast? = some ⟨some "k2", [.ok rotatedKeys], .ok ()⟩ ∧
          Cooled 1 60 s := by
  have hchecked : checked (fun s a => (sampleStep s a).getD s)
      (fun s a => (sampleStep s a).isSome) (init 3600) sampleActions = true := rfl
  have hrun : Run (fun s a t => sampleStep s a = some t) (init 3600) sampleRun := by
    refine run_trace_of_checked ?_ hchecked
    intro s a hsome
    obtain ⟨t, ht⟩ := Option.isSome_iff_exists.mp hsome
    rw [ht, Option.getD_some]
  obtain ⟨hfinds, hcooled⟩ := refresh_cooled_iff (fun _ => .ok ()) (fun _ => "") 3600 1 60
    sampleRun hrun
  refine ⟨hfinds, ?_⟩
  have hlast : (states (init 3600) sampleRun).getLast (List.cons_ne_nil _ _) ∈
      states (init 3600) sampleRun := List.getLast_mem _
  refine ⟨_, hlast, rfl, rfl, rfl, hcooled.mpr ?_ _ hlast⟩
  intro x hx
  simp only [sampleRun, sampleActions, trace, steps_cons, steps_nil, List.mem_cons,
    List.not_mem_nil, or_false] at hx
  rcases hx with rfl | rfl | rfl | rfl | rfl | rfl
  · exact .inr (by decide)
  · intro call hcall _
    cases hcall
    rfl
  · exact .inl (by decide)
  · trivial
  · exact .inr (by decide)
  · intro call hcall _
    cases hcall
    rfl

/-- The first call for a key that the server does not know. -/
def firstAskInVain : List (KeyAction Unit) :=
  [.call (some "k2"), .respond 0 (.ok sampleKeys), .respond 0 (.ok sampleKeys)]

/-- The calls after it. -/
def askInVain (id : Nat) : List (KeyAction Unit) :=
  [.call (some "k2"), .respond id (.ok sampleKeys)]

/-- A fresh cache without the key. -/
structure Warm (s : KeyCalls Unit Unit) : Prop where
  source : s.source = ⟨3600, some ⟨sampleKeys, 0⟩⟩
  now : s.now = 0

/-- With a fresh cache such a call fetches. -/
theorem reach_ask {s : KeyCalls Unit Unit} (hwarm : Warm s) :
    ∃ t, reach sampleStep s (askInVain s.begun) = some t ∧ Warm t ∧ t.begun = s.begun + 1 ∧
      t.fetches.map Prod.snd = s.fetches.map Prod.snd ++ [0] := by
  obtain ⟨source, now, begun, waiting, fetches, misses, returned⟩ := s
  obtain ⟨rfl, rfl⟩ := hwarm
  let source : HttpJwks Unit := ⟨3600, some ⟨sampleKeys, 0⟩⟩
  let asking : KeyCalls Unit Unit :=
    ⟨source, 0, begun + 1, waiting.insert begun ⟨some "k2", true, []⟩, fetches ++ [(begun, 0)],
      misses ++ [(begun, 0)], returned⟩
  let answered : KeyCalls Unit Unit :=
    asking.settle begun (some "k2") [.ok sampleKeys]
      (.done (.error (.keyUnavailable ("no JWK for kid " ++ ""))))
  have hcall : sampleStep ⟨source, 0, begun, waiting, fetches, misses, returned⟩
      (.call (some "k2")) = some asking := rfl
  have hrespond : sampleStep asking (.respond begun (.ok sampleKeys)) = some answered := by
    show Option.map _ ((waiting.insert begun ⟨some "k2", true, []⟩).get begun) = _
    rw [Dict.get_insert_self]
    rfl
  refine ⟨answered, ?_, ⟨rfl, rfl⟩, rfl, ?_⟩
  · show (sampleStep _ _).bind _ = _
    rw [hcall, Option.bind_some]
    show (sampleStep _ _).bind _ = _
    rw [hrespond]
    rfl
  · exact List.map_append

/-- So do any number of them, all at one time. -/
theorem reach_askInVain {s : KeyCalls Unit Unit} (hwarm : Warm s) (n : Nat) :
    ∃ t, reach sampleStep s ((List.range' s.begun n).flatMap askInVain) = some t ∧
      t.fetches.map Prod.snd = s.fetches.map Prod.snd ++ List.replicate n 0 := by
  induction n generalizing s with
  | zero => exact ⟨s, rfl, by simp⟩
  | succ n ih =>
      obtain ⟨u, hu, hwarm', hbegun, hfetches⟩ := reach_ask hwarm
      obtain ⟨t, ht, hfetches'⟩ := ih hwarm'
      refine ⟨t, ?_, ?_⟩
      · rw [List.range'_succ, List.flatMap_cons, reach_append, hu, Option.bind_some, ← hbegun]
        exact ht
      · rw [hfetches', hfetches, List.append_assoc, List.replicate_succ, List.singleton_append]

/-- **No bound**: a `kid` that the server does not know has it asked as often as the
`kid` is, within any cooldown; and twice by the first call. -/
theorem unknown_kid_refetched :
    (¬ ∃ b cooldown, ∀ tr, Run (fun s a t => sampleStep s a = some t) (init 3600) tr →
        ∀ s ∈ states (init 3600) tr, Bounded b cooldown (s.fetches.map Prod.snd)) ∧
      ∃ s, reach sampleStep (init 3600) firstAskInVain = some s ∧
        s.fetches = [(0, 0), (0, 0)] := by
  constructor
  · rintro ⟨b, cooldown, hall⟩
    obtain ⟨s, hs, hwarm, hfetches⟩ : ∃ s, reach sampleStep (init 3600) firstAskInVain = some s ∧
        Warm s ∧ s.fetches.map Prod.snd = List.replicate 2 0 :=
      ⟨_, rfl, ⟨rfl, rfl⟩, rfl⟩
    obtain ⟨t, ht, hfetches'⟩ := reach_askInVain hwarm b
    have hreach := reach_append sampleStep (init 3600) firstAskInVain
      ((List.range' s.begun b).flatMap askInVain)
    rw [hs, Option.bind_some, ht] at hreach
    obtain ⟨tr, hrun, hmem, -⟩ := exists_run_of_reach hreach
    have hbounded := hall tr hrun t hmem
    rw [hfetches', hfetches, ← List.replicate_add] at hbounded
    exact not_bounded_replicate (by omega) 0 hbounded
  · exact ⟨_, rfl, rfl⟩

end KeyCalls

end TurboMcp.Auth
