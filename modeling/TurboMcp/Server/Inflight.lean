import TurboMcp.Lib.Runs
import TurboMcp.Server.Subscriptions

/-!
# The in-flight registry

A request is registered under its connection and id while it dispatches, with
the token that cancels it; the guard that comes back removes the registration
when it is dropped.  The map is keyed by connection and id alone, and a client
may reuse an id while it is in flight: a second registration then overwrites
the first, and whichever guard is dropped first removes what is there.

The dispatcher makes a token for each request, so a request is known by the
number of its token.
-/

namespace TurboMcp.Server

open TurboMcp.Core TurboMcp.Lib

/-! ## The registry -/

/-- `Key` of the registry: connection and request id. -/
abbrev InFlightKey := String × RequestId

structure InFlightRegistry where
  map : Dict InFlightKey Nat

structure InFlightGuard where
  key : InFlightKey

namespace InFlightRegistry

def empty : InFlightRegistry := ⟨Dict.empty⟩

def register (registry : InFlightRegistry) (connection : String) (id : RequestId) (token : Nat) :
    InFlightRegistry × InFlightGuard :=
  (⟨registry.map.insert (connection, id) token⟩, ⟨(connection, id)⟩)

/-- Whether the id was found, and the tokens on which `cancel` is called. -/
def cancel (registry : InFlightRegistry) (connection : String) (id : RequestId) :
    Bool × List Nat :=
  match registry.map.get (connection, id) with
  | some token => (true, [token])
  | none => (false, [])

end InFlightRegistry

/-- `Drop`: the registration goes by its key. -/
def InFlightGuard.drop (guard : InFlightGuard) (registry : InFlightRegistry) : InFlightRegistry :=
  ⟨registry.map.remove guard.key⟩

/-! ## Sequences of operations -/

/-- The registry with the requests around it. -/
structure InFlight where
  registry : InFlightRegistry
  /-- The guard of each request so far, by the number of its token. -/
  guards : List InFlightGuard
  /-- The requests whose guard is not dropped yet. -/
  live : List Nat
  /-- The tokens fired so far. -/
  fired : List Nat

inductive InFlightOp
  | register (connection : String) (id : RequestId)
  | drop (token : Nat)
  | cancel (connection : String) (id : RequestId)

namespace InFlight

def initial : InFlight :=
  { registry := InFlightRegistry.empty, guards := [], live := [], fired := [] }

/-- The request is registered under `key`. -/
def Live (s : InFlight) (key : InFlightKey) (token : Nat) : Prop :=
  token ∈ s.live ∧ s.guards[token]? = some ⟨key⟩

instance (s : InFlight) (key : InFlightKey) (token : Nat) : Decidable (s.Live key token) :=
  decidable_of_iff (token ∈ s.live ∧ s.guards[token]?.map InFlightGuard.key = some key) <| by
    unfold Live
    rcases h : s.guards[token]? with _ | ⟨⟨key'⟩⟩
    · simp
    · simp

/-- One operation; only a guard that is held can be dropped. -/
def step (s : InFlight) : InFlightOp → Option InFlight
  | .register connection id =>
      let token := s.guards.length
      let (registry, guard) := s.registry.register connection id token
      some { s with registry, guards := s.guards ++ [guard], live := token :: s.live }
  | .drop token =>
      match s.guards[token]? with
      | some guard =>
          if token ∈ s.live then
            some { s with registry := guard.drop s.registry, live := s.live.erase token }
          else none
      | none => none
  | .cancel connection id =>
      some { s with fired := s.fired ++ (s.registry.cancel connection id).2 }

/-- `cancel` finds what is registered under the key, fires the token of each
such request, and no other. -/
structure Reaches (s : InFlight) (connection : String) (id : RequestId) : Prop where
  fires : ∀ token, s.Live (connection, id) token →
    token ∈ s.fired ∨ token ∈ (s.registry.cancel connection id).2
  found : (s.registry.cancel connection id).1 = true ↔ ∃ token, s.Live (connection, id) token
  own : ∀ token ∈ (s.registry.cancel connection id).2,
    s.guards[token]? = some ⟨(connection, id)⟩

/-- No other live request that a cancellation has yet to reach is registered
under the key of a new one, and none at all under the key of one that ends. -/
def Apart (s : InFlight) : InFlightOp → Prop
  | .register connection id => ∀ token, s.Live (connection, id) token → token ∈ s.fired
  | .drop token => ∀ key, s.guards[token]? = some ⟨key⟩ → ∀ other, s.Live key other →
      other = token
  | .cancel _ _ => True

/-! ## What every sequence keeps -/

/-- An entry of the map is the registration of a live request. -/
structure WellFormed (s : InFlight) : Prop where
  nodup : s.live.Nodup
  issued : ∀ token ∈ s.live, token < s.guards.length
  held : ∀ key token, s.registry.map.get key = some token → s.Live key token

theorem wellFormed_initial : initial.WellFormed where
  nodup := List.nodup_nil
  issued := by
    intro token h
    cases h
  held := by
    intro key token h
    cases h

variable {s t : InFlight} {op : InFlightOp}

theorem Live.lt {key : InFlightKey} {token : Nat} (h : s.Live key token) :
    token < s.guards.length := by
  obtain ⟨-, hkey⟩ := h
  exact (List.getElem?_eq_some_iff.mp hkey).1

/-- **Inversion**: the cases of a step. -/
theorem step_cases (h : s.step op = some t) :
    (∃ connection id, op = .register connection id ∧
      t = { s with
        registry := ⟨s.registry.map.insert (connection, id) s.guards.length⟩
        guards := s.guards ++ [⟨(connection, id)⟩]
        live := s.guards.length :: s.live }) ∨
    (∃ token key, op = .drop token ∧ s.Live key token ∧
      t = { s with
        registry := ⟨s.registry.map.remove key⟩
        live := s.live.erase token }) ∨
    ∃ connection id, op = .cancel connection id ∧
      t = { s with fired := s.fired ++ (s.registry.cancel connection id).2 } := by
  cases op with
  | register connection id =>
      cases h
      exact Or.inl ⟨connection, id, rfl, rfl⟩
  | drop token =>
      refine Or.inr (Or.inl ?_)
      rcases hguard : s.guards[token]? with _ | ⟨⟨key⟩⟩
      · simp [step, hguard] at h
      · by_cases hlive : token ∈ s.live
        · simp only [step, hguard, hlive, if_true, Option.some.injEq] at h
          exact ⟨token, key, rfl, ⟨hlive, hguard⟩, h.symm⟩
        · simp [step, hguard, hlive] at h
  | cancel connection id =>
      cases h
      exact Or.inr (Or.inr ⟨connection, id, rfl, rfl⟩)

theorem live_registered {key : InFlightKey} {registry : InFlightRegistry} {token : Nat}
    {guard : InFlightGuard} (hs : s.WellFormed) :
    Live { s with registry, guards := s.guards ++ [guard], live := s.guards.length :: s.live }
        key token ↔
      s.Live key token ∨ token = s.guards.length ∧ guard = ⟨key⟩ := by
  unfold Live
  rw [List.mem_cons, List.getElem?_append]
  by_cases hlt : token < s.guards.length
  · have hne : token ≠ s.guards.length := Nat.ne_of_lt hlt
    simp [hlt, hne]
  · have hnew : token ∉ s.live := fun h => hlt (hs.issued token h)
    by_cases heq : token = s.guards.length
    · subst heq
      simp
    · simp [hnew, heq]

theorem live_dropped {key : InFlightKey} {registry : InFlightRegistry} {token other : Nat}
    (hs : s.WellFormed) :
    Live { s with registry, live := s.live.erase token } key other ↔
      other ≠ token ∧ s.Live key other := by
  unfold Live
  rw [hs.nodup.mem_erase_iff, and_assoc]

theorem wellFormed_step (h : s.step op = some t) (hs : s.WellFormed) : t.WellFormed := by
  rcases step_cases h with ⟨connection, id, -, rfl⟩ | ⟨token, key, -, hlive, rfl⟩ |
    ⟨connection, id, -, rfl⟩
  · refine ⟨?_, ?_, ?_⟩
    · exact List.nodup_cons.mpr ⟨fun h => Nat.lt_irrefl _ (hs.issued _ h), hs.nodup⟩
    · intro token htoken
      rw [List.length_append]
      rcases List.mem_cons.mp htoken with rfl | htoken
      · exact Nat.lt_succ_self _
      · exact Nat.lt_add_right _ (hs.issued token htoken)
    · intro key token hget
      rw [live_registered hs]
      rw [Dict.get_insert] at hget
      split at hget
      · rename_i hkey
        cases hget
        exact Or.inr ⟨rfl, congrArg InFlightGuard.mk hkey⟩
      · exact Or.inl (hs.held key token hget)
  · refine ⟨hs.nodup.erase token, ?_, ?_⟩
    · intro other hother
      exact hs.issued other (List.mem_of_mem_erase hother)
    · intro key' other hget
      rw [Dict.get_remove] at hget
      split at hget
      · cases hget
      · rename_i hne
        have hother := hs.held key' other hget
        rw [live_dropped hs]
        refine ⟨?_, hother⟩
        rintro rfl
        have heq := hlive.2.symm.trans hother.2
        cases heq
        exact hne rfl
  · exact ⟨hs.nodup, hs.issued, hs.held⟩

/-! ## Which sequences keep every request in reach -/

/-- A key is in reach: an entry stands for its live requests, all but one of
which were cancelled before. -/
def InReach (s : InFlight) (key : InFlightKey) : Prop :=
  ∀ token, s.Live key token →
    ∃ other, s.registry.map.get key = some other ∧ (token ∈ s.fired ∨ token = other)

theorem reaches_iff (hs : s.WellFormed) (connection : String) (id : RequestId) :
    s.Reaches connection id ↔ s.InReach (connection, id) := by
  constructor
  · rintro ⟨hfires, hfound, -⟩ token hlive
    rcases hget : s.registry.map.get (connection, id) with _ | other
    · have hcancel : (s.registry.cancel connection id).1 = true := hfound.mpr ⟨token, hlive⟩
      simp [InFlightRegistry.cancel, hget] at hcancel
    · refine ⟨other, rfl, ?_⟩
      have hfires := hfires token hlive
      simp only [InFlightRegistry.cancel, hget, List.mem_singleton] at hfires
      exact hfires
  · intro h
    refine ⟨?_, ?_, ?_⟩
    · intro token hlive
      obtain ⟨other, hget, hreach⟩ := h token hlive
      simp only [InFlightRegistry.cancel, hget, List.mem_singleton]
      exact hreach
    · rcases hget : s.registry.map.get (connection, id) with _ | other
      · simp only [InFlightRegistry.cancel, hget, Bool.false_eq_true, false_iff]
        rintro ⟨token, hlive⟩
        obtain ⟨other, hsome, -⟩ := h token hlive
        rw [hget] at hsome
        cases hsome
      · simp only [InFlightRegistry.cancel, hget, true_iff]
        exact ⟨other, hs.held _ _ hget⟩
    · intro token htoken
      rcases hget : s.registry.map.get (connection, id) with _ | other
      · simp [InFlightRegistry.cancel, hget] at htoken
      · simp only [InFlightRegistry.cancel, hget, List.mem_singleton] at htoken
        subst htoken
        exact (hs.held _ _ hget).2

theorem inReach_registered (hs : s.WellFormed) (hreach : ∀ key, s.InReach key)
    (connection : String) (id : RequestId) :
    (∀ key, InReach { s with
        registry := ⟨s.registry.map.insert (connection, id) s.guards.length⟩
        guards := s.guards ++ [⟨(connection, id)⟩]
        live := s.guards.length :: s.live } key) ↔
      ∀ token, s.Live (connection, id) token → token ∈ s.fired := by
  constructor
  · intro h token hlive
    obtain ⟨other, hget, hor⟩ := h (connection, id) token ((live_registered hs).mpr (Or.inl hlive))
    rcases hor with hfired | rfl
    · exact hfired
    · -- the entry is the new one, and the request is older
      rw [Dict.get_insert_self] at hget
      cases hget
      exact absurd hlive.lt (Nat.lt_irrefl _)
  · intro h key token hlive
    rcases (live_registered hs).mp hlive with hold | ⟨rfl, hkey⟩
    · by_cases heq : (connection, id) = key
      · subst heq
        exact ⟨_, Dict.get_insert_self .., Or.inl (h token hold)⟩
      · obtain ⟨other, hget, hor⟩ := hreach key token hold
        exact ⟨other, (Dict.get_insert ..).trans ((if_neg heq).trans hget), hor⟩
    · cases hkey
      exact ⟨_, Dict.get_insert_self .., Or.inr rfl⟩

theorem inReach_dropped (hs : s.WellFormed) (hreach : ∀ key, s.InReach key) {token : Nat}
    {key : InFlightKey} :
    (∀ key', InReach { s with
        registry := ⟨s.registry.map.remove key⟩, live := s.live.erase token } key') ↔
      ∀ other, s.Live key other → other = token := by
  constructor
  · intro h other hother
    by_contra hne
    obtain ⟨_, hget, -⟩ := h key other ((live_dropped hs).mpr ⟨hne, hother⟩)
    rw [Dict.get_remove, if_pos rfl] at hget
    cases hget
  · intro h key' other hlive
    obtain ⟨hne, hlive⟩ := (live_dropped hs).mp hlive
    have hkey : key ≠ key' := by
      rintro rfl
      exact hne (h other hlive)
    obtain ⟨found, hget, hor⟩ := hreach key' other hlive
    exact ⟨found, (Dict.get_remove ..).trans ((if_neg hkey).trans hget), hor⟩

/-- A step keeps every request in reach exactly when it is `Apart`. -/
theorem reaches_step (h : s.step op = some t) (hs : s.WellFormed)
    (hreach : ∀ key, s.InReach key) : (∀ key, t.InReach key) ↔ s.Apart op := by
  rcases step_cases h with ⟨connection, id, rfl, rfl⟩ | ⟨token, key, rfl, hlive, rfl⟩ |
    ⟨connection, id, rfl, rfl⟩
  · exact inReach_registered hs hreach connection id
  · rw [inReach_dropped hs hreach]
    constructor
    · intro h key' hkey
      cases hlive.2.symm.trans hkey
      exact h
    · intro h
      exact h key hlive.2
  · refine iff_of_true ?_ trivial
    intro key token hlive
    obtain ⟨other, hget, hor⟩ := hreach key token hlive
    exact ⟨other, hget, hor.imp_left (List.mem_append_left _)⟩

/-- **Cancellation reaches every live request** of a sequence of operations
exactly when no request is registered over a live one that was not cancelled,
and none ends while another is live under its key. -/
theorem reaches_iff_apart (tr : List (InFlightOp × InFlight))
    (hrun : Run (fun s op t => step s op = some t) initial tr) :
    (∀ s ∈ states initial tr, ∀ connection id, s.Reaches connection id) ↔
      ∀ x ∈ steps initial tr, x.1.Apart x.2.1 := by
  have hwf : ∀ s ∈ states initial tr, s.WellFormed :=
    hrun.invariant wellFormed_initial fun _ _ _ h => wellFormed_step h
  have hexact : (∀ s ∈ states initial tr, ∀ key, s.InReach key) ↔
      ∀ x ∈ steps initial tr, x.1.Apart x.2.1 := by
    refine hrun.forall_states_iff (I := WellFormed) wellFormed_initial ?_
      (fun _ _ _ h => wellFormed_step h) fun _ _ _ h => reaches_step h
    rintro key token ⟨hlive, -⟩
    cases hlive
  rw [← hexact]
  refine forall₂_congr fun s hs => ?_
  rw [Prod.forall]
  exact forall₂_congr fun connection id => reaches_iff (hwf s hs) connection id

/-! ## An id used twice -/

/-- The run on operations that can all be taken. -/
def runOf (ops : List InFlightOp) : List (InFlightOp × InFlight) :=
  trace (fun s op => (step s op).getD s) initial ops

/-- One request at a time under the id. -/
def inTurn : List InFlightOp :=
  [.register "conn-1" (.number 7), .cancel "conn-1" (.number 7), .drop 0,
    .register "conn-1" (.number 7)]

theorem reaches_inTurn : (final initial (runOf inTurn)).Reaches "conn-1" (.number 7) := by
  have hrun : Run (fun s op t => step s op = some t) initial (runOf inTurn) :=
    run_cons.mpr ⟨rfl, run_cons.mpr ⟨rfl, run_cons.mpr ⟨rfl, run_cons.mpr ⟨rfl, run_nil _⟩⟩⟩⟩
  refine (reaches_iff_apart _ hrun).mpr ?_ _ (final_mem_states _ _) _ _
  simp only [runOf, inTurn, trace, steps_cons, steps_nil, List.forall_mem_cons]
  refine ⟨?_, trivial, ?_, ?_, by simp⟩
  · rintro token ⟨hlive, -⟩
    cases hlive
  · rintro key - other ⟨hlive, -⟩
    exact List.mem_singleton.mp hlive
  · rintro token ⟨hlive, -⟩
    cases hlive

/-- The second request takes the id over while the first is in flight. -/
def twice : List InFlightOp :=
  [.register "conn-1" (.number 7), .register "conn-1" (.number 7)]

/-- The first request is out of reach; once the second ends, nothing is found
under the id although the first still runs. -/
theorem lost_when_twice :
    Run (fun s op t => step s op = some t) initial (runOf (twice ++ [.drop 1])) ∧
    (∃ s ∈ states initial (runOf (twice ++ [.drop 1])), s.Live ("conn-1", .number 7) 0 ∧
      0 ∉ s.fired ++ (s.registry.cancel "conn-1" (.number 7)).2 ∧
      ¬ s.Reaches "conn-1" (.number 7)) ∧
    ∃ s ∈ states initial (runOf (twice ++ [.drop 1])), s.Live ("conn-1", .number 7) 0 ∧
      (s.registry.cancel "conn-1" (.number 7)).1 = false := by
  refine ⟨run_cons.mpr ⟨rfl, run_cons.mpr ⟨rfl, run_cons.mpr ⟨rfl, run_nil _⟩⟩⟩, ?_, ?_⟩
  · let s := final initial (runOf twice)
    have hlive : s.Live ("conn-1", .number 7) 0 := by decide
    have hmissed : 0 ∉ s.fired ++ (s.registry.cancel "conn-1" (.number 7)).2 := by decide
    refine ⟨s, by simp [s, runOf, twice, trace, states, final], hlive, hmissed, ?_⟩
    intro h
    exact hmissed (List.mem_append.mpr (h.fires 0 hlive))
  · exact ⟨_, final_mem_states _ _, by decide, by decide⟩

end InFlight

end TurboMcp.Server
