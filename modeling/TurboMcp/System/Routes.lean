import TurboMcp.Server.OneResponse
import TurboMcp.System.Discipline

/-!
# Legacy routes under concurrency

`legacy_subscribe` creates a route and uses it under two acquisitions of the
same lock.  In between another task may drop the route: `legacy_remove` does,
and so does a `legacy_touch` that evicts at capacity.  What follows is exactly
when that happens, and what it leaves behind.
-/

namespace TurboMcp.System

open TurboMcp.Core TurboMcp.Lib TurboMcp.Server TurboMcp.ExtTasks

variable {N : Type} {d : VersionDispatcher N} {rfc3339 : Nat → String}

/-! ## What a section does to the routes -/

/-- The session whose route a section drops. -/
def Section.drops (routes : LegacyRoutes) (pick : String) : Section → Option String
  | .effect (.legacyTouch sid _) => routes.evicted pick sid
  | .effect (.legacyRemove sid) => some sid
  | _ => none

/-- The session whose route a section records. -/
def Section.touches : Section → Option String
  | .effect (.legacyTouch sid _) => some sid
  | _ => none

/-- An answered section drops at most the one route and records at most the
other. -/
theorem mem_keys_routesAfter (c : Choice N) (s : Shared) (a : Section) (sid : String) :
    sid ∈ (a.routesAfter c s).keys ↔
      a.touches = some sid ∨ sid ∈ s.routes.keys ∧ a.drops s.routes c.pick ≠ some sid := by
  unfold Section.routesAfter
  split
  · rw [LegacyRoutes.mem_keys_legacyTouch]
    simp only [Section.touches, Section.drops, Option.some.injEq, eq_comm]
  · rw [LegacyRoutes.mem_keys_legacyRemove]
    simp only [Section.touches, Section.drops, ne_eq, Option.some.injEq, reduceCtorEq, false_or,
      and_comm, eq_comm]
  · rw [LegacyRoutes.mem_keys_legacyUnsubscribe]
    simp [Section.touches, Section.drops]
  · rename_i sid' uri
    simp only [Section.touches, Section.drops, reduceCtorEq, false_or, ne_eq, not_false_eq_true,
      and_true]
    cases h : s.routes.insertUri sid' uri with
    | none => exact Iff.rfl
    | some routes => exact LegacyRoutes.mem_keys_insertUri h sid
  · have hnone : a.touches = none ∧ a.drops s.routes c.pick = none := by
      unfold Section.touches Section.drops
      constructor
      · split <;> simp_all
      · split <;> simp_all
    rw [hnone.1, hnone.2]
    simp

/-! ## When a task panics -/

/-- The task is between the two acquisitions of a `legacy_subscribe`. -/
def Inserting (sid : String) (p : Proc N Unit) : Prop :=
  ∃ uri k, p = .call (.insertUri sid uri) k

structure RouteSafe (P : Server N) : Prop where
  /-- The lock is not poisoned. -/
  sound : P.shared.poisoned = false
  /-- The `expect` of a `legacy_subscribe` finds its route. -/
  found : Threads (fun s _ _ p => ∀ sid, Inserting sid p → sid ∈ s.routes.keys) P
  /-- No task's next section panics. -/
  quiet : ∀ n a k, P.threads.get n = some (.call a k) →
    ∀ (c : Choice N) s, runSection n c P.shared a ≠ .panic s

/-- **The condition**: a step does not drop the route of a session while a task
is between the two acquisitions of a `legacy_subscribe` for it. -/
def KeepsTouched (P : Server N) : Act Frame (Choice N) → Prop
  | .spawn _ => True
  | .run n c => ∀ a k, P.threads.get n = some (.call a k) →
      ∀ sid, a.drops P.shared.routes c.pick = some sid →
        ∀ m p, P.threads.get m = some p → ¬ Inserting sid p

theorem RouteSafe.of_found {P : Server N} (hsound : P.shared.poisoned = false)
    (hfound : Threads (fun s _ _ p => ∀ sid, Inserting sid p → sid ∈ s.routes.keys) P) :
    RouteSafe P := by
  refine ⟨hsound, hfound, fun n a k hget c s hpanic => ?_⟩
  rcases panicked hpanic with ⟨hpoisoned, -⟩ | ⟨-, ⟨sid, uri, rfl, hmem⟩, -⟩
  · rw [hsound] at hpoisoned
    cases hpoisoned
  · obtain ⟨-, -, hfound⟩ := hfound n _ hget
    exact hmem (hfound sid ⟨uri, k, rfl⟩)

/-- A task that goes on to insert a URI has just touched the route. -/
theorem touches_of_inserting {q : Known} {a : Section} {r : Reply N a} {p : Proc N Unit}
    {sid : String} (h : Keeps ((sectionProtocol N).after q a r) p) (hp : Inserting sid p) :
    a.touches = some sid := by
  obtain ⟨uri, k, rfl⟩ := hp
  have htouched : touchedAfter a = some sid := h.1
  unfold touchedAfter at htouched
  split at htouched
  · exact htouched
  · cases htouched

theorem not_inserting_startFrame (f : Frame) (sid : String) :
    ¬ Inserting sid (startFrame d rfc3339 f) := by
  rintro ⟨uri, k, hp⟩
  have h := keeps_startFrame d rfc3339 f
  rw [hp] at h
  have htouched : Known.none.touched = some sid := h.1
  cases htouched

theorem routeSafe_init {s : Shared} (hs : s.poisoned = false) :
    RouteSafe (Pool.init s : Server N) :=
  .of_found hs nofun

/-- An answered section keeps every route but the one it drops. -/
theorem mem_routes_of_answer {n : Nat} {c : Choice N} {s s' : Shared} {a : Section}
    {r : Reply N a} (h : runSection n c s a = .answer r s') {sid : String}
    (hdrop : a.drops s.routes c.pick ≠ some sid) (hmem : sid ∈ s.routes.keys) :
    sid ∈ s'.routes.keys := by
  rw [(ran_of_answer h).routes, mem_keys_routesAfter]
  exact Or.inr ⟨hmem, hdrop⟩

theorem not_mem_evicted {routes : LegacyRoutes} {pick session sid : String}
    (h : routes.evicted pick session = some sid) : sid ≠ session := by
  unfold LegacyRoutes.evicted at h
  split at h
  · rename_i hfull
    have hout : session ∉ routes.keys := by
      rw [Dict.mem_keys, Option.isNone_iff_eq_none.mp hfull.1]
      simp
    have hin : sid ∈ routes.keys := by
      split at h
      · rename_i hpick
        cases h
        exact hpick
      · exact List.mem_of_head? h
    rintro rfl
    exact hout hin
  · cases h

/-- What a section drops, it does not record. -/
theorem drops_ne_touches {routes : LegacyRoutes} {pick : String} {a : Section} {sid : String}
    (h : a.drops routes pick = some sid) : a.touches ≠ some sid := by
  intro ht
  unfold Section.touches at ht
  split at ht
  · cases ht
    exact not_mem_evicted h rfl
  · cases ht

theorem routeSafe_step {P P' : Server N} {a : Act Frame (Choice N)}
    (h : (server d rfc3339).Step P a P') (hline : Orderly P) (hP : RouteSafe P)
    (hG : KeepsTouched P a) : RouteSafe P' := by
  have hquiet {n : Nat} {c : Choice N} {e : Section} {k : Reply N e → Proc N Unit}
      (hget : P.threads.get n = some (.call e k)) :
      ∃ r s, runSection n c P.shared e = .answer r s := by
    cases hx : runSection n c P.shared e with
    | answer r s => exact ⟨r, s, rfl⟩
    | panic s => exact absurd hx (hP.quiet n e k hget c s)
  refine .of_found ?_ ?_
  · refine Machine.shared_step h (I := fun s => s.poisoned = false) hP.sound ?_
    intro n c e k _ hget
    obtain ⟨r, s, hx⟩ := hquiet (c := c) hget
    show (runSection n c P.shared e).state.poisoned = false
    rw [hx]
    exact (ran_of_answer hx).poisoned.trans hP.sound
  · refine threads_step h hP.found ?_ ?_ ?_ ?_
    · intro f _ sid hf
      exact absurd hf (not_inserting_startFrame f sid)
    · intro s b n f p hJ
      exact hJ
    · intro n f c e k r s _ hget _ _ hx sid hp
      obtain ⟨q, hq⟩ := hline.keeps hget
      rw [(ran_of_answer hx).routes, mem_keys_routesAfter]
      exact Or.inl (touches_of_inserting (hq.2 r) hp)
    · rintro n c e k r s m f p rfl hget hx - hm - hJ sid hp
      refine mem_routes_of_answer hx (fun hdrop => ?_) (hJ sid hp)
      exact hG e k hget sid hdrop m p hm hp

/-- Where the condition fails, the next step of the task left behind panics. -/
theorem not_routeSafe_step {P P' : Server N} {a : Act Frame (Choice N)}
    (h : (server d rfc3339).Step P a P') (hP : RouteSafe P) (hP' : RouteSafe P') :
    KeepsTouched P a := by
  cases a with
  | spawn f => trivial
  | run n c =>
      rintro e k hget sid hdrop m p hm hp
      obtain ⟨uri, k', rfl⟩ := hp
      have hne : n ≠ m := by
        rintro rfl
        rw [hget] at hm
        cases hm
        cases hdrop
      cases h.stepped with
      | finish hget' =>
          rw [hget] at hget'
          cases hget'
      | panic hget' hx =>
          exact hP.quiet n _ _ hget' c _ hx
      | answer hget' hx =>
          rw [hget] at hget'
          cases hget'
          obtain ⟨-, -, hfound⟩ := hP'.found m (.call (.insertUri sid uri) k') (by
            rw [Pool.get_resumed, if_neg hne]
            exact hm)
          have hfound := hfound sid ⟨uri, k', rfl⟩
          rw [Pool.resumed, (ran_of_answer hx).routes, mem_keys_routesAfter] at hfound
          rcases hfound with ht | ⟨-, hkeep⟩
          · exact drops_ne_touches hdrop ht
          · exact hkeep hdrop

/-- **Exactness**: along a run, the `expect` always finds its route and nothing
panics exactly when every step meets the condition. -/
theorem routeSafe_iff_keepsTouched (d : VersionDispatcher N) (rfc3339 : Nat → String)
    (sessions : SessionStore) (taskCapacity : Nat)
    {tr : List (Act Frame (Choice N) × Server N)}
    (hrun : Run (server d rfc3339).Step (Pool.init (Shared.init sessions taskCapacity)) tr) :
    (∀ P ∈ states (Pool.init (Shared.init sessions taskCapacity)) tr, RouteSafe P) ↔
      ∀ x ∈ steps (Pool.init (Shared.init sessions taskCapacity)) tr,
        KeepsTouched x.1 x.2.1 := by
  refine Run.forall_states_iff (I := Orderly) hrun (orderly_init _) (routeSafe_init rfl) ?_ ?_
  · intro P a P' h hP
    exact orderly_step h hP
  · intro P a P' h hline hP
    constructor
    · exact not_routeSafe_step h hP
    · exact routeSafe_step h hline hP

/-! ## A session deleted between the two acquisitions -/

/-- A server of the legacy version with resources. -/
def resourceServer : VersionDispatcher Unit :=
  { legacyServer with router := { legacyServer.router with resources := true } }

/-- A request of a legacy session, the session id attached by its transport. -/
def sessionRequest (id : Int) (method session : String) (params : Map) : JsonRpcMessage :=
  .request
    { id := .number id, method,
      params := some (.object (params ++ [("_meta", .object
        [(Meta.keys.protocolVersion, .string "2025-11-25"),
          (Meta.internal.sessionId, .string session)])])) }

/-- `initialize`, `resources/subscribe` up to its second acquisition, a `DELETE`
of the session, and that acquisition. -/
def deletedMidway : List (Act Frame (Choice Unit)) :=
  .spawn (.message (sessionRequest 1 "initialize" "s" [])) ::
      List.replicate 5 (.run 0 (.declined "")) ++
    .spawn (.message (sessionRequest 2 "resources/subscribe" "s" [("uri", .string "u")])) ::
      List.replicate 3 (.run 1 (.declined "")) ++
    .spawn (.delete "s") :: List.replicate 2 (.run 2 (.declined "")) ++ [.run 1 (.declined "")]

theorem poisoned_deletedMidway :
    (reach (server resourceServer fun _ => "").step
      (Pool.init (Shared.init (SessionStore.withCapacity 8) 8)) deletedMidway).map
        (·.shared.poisoned) = some true := by
  decide +kernel

/-- A subscribe request that a `DELETE` of its session gets in between poisons
the lock. -/
theorem delete_poisons_routes :
    ∃ tr, Run (server resourceServer fun _ => "").Step
        (Pool.init (Shared.init (SessionStore.withCapacity 8) 8)) tr ∧
      ∃ P ∈ states (Pool.init (Shared.init (SessionStore.withCapacity 8) 8)) tr,
        P.shared.poisoned = true := by
  obtain ⟨P, hreach, hP⟩ := Option.map_eq_some_iff.mp poisoned_deletedMidway
  obtain ⟨tr, hrun, hmem, -⟩ := exists_run_of_reach hreach
  exact ⟨tr, hrun, P, hmem, hP⟩

/-- So some step of it drops the route in between. -/
theorem delete_drops_touched_route :
    ∃ tr, Run (server resourceServer fun _ => "").Step
        (Pool.init (Shared.init (SessionStore.withCapacity 8) 8)) tr ∧
      ∃ x ∈ steps (Pool.init (Shared.init (SessionStore.withCapacity 8) 8)) tr,
        ¬ KeepsTouched x.1 x.2.1 := by
  obtain ⟨P, hreach, hP⟩ := Option.map_eq_some_iff.mp poisoned_deletedMidway
  obtain ⟨tr, hrun, hmem, -⟩ := exists_run_of_reach hreach
  refine ⟨tr, hrun, ?_⟩
  by_contra hall
  push Not at hall
  have hsafe := (routeSafe_iff_keepsTouched resourceServer (fun _ => "") _ _ hrun).mpr hall
  have hsound := (hsafe P hmem).sound
  rw [hP] at hsound
  cases hsound

end TurboMcp.System
