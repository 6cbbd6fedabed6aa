import TurboMcp.System.Routes

/-!
# Routes and sessions

A session ends in four ways.  A `DELETE` and a sweep remove its route in a
later section of the same task; a `get` that finds it expired and an `insert`
that evicts it do not.  A request that was let in while its session was live
may record a route after the session has ended.  Short of these, once the tasks
in flight have finished every route is a live session's.
-/

namespace TurboMcp.System

open TurboMcp.Core TurboMcp.Lib TurboMcp.Server TurboMcp.ExtTasks

variable {N : Type} {d : VersionDispatcher N} {rfc3339 : Nat → String}

/-! ## Who ends sessions -/

/-- The session a section ends without a word to the routes. -/
def Section.abandons (c : Choice N) (sessions : SessionStore) : Section → Option String
  | .effect (.sessionGet sid) =>
      if (sessions.get c.now sid).2.isNone ∧ sessions.contains sid then some sid else none
  | .effect (.sessionInsert sid _) => sessions.evicted c.pick sid
  | _ => none

/-- The section ends the session, and its task then owes the removal of the route. -/
def Section.ends (c : Choice N) (sessions : SessionStore) (sid : String) : Section → Prop
  | .effect .sweepExpired => sid ∈ (sessions.sweepExpired c.now).2
  | .sessionRemove sid' => sid' = sid
  | _ => False

/-- How a session that was live no longer is. -/
theorem contains_sessionsAfter (c : Choice N) (s : Shared) (a : Section) {sid : String}
    (hlive : s.sessions.contains sid = true) :
    (a.sessionsAfter c s).contains sid = true ∨ a.abandons c s.sessions = some sid ∨
      a.ends c s.sessions sid := by
  unfold Section.sessionsAfter
  split
  · rename_i sid'
    rw [SessionStore.contains_get]
    by_cases hgone : (s.sessions.get c.now sid').2 = none ∧ sid = sid'
    · obtain ⟨hnone, rfl⟩ := hgone
      refine Or.inr (Or.inl ?_)
      simp [Section.abandons, hnone, hlive]
    · rw [not_and] at hgone
      exact Or.inl ⟨hlive, hgone⟩
  · rename_i sid' state
    rw [SessionStore.contains_insert]
    by_cases hevicted : s.sessions.evicted c.pick sid' = some sid
    · exact Or.inr (Or.inl hevicted)
    · exact Or.inl (Or.inr ⟨hlive, hevicted⟩)
  · rw [SessionStore.contains_setLogLevel]
    exact Or.inl hlive
  · rw [SessionStore.contains_sweepExpired]
    by_cases hswept : sid ∈ (s.sessions.sweepExpired c.now).2
    · exact Or.inr (Or.inr hswept)
    · exact Or.inl ⟨hlive, hswept⟩
  · rename_i sid'
    rw [SessionStore.contains_remove]
    by_cases hsid : sid = sid'
    · exact Or.inr (Or.inr hsid.symm)
    · exact Or.inl ⟨hlive, hsid⟩
  · exact Or.inl hlive

/-! ## Who removes routes -/

/-- The task is bound to remove the session's route. -/
def Removes (sid : String) (p : Proc N Unit) : Prop :=
  Program.Surely (· = .effect (.legacyRemove sid)) p

/-- A task that owes the removal of a route gets round to it. -/
theorem removes_of_owed {q : Known} {p : Proc N Unit} {sid : String} (h : Keeps q p)
    (howed : q.owed sid) : Removes sid p := by
  refine Program.Follows.surely (O := fun q => q.owed sid) h howed ?_ fun q _ hq => hq.1 sid
  intro q a r howed hne
  show (heldAfter q.toHeld a r).owed sid
  unfold heldAfter
  split
  · rename_i e r
    cases e
    case sweepExpired => exact Or.inl howed
    case legacyRemove sid' =>
      refine ⟨howed, ?_⟩
      rintro rfl
      exact hne rfl
    all_goals exact howed
  · exact Or.inl howed
  · exact howed

theorem owed_of_ends {n : Nat} {c : Choice N} {s s' : Shared} {a : Section} {r : Reply N a}
    (h : runSection n c s a = .answer r s') {sid : String} (hends : a.ends c s.sessions sid)
    (q : Known) : ((sectionProtocol N).after q a r).owed sid := by
  unfold Section.ends at hends
  split at hends
  · cases h
    exact Or.inr hends
  · cases h
    exact Or.inr hends.symm
  · exact absurd hends id

/-! ## Runs -/

/-- A route of the session is a live one's, or about to be removed. -/
def Followed (P : Server N) (sid : String) : Prop :=
  P.shared.sessions.contains sid = true ∨ SomeThread (fun _ p => Removes sid p) P

/-- **The condition**: a session that expires in a `get` or is evicted by an
`insert` has no route, or another task is about to remove it; a route is touched
while its session is live, or about to be removed; and no step drops a route
another task is about to use. -/
def KeepsFollowing (P : Server N) : Act Frame (Choice N) → Prop
  | .spawn _ => True
  | .run n c => KeepsTouched P (.run n c) ∧
      ∀ a k, P.threads.get n = some (.call a k) → ∀ sid,
        (a.abandons c P.shared.sessions = some sid → sid ∈ P.shared.routes.keys →
          SomeThread (fun _ p => Removes sid p) P) ∧
        (a.touches = some sid → Followed P sid)

structure RoutesFollow (P : Server N) : Prop where
  orderly : Orderly P
  safe : RouteSafe P
  followed : ∀ sid ∈ P.shared.routes.keys, Followed P sid

theorem routesFollow_init {s : Shared} (hs : s.poisoned = false) (hroutes : s.routes.keys = []) :
    RoutesFollow (Pool.init s : Server N) := by
  refine ⟨orderly_init s, routeSafe_init hs, fun sid hsid => ?_⟩
  rw [Pool.init, hroutes] at hsid
  cases hsid

/-- A task about to remove a route stays one, or has just removed it. -/
theorem removes_step {P P' : Server N} {a : Act Frame (Choice N)} {sid : String}
    (h : (server d rfc3339).Step P a P') (hnum : Machine.Numbered P) (hsafe : RouteSafe P)
    (hP : SomeThread (fun _ p => Removes sid p) P) :
    SomeThread (fun _ p => Removes sid p) P' ∨ ∃ n c k, a = .run n c ∧
      P.threads.get n = some (.call (.effect (.legacyRemove sid)) k) := by
  refine SomeThread.step h hnum hP (fun n => Program.surely_ret) ?_ ?_ fun n p _ hJ => Or.inl hJ
  · intro n c e k r s ha hget hremoves _
    rcases hremoves with rfl | hremoves
    · exact Or.inr ⟨n, c, k, ha, hget⟩
    · exact Or.inl (hremoves r)
  · intro n c e k s _ hget _ hx
    exact absurd hx (hsafe.quiet n e k hget c s)

/-- **One section**: what it leaves of the routes is followed. -/
theorem followed_of_answer {P : Server N} {n : Nat} {c : Choice N} {a : Section}
    {k : Reply N a → Proc N Unit} {r : Reply N a} {s : Shared}
    (h : (server d rfc3339).Step P (.run n c) (P.resumed n s (k r)))
    (hget : P.threads.get n = some (.call a k)) (hx : runSection n c P.shared a = .answer r s)
    (hG : KeepsFollowing P (.run n c)) (hP : RoutesFollow P) {sid : String}
    (hsid : sid ∈ s.routes.keys) : Followed (P.resumed n s (k r)) sid := by
  have hran := ran_of_answer hx
  obtain ⟨habandons, htouches⟩ := hG.2 a k hget sid
  rw [hran.routes, mem_keys_routesAfter] at hsid
  have hremoves (hsome : SomeThread (fun _ p => Removes sid p) P) :
      Followed (P.resumed n s (k r)) sid := by
    refine Or.inr ((removes_step h hP.orderly.numbered hP.safe hsome).resolve_right ?_)
    rintro ⟨n', c', k', hact, hget'⟩
    cases hact
    rw [hget] at hget'
    cases hget'
    rcases hsid with ht | ⟨-, hdrops⟩
    · cases ht
    · exact hdrops rfl
  have hfollowed : Followed P sid := by
    rcases hsid with ht | ⟨hmem, -⟩
    · exact htouches ht
    · exact hP.followed sid hmem
  rcases hfollowed with hlive | hsome
  · rcases contains_sessionsAfter c P.shared a hlive with hlive | hgone | hends
    · refine Or.inl ?_
      rw [Pool.resumed, hran.sessions]
      exact hlive
    · refine hremoves (habandons hgone ?_)
      rcases hsid with ht | ⟨hmem, -⟩
      · unfold Section.touches at ht
        split at ht
        · cases hgone
        · cases ht
      · exact hmem
    · obtain ⟨q, hq⟩ := hP.orderly.keeps hget
      refine Or.inr ⟨n, k r, ?_, removes_of_owed (hq.2 r) (owed_of_ends hx hends q)⟩
      rw [Pool.get_resumed, if_pos rfl]
  · exact hremoves hsome

theorem routesFollow_step {P P' : Server N} {a : Act Frame (Choice N)}
    (h : (server d rfc3339).Step P a P') (hG : KeepsFollowing P a) (hP : RoutesFollow P) :
    RoutesFollow P' := by
  have hsafe : RouteSafe P' := by
    refine routeSafe_step h hP.orderly hP.safe ?_
    cases a with
    | spawn f => trivial
    | run n c => exact hG.1
  refine ⟨orderly_step h hP.orderly, hsafe, ?_⟩
  intro sid hsid
  -- a step that leaves the shared state alone
  have hsame (hshared : P'.shared = P.shared) (hcall : ∀ n c e k, a = .run n c →
      P.threads.get n ≠ some (.call e k)) : Followed P' sid := by
    rw [hshared] at hsid
    rcases hP.followed sid hsid with hlive | hsome
    · refine Or.inl ?_
      rw [hshared]
      exact hlive
    · refine Or.inr ((removes_step h hP.orderly.numbered hP.safe hsome).resolve_right ?_)
      rintro ⟨n, c, k, ha, hget⟩
      exact hcall n c _ k ha hget
  cases h.stepped with
  | spawn =>
      refine hsame rfl ?_
      rintro n c e k ⟨⟩
  | finish hget =>
      refine hsame rfl ?_
      rintro n c e k ⟨⟩ hget'
      rw [hget] at hget'
      cases hget'
  | panic hget hx => exact absurd hx (hP.safe.quiet _ _ _ hget _ _)
  | answer hget hx => exact followed_of_answer h hget hx hG hP hsid

/-- **Routes follow sessions**: along a run whose steps all meet the condition,
whenever no task is in flight every route is a live session's, and so is every
session that a publication would go to. -/
theorem routes_follow_sessions (d : VersionDispatcher N) (rfc3339 : Nat → String)
    (sessions : SessionStore) (taskCapacity : Nat)
    {tr : List (Act Frame (Choice N) × Server N)}
    (hrun : Run (server d rfc3339).Step (Pool.init (Shared.init sessions taskCapacity)) tr)
    (hG : ∀ x ∈ steps (Pool.init (Shared.init sessions taskCapacity)) tr,
      KeepsFollowing x.1 x.2.1) :
    ∀ P ∈ states (Pool.init (Shared.init sessions taskCapacity)) tr, P.Idle →
      (∀ sid ∈ P.shared.routes.keys, P.shared.sessions.contains sid = true) ∧
        ∀ p, ∀ t ∈ P.shared.routes.targets p, P.shared.sessions.contains t.1 = true := by
  intro P hP hidle
  have hinv : RoutesFollow P :=
    hrun.invariant_of_guard hG (routesFollow_init rfl rfl)
      (fun _ _ _ h hG hP => routesFollow_step h hG hP) P hP
  have hlive (sid : String) (hsid : sid ∈ P.shared.routes.keys) :
      P.shared.sessions.contains sid = true := by
    rcases hinv.followed sid hsid with hlive | ⟨n, p, hget, hremoves⟩
    · exact hlive
    · rw [hidle n p hget] at hremoves
      exact absurd hremoves Program.surely_ret
  exact ⟨hlive, fun p t ht => hlive t.1 (LegacyRoutes.mem_keys_of_mem_targets ht)⟩

/-! ## A session that is evicted -/

/-- Two clients shake hands, one after the other. -/
def twoSessions : List (Act Frame (Choice Unit)) :=
  .spawn (.message (sessionRequest 1 "initialize" "s1" [])) ::
      List.replicate 5 (.run 0 (.declined "")) ++
    .spawn (.message (sessionRequest 2 "initialize" "s2" [])) ::
      List.replicate 5 (.run 1 (.declined ""))

/-- Where the store holds one session, the first one's route outlives it. -/
theorem evicted_session_keeps_route :
    ∃ tr, Run (server resourceServer fun _ => "").Step
        (Pool.init (Shared.init (SessionStore.withCapacity 1) 8)) tr ∧
      ∃ P ∈ states (Pool.init (Shared.init (SessionStore.withCapacity 1) 8)) tr,
        P.Idle ∧ "s1" ∈ P.shared.routes.keys ∧
          P.shared.sessions.contains "s1" = false := by
  have hleft : (reach (server resourceServer fun _ => "").step
      (Pool.init (Shared.init (SessionStore.withCapacity 1) 8)) twoSessions).map
        (fun P => (P.threads.keys, P.shared.routes.keys, P.shared.sessions.contains "s1")) =
          some ([], ["s1", "s2"], false) := by
    decide +kernel
  obtain ⟨P, hreach, hP⟩ := Option.map_eq_some_iff.mp hleft
  obtain ⟨tr, hrun, hmem, -⟩ := exists_run_of_reach hreach
  rw [Prod.mk.injEq, Prod.mk.injEq] at hP
  refine ⟨tr, hrun, P, hmem, Pool.idle_of_keys hP.1, ?_, hP.2.2⟩
  rw [hP.2.1]
  exact List.mem_cons_self ..

/-- A section that drops no route and ends no session, and touches a live one's. -/
def harmless (P : Server N) : Act Frame (Choice N) → Bool
  | .spawn _ => true
  | .run n c =>
      match P.threads.get n with
      | some (.call a _) =>
          a.drops P.shared.routes c.pick = none ∧ a.abandons c P.shared.sessions = none ∧
            a.touches.all P.shared.sessions.contains
      | _ => true

theorem keepsFollowing_of_harmless (P : Server N) (a : Act Frame (Choice N))
    (h : harmless P a = true) : KeepsFollowing P a := by
  cases a with
  | spawn f => trivial
  | run n c =>
      have hcall {a : Section} {k : Reply N a → Proc N Unit}
          (hget : P.threads.get n = some (.call a k)) :
          a.drops P.shared.routes c.pick = none ∧ a.abandons c P.shared.sessions = none ∧
            a.touches.all P.shared.sessions.contains = true := by
        simp only [harmless, hget] at h
        exact of_decide_eq_true h
      refine ⟨fun a k hget sid hdrops => ?_, fun a k hget sid => ⟨fun hgone => ?_, fun ht => ?_⟩⟩
      · rw [(hcall hget).1] at hdrops
        cases hdrops
      · rw [(hcall hget).2.1] at hgone
        cases hgone
      · have hlive := (hcall hget).2.2
        rw [ht] at hlive
        exact Or.inl hlive

/-- A client that has shaken hands has a route, and its session is live. -/
theorem routes_follow_handshake :
    ∃ tr, Run (server resourceServer fun _ => "").Step
        (Pool.init (Shared.init (SessionStore.withCapacity 8) 8)) tr ∧
      ∃ P ∈ states (Pool.init (Shared.init (SessionStore.withCapacity 8) 8)) tr,
        P.shared.routes.keys = ["s1"] ∧ P.shared.sessions.contains "s1" = true := by
  have hleft : (reach (fun P a => if harmless P a then
        (server resourceServer fun _ => "").step P a else none)
      (Pool.init (Shared.init (SessionStore.withCapacity 8) 8)) (twoSessions.take 6)).map
        (fun P => (P.threads.keys, P.shared.routes.keys)) = some ([], ["s1"]) := by
    decide +kernel
  obtain ⟨P, hreach, hP⟩ := Option.map_eq_some_iff.mp hleft
  obtain ⟨tr, hrun, rfl, hG⟩ := exists_run_of_guarded_reach keepsFollowing_of_harmless hreach
  have hmem := final_mem_states (Pool.init (Shared.init (SessionStore.withCapacity 8) 8)) tr
  rw [Prod.mk.injEq] at hP
  have hfollow := routes_follow_sessions resourceServer (fun _ => "") _ _ hrun hG _ hmem
    (Pool.idle_of_keys hP.1)
  refine ⟨tr, hrun, _, hmem, hP.2, hfollow.1 "s1" ?_⟩
  rw [hP.2]
  exact List.mem_cons_self ..

end TurboMcp.System
