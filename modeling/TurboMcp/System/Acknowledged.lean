import TurboMcp.System.Streams

/-!
# Acknowledged first

A listen request is acknowledged before it is recorded in the subscription
registry, so what is published there comes after its acknowledgement.  The tasks
extension records its part before: a status push that reads the subscribers in
between gets in first.
-/

namespace TurboMcp.System

open TurboMcp.Core TurboMcp.Lib TurboMcp.Server TurboMcp.ExtTasks

variable {N : Type} {d : VersionDispatcher N} {rfc3339 : Nat → String}

/-- The first message of each stream is its acknowledgement. -/
def AcknowledgedFirst (log : List Event) : Prop :=
  ∀ key m, (streamed log key).head? = some m → isAcknowledgement m = true

/-- **The condition**: a push that reads the subscribers of a task finds none
whose acknowledgement is still to come. -/
def PushesAcknowledged (P : Server N) : Act Frame (Choice N) → Prop
  | .spawn _ => True
  | .run n _ => ∀ taskId k, P.threads.get n = some (.call (.taskSubscribers taskId) k) →
      ∀ s ∈ P.shared.taskSubs.subscribers taskId, Acknowledged P.shared.log (Subscriber.key s)

/-! ## What tasks know is acknowledged -/

/-- Whatever stream the task knows of is acknowledged. -/
structure Known.Streaming (q : Known) (log : List Event) : Prop where
  acked : ∀ key, q.acked key → Acknowledged log key
  heard : ∀ key, q.heard key → Acknowledged log key
  drained : ∀ key ∈ q.drained, Acknowledged log key

theorem Known.Streaming.append {q : Known} {log : List Event} (h : q.Streaming log)
    (log' : List Event) : q.Streaming (log ++ log') :=
  ⟨fun key hkey => (h.acked key hkey).append log', fun key hkey => (h.heard key hkey).append log',
    fun key hkey => (h.drained key hkey).append log'⟩

/-- Every recorded subscription is acknowledged. -/
structure Shared.Acknowledging (s : Shared) : Prop where
  registered : ∀ key ∈ s.subscriptions.keys, Acknowledged s.log key
  first : AcknowledgedFirst s.log

structure StreamsAcknowledged (P : Server N) : Prop where
  tasks : Threads (fun s _ _ p => ∃ q, Keeps q p ∧ q.Streaming s.log) P
  shared : P.shared.Acknowledging

theorem streamsAcknowledged_init (sessions : SessionStore) (taskCapacity : Nat) :
    StreamsAcknowledged (Pool.init (Shared.init sessions taskCapacity) : Server N) :=
  ⟨nofun, nofun, nofun⟩

/-- What a section may enqueue on a stream that is not yet acknowledged. -/
theorem isAcknowledgement_of_streams {q : Known} {s : Shared} {a : Section}
    (hallows : sectionAllows q a) (hq : q.Streaming s.log) {key : SubscriptionKey}
    {m : JsonRpcMessage} (hm : m ∈ a.streams s key) :
    isAcknowledgement m = true ∨ Acknowledged s.log key := by
  obtain ⟨rfl, hid, -⟩ := mem_streams.mp hm
  cases hallows.2 with
  | acknowledgement id filters => exact Or.inl rfl
  | unstamped hnone =>
      rw [ForSubscription, hnone] at hid
      cases hid
  | notification hheard hid' =>
      obtain rfl := hid.unique hid'
      exact Or.inr (hq.heard key hheard)
  | closeResponse hdrained =>
      obtain rfl := hid.unique (forSubscription_closeResponse _)
      exact Or.inr (hq.drained key hdrained)

/-- **Learning**: a task learns of acknowledged streams only. -/
theorem streaming_after {n : Nat} {c : Choice N} {s s' : Shared} {a : Section} {r : Reply N a}
    (h : runSection n c s a = .answer r s') {q : Known} (hq : q.Streaming s.log)
    (hregistered : ∀ key ∈ s.subscriptions.keys, Acknowledged s.log key)
    (hpush : ∀ taskId, a = .taskSubscribers taskId →
      ∀ sub ∈ s.taskSubs.subscribers taskId, Acknowledged s.log (Subscriber.key sub)) :
    ((sectionProtocol N).after q a r).Streaming s'.log := by
  rw [(ran_of_answer h).log]
  refine ⟨fun key hkey => ?_, fun key hkey => ?_, fun key hkey => ?_⟩
  · change (heldAfter q.toHeld a r).acked key at hkey
    unfold heldAfter at hkey
    split at hkey
    · rename_i e r
      cases e
      case send connection m =>
        rcases hkey with hkey | ⟨rfl, hack, hconn, hid⟩
        · exact (hq.acked key hkey).append _
        · refine ⟨m, ?_, hack⟩
          have hclosed : connection ∉ s.closed := by
            intro hclosed
            simp only [runSection, runEffect, hclosed, if_true] at h
            cases h
          rw [streamed_append, streamed_events, List.mem_append, mem_streams, hconn]
          exact Or.inr ⟨rfl, hid, hclosed⟩
      all_goals exact (hq.acked key hkey).append _
    · exact (hq.acked key hkey).append _
    · exact (hq.acked key hkey).append _
  · change heardAfter q.heard a r key at hkey
    unfold heardAfter at hkey
    split at hkey
    · rename_i p keys
      cases h
      rcases hkey with hkey | hkey
      · exact (hq.heard key hkey).append _
      · exact (hregistered key (Subscriptions.mem_keys_of_mem_targets hkey)).append _
    · rename_i taskId subs
      cases h
      rcases hkey with hkey | ⟨sub, hsub, rfl⟩
      · exact (hq.heard key hkey).append _
      · exact (hpush taskId rfl sub hsub).append _
    · exact (hq.heard key hkey).append _
  · change key ∈ drainedAfter q.drained a r at hkey
    unfold drainedAfter at hkey
    split at hkey
    · cases h
      rcases List.mem_append.mp hkey with hkey | hkey
      · exact (hq.drained key hkey).append _
      · exact (hregistered key hkey).append _
    · exact (hq.drained key (List.mem_of_mem_eraseP hkey)).append _
    · exact (hq.drained key hkey).append _

/-- **The registry**: what a section leaves there is acknowledged. -/
theorem acknowledged_subscriptionsAfter {q : Known} {s : Shared} {a : Section}
    (hallows : sectionAllows q a) (hq : q.Streaming s.log)
    (hregistered : ∀ key ∈ s.subscriptions.keys, Acknowledged s.log key) :
    ∀ key ∈ (a.subscriptionsAfter s).keys, Acknowledged s.log key := by
  intro key hkey
  unfold Section.subscriptionsAfter at hkey
  split at hkey
  · rw [Dict.mem_keys_insert] at hkey
    rcases hkey with rfl | hkey
    · exact hq.acked _ hallows
    · exact hregistered key hkey
  · rw [Dict.mem_keys_remove] at hkey
    exact hregistered key hkey.2
  · cases hkey
  · exact hregistered key hkey

theorem AcknowledgedFirst.append {log log' : List Event} (hfirst : AcknowledgedFirst log)
    (hnew : ∀ key, ∀ m ∈ streamed log' key, isAcknowledgement m = true ∨ Acknowledged log key) :
    AcknowledgedFirst (log ++ log') := by
  intro key m hm
  rw [streamed_append] at hm
  cases hlog : streamed log key with
  | nil =>
      rw [hlog, List.nil_append] at hm
      rcases hnew key m (List.mem_of_head? hm) with hack | ⟨m', hm', -⟩
      · exact hack
      · rw [hlog] at hm'
        cases hm'
  | cons m' ms =>
      rw [hlog, List.cons_append, List.head?_cons] at hm
      cases hm
      refine hfirst key m ?_
      rw [hlog]
      rfl

theorem acknowledging_of_answer {n : Nat} {c : Choice N} {s s' : Shared} {a : Section}
    {r : Reply N a} (h : runSection n c s a = .answer r s') {q : Known}
    (hallows : sectionAllows q a) (hq : q.Streaming s.log) (hs : s.Acknowledging) :
    s'.Acknowledging := by
  have hran := ran_of_answer h
  refine ⟨fun key hkey => ?_, ?_⟩
  · rw [hran.subscriptions] at hkey
    rw [hran.log]
    exact (acknowledged_subscriptionsAfter hallows hq hs.registered key hkey).append _
  · rw [hran.log]
    refine hs.first.append fun key m hm => ?_
    rw [streamed_events] at hm
    exact isAcknowledgement_of_streams hallows hq hm

theorem streamsAcknowledged_step {P P' : Server N} {a : Act Frame (Choice N)}
    (h : (server d rfc3339).Step P a P') (hG : PushesAcknowledged P a)
    (hP : StreamsAcknowledged P) : StreamsAcknowledged P' := by
  constructor
  · refine threads_step h hP.tasks ?_ ?_ ?_ ?_
    · intro f _
      exact ⟨Known.none, keeps_startFrame d rfc3339 f, ⟨nofun, nofun, nofun⟩⟩
    · intro s b n f p hJ
      exact hJ
    · rintro n f c e k r s rfl hget - ⟨q, hkeeps, hq⟩ hx
      refine ⟨_, hkeeps.2 r, streaming_after hx hq hP.shared.registered ?_⟩
      rintro taskId rfl
      exact hG taskId k hget
    · rintro n c e k r s m f p - - hx - - - ⟨q, hkeeps, hq⟩
      refine ⟨q, hkeeps, ?_⟩
      rw [(ran_of_answer hx).log]
      exact hq.append _
  · refine shared_step h hP.shared ?_ ?_
    · intro s b hs
      exact ⟨hs.registered, hs.first⟩
    · intro n c e k r s _ hget hx
      obtain ⟨-, -, q, hkeeps, hq⟩ := hP.tasks n _ hget
      exact acknowledging_of_answer hx hkeeps.1 hq hP.shared

/-- **Acknowledged first**: along a run whose steps all meet the condition, the
first message of every stream is its acknowledgement. -/
theorem acknowledged_first (d : VersionDispatcher N) (rfc3339 : Nat → String)
    (sessions : SessionStore) (taskCapacity : Nat)
    {tr : List (Act Frame (Choice N) × Server N)}
    (hrun : Run (server d rfc3339).Step (Pool.init (Shared.init sessions taskCapacity)) tr)
    (hG : ∀ x ∈ steps (Pool.init (Shared.init sessions taskCapacity)) tr,
      PushesAcknowledged x.1 x.2.1) :
    ∀ P ∈ states (Pool.init (Shared.init sessions taskCapacity)) tr,
      AcknowledgedFirst P.shared.log := by
  intro P hP
  have hinv : StreamsAcknowledged P :=
    hrun.invariant_of_guard hG (streamsAcknowledged_init sessions taskCapacity)
      (fun _ _ _ h hG hP => streamsAcknowledged_step h hG hP) P hP
  exact hinv.shared.first

/-! ## A push between recording and acknowledgement -/

/-- The tasks extension has recorded the listen request when the task completes,
and its status is pushed before the acknowledgement is sent. -/
def pushedMidway : List (Act Frame (Choice Unit)) :=
  listening ["t"] ++ List.replicate 3 (.run 2 (.declined "")) ++
    .spawn (.completeTask "t" (.completed .null)) :: List.replicate 5 (.run 3 (.declined ""))

/-- The first message of the stream is the task's status. -/
theorem status_before_acknowledgement :
    ∃ tr, Run (server taskServer fun _ => "").Step
        (Pool.init (Shared.init (SessionStore.withCapacity 8) 8)) tr ∧
      ∃ P ∈ states (Pool.init (Shared.init (SessionStore.withCapacity 8) 8)) tr,
        ¬ AcknowledgedFirst P.shared.log := by
  have hfirst : (reach (server taskServer fun _ => "").step
      (Pool.init (Shared.init (SessionStore.withCapacity 8) 8)) pushedMidway).map
        (fun P => (streamed P.shared.log ("c", .number 7)).map isAcknowledgement) =
          some [false] := by
    decide +kernel
  obtain ⟨P, hreach, hP⟩ := Option.map_eq_some_iff.mp hfirst
  obtain ⟨tr, hrun, hmem, -⟩ := exists_run_of_reach hreach
  refine ⟨tr, hrun, P, hmem, fun h => ?_⟩
  obtain ⟨m, hm, hack⟩ := List.map_eq_singleton_iff.mp hP
  have := h ("c", .number 7) m (by rw [hm]; rfl)
  rw [hack] at this
  cases this

/-- A push that reads no subscriber whose acknowledgement is still to come. -/
def pushesAcknowledged (P : Server N) : Act Frame (Choice N) → Bool
  | .spawn _ => true
  | .run n _ =>
      match P.threads.get n with
      | some (.call (.taskSubscribers taskId) _) =>
          (P.shared.taskSubs.subscribers taskId).all fun s =>
            (streamed P.shared.log (Subscriber.key s)).any isAcknowledgement
      | _ => true

theorem pushesAcknowledged_of_check (P : Server N) (a : Act Frame (Choice N))
    (h : pushesAcknowledged P a = true) : PushesAcknowledged P a := by
  cases a with
  | spawn f => trivial
  | run n c =>
      intro taskId k hget s hs
      simp only [pushesAcknowledged, hget, List.all_eq_true, List.any_eq_true] at h
      exact h s hs

/-- Where the push comes after the acknowledgement, so does the status. -/
theorem status_after_acknowledgement :
    ∃ tr, Run (server taskServer fun _ => "").Step
        (Pool.init (Shared.init (SessionStore.withCapacity 8) 8)) tr ∧
      ∃ P ∈ states (Pool.init (Shared.init (SessionStore.withCapacity 8) 8)) tr,
        (streamed P.shared.log ("c", .number 7)).length = 2 ∧
          AcknowledgedFirst P.shared.log := by
  have hlength : (reach (fun P a => if pushesAcknowledged P a then
        (server taskServer fun _ => "").step P a else none)
      (Pool.init (Shared.init (SessionStore.withCapacity 8) 8))
      (listening ["t"] ++ List.replicate 8 (.run 2 (.declined "")) ++
        .spawn (.completeTask "t" (.completed .null)) ::
          List.replicate 5 (.run 3 (.declined "")))).map
        (fun P => (streamed P.shared.log ("c", .number 7)).length) = some 2 := by
    decide +kernel
  obtain ⟨P, hreach, hP⟩ := Option.map_eq_some_iff.mp hlength
  obtain ⟨tr, hrun, rfl, hG⟩ :=
    exists_run_of_guarded_reach pushesAcknowledged_of_check hreach
  exact ⟨tr, hrun, _, final_mem_states _ _, hP,
    acknowledged_first taskServer (fun _ => "") _ _ hrun hG _ (final_mem_states _ _)⟩

end TurboMcp.System
