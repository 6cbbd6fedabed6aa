import TurboMcp.System.Roles
import TurboMcp.System.Streams

/-!
# From acknowledgement to registry

A listen request that has been acknowledged is in the registry or about to be:
the only ways out are a cancellation, a publication that finds the connection
gone, and a drain.  A request nobody cancels never sees its token fired.
-/

namespace TurboMcp.System

open TurboMcp.Core TurboMcp.Lib TurboMcp.Server TurboMcp.ExtTasks TurboMcp.Service

variable {N : Type} {d : VersionDispatcher N} {rfc3339 : Nat → String} {key : SubscriptionKey}
  {frames : Nat → Option Frame}

/-! ## An undisturbed stream -/

/-- The task is about to record the subscription. -/
def Recording (key : SubscriptionKey) (p : Proc N Unit) : Prop :=
  ∃ agreed k, p = .call (.effect (.subscriptionInsert key.1 key.2 agreed)) k

/-- The registry has been drained. -/
def Drained (log : List Event) : Prop := ∃ n, .drained n ∈ log

/-- The connection has a writer, whose receiving end is there. -/
def Shared.Reachable (s : Shared) (connection : String) : Prop :=
  (Outbound.writer s.writers connection).isSome = true ∧ connection ∉ s.closed

/-- The frames are those of the run. -/
structure Planned (frames : Nat → Option Frame) (P : Server N) (a : Act Frame (Choice N)) :
    Prop where
  planned : ∀ n f, P.born[n]? = some f → frames n = some f
  spawned : ∀ f, a = .spawn f → frames P.next = some f

/-- The frames of a run are planned from its end. -/
theorem planned_of_run {P : Server N} {tr : List (Act Frame (Choice N) × Server N)}
    (hrun : Run (server d rfc3339).Step P tr) :
    ∀ x ∈ steps P tr, Planned (fun n => (final P tr).born[n]?) x.1 x.2.1 := by
  rintro ⟨P₀, a, P₁⟩ hx
  have hstep : (server d rfc3339).Step P₀ a P₁ := hrun _ hx
  have hborn : P₁.born <+: (final P tr).born := Machine.born_of_mem_steps hrun _ hx
  refine ⟨fun n f hf => ?_, ?_⟩
  · obtain ⟨later, hlater⟩ := (Machine.born_step hstep).trans hborn
    rw [← hlater, List.getElem?_append_left (List.getElem?_eq_some_iff.mp hf).1]
    exact hf
  · rintro f rfl
    obtain ⟨later, hlater⟩ := hborn
    cases hstep.stepped
    rw [← hlater]
    show (P₀.born ++ [f] ++ later)[P₀.born.length]? = some f
    rw [List.append_assoc, List.getElem?_append_right (Nat.le_refl _), Nat.sub_self]
    rfl

/-- And the connection of an acknowledged request is reachable. -/
structure Undisturbed (key : SubscriptionKey) (frames : Nat → Option Frame) (P : Server N)
    (a : Act Frame (Choice N)) : Prop extends Planned frames P a where
  reachable : Acknowledged P.shared.log key → P.shared.Reachable key.1

/-- The task is tracked as the listen request. -/
def Tracked (key : SubscriptionKey) (frames : Nat → Option Frame) (n : Nat) : Prop :=
  ∃ f, frames n = some f ∧ f.role.tracks = some key

/-! ## What tasks know -/

/-- What a task of number `n` has learned is true. -/
structure Entitled.Sound (key : SubscriptionKey) (frames : Nat → Option Frame) (q : Entitled)
    (n : Nat) (s : Shared) : Prop where
  pending : q.pending = some key → Acknowledged s.log key
  told : q.told key → Acknowledged s.log key
  gone : ¬ q.gone key
  cancelled : q.cancelled = true → n ∈ s.fired
  token : ∀ t, q.token = some t → ¬ Tracked key frames t

structure Shared.Sound (key : SubscriptionKey) (frames : Nat → Option Frame) (s : Shared) :
    Prop where
  registered : key ∈ s.subscriptions.keys → Acknowledged s.log key
  inflight : ∀ key' t, key' ≠ key → s.inflight.get key' = some t → ¬ Tracked key frames t
  fired : ∀ t ∈ s.fired, ¬ Tracked key frames t

theorem Entitled.sound_none (n : Nat) (s : Shared) : Entitled.none.Sound key frames n s :=
  ⟨nofun, nofun, id, nofun, nofun⟩

section

variable {n : Nat} {c : Choice N} {s s' : Shared} {a : Section} {r : Reply N a} {f : Frame}
  {q : Entitled}

theorem acknowledged_of_answer (h : runSection n c s a = .answer r s')
    (hs : Acknowledged s.log key) : Acknowledged s'.log key := by
  rw [(ran_of_answer h).log]
  exact hs.append _

/-- What a task has sent on an open writer is on the stream. -/
theorem acknowledged_of_send {connection : String} {m : JsonRpcMessage} {sent : Bool}
    (h : runSection (N := N) n c s (.effect (.send connection m)) = .answer sent s')
    (hsent : sent = true) (hconn : connection = key.1) (hid : ForSubscription key.2 m)
    (hm : isAcknowledgement m = true) : Acknowledged s'.log key := by
  subst hconn hsent
  have hclosed : key.1 ∉ s.closed := by
    intro hclosed
    simp only [runSection, runEffect, hclosed, if_true] at h
    cases h
  refine ⟨m, ?_, hm⟩
  rw [streamed_of_answer h, List.mem_append, mem_streams]
  exact Or.inr ⟨rfl, hid, hclosed⟩

/-- **Learning**: what a task learns of the stream is true. -/
theorem entitled_after (h : runSection n c s a = .answer r s')
    (hcancels : f.role.cancels ≠ some key) (hallows : frameAllows f q a)
    (hq : q.Sound key frames n s) (hs : s.Sound key frames)
    (hreach : Acknowledged s.log key → s.Reachable key.1) :
    ((frameProtocol N f).after q a r).Sound key frames n s' := by
  refine ⟨fun hpending => ?_, fun htold => ?_, fun hgone => ?_, fun hcancelled => ?_,
    fun t ht => ?_⟩
  · change (openingAfter f q.toOpening a r).pending = some key at hpending
    unfold openingAfter at hpending
    split at hpending
    · rename_i connection m sent
      simp only at hpending
      split at hpending
      · rename_i hboth
        rw [Bool.and_eq_true] at hboth
        obtain ⟨id, filters, rfl, hlistens⟩ := hallows.2 hboth.1
        rw [hpending] at hlistens
        cases hlistens
        exact acknowledged_of_send h hboth.2 rfl (forSubscription_acknowledgement _ _) hboth.1
      · cases hpending
    · rename_i e r hsend
      cases e
      case send connection m => exact (hsend _ _ _ HEq.rfl rfl).elim
      case subscriptionInsert => cases hpending
      all_goals exact acknowledged_of_answer h (hq.pending hpending)
    · exact acknowledged_of_answer h (hq.pending hpending)
  · change toldAfter q.told a r key at htold
    unfold toldAfter at htold
    split at htold
    · cases h
      rcases htold with htold | hkey
      · exact hq.told htold
      · exact hs.registered (Subscriptions.mem_keys_of_mem_targets hkey)
    · exact acknowledged_of_answer h (hq.told htold)
  · change goneAfter q a r key at hgone
    unfold goneAfter at hgone
    split at hgone
    · rcases hgone with hgone | ⟨rfl, rfl, htold⟩
      · exact hq.gone hgone
      · have hlive := (hreach (hq.told htold)).1
        simp only [runSection, runEffect, hlive] at h
        cases h
    · rcases hgone with hgone | ⟨rfl, rfl, htold⟩
      · exact hq.gone hgone
      · have hopen := (hreach (hq.told htold)).2
        simp only [runSection, runEffect, hopen, if_false] at h
        cases h
    · exact hq.gone hgone
  · change (openingAfter f q.toOpening a r).cancelled = true at hcancelled
    unfold openingAfter at hcancelled
    split at hcancelled
    · cases hcancelled
    · rename_i e r hsend
      cases e
      case send connection m => exact (hsend _ _ _ HEq.rfl rfl).elim
      case subscriptionInsert => cases hcancelled
      case isCancelled connection id =>
        cases h
        have hfired : s.fired.contains n = true := hcancelled
        simpa using hfired
      all_goals exact fired_mono h (hq.cancelled hcancelled)
    · exact fired_mono h (hq.cancelled hcancelled)
  · change tokenAfter q.token a r = some t at ht
    unfold tokenAfter at ht
    split at ht
    · rename_i connection id found
      cases h
      refine hs.inflight (connection, id) t ?_ ht
      rintro rfl
      exact hcancels hallows.2
    · exact hq.token t ht

/-- **The tables**: what a section leaves there is sound. -/
theorem shared_sound_after (h : runSection n c s a = .answer r s') (hf : frames n = some f)
    (hallows : frameAllows f q a) (hq : q.Sound key frames n s) (hs : s.Sound key frames) :
    s'.Sound key frames := by
  have hran := ran_of_answer h
  refine ⟨fun hkey => ?_, fun key' t hne ht => ?_, fun t ht => ?_⟩
  · rw [hran.subscriptions] at hkey
    refine acknowledged_of_answer h ?_
    unfold Section.subscriptionsAfter at hkey
    split at hkey
    · rw [Dict.mem_keys_insert] at hkey
      rcases hkey with rfl | hkey
      · exact hq.pending hallows.1
      · exact hs.registered hkey
    · rw [Dict.mem_keys_remove] at hkey
      exact hs.registered hkey.2
    · cases hkey
    · exact hs.registered hkey
  · rw [hran.inflight] at ht
    unfold Section.inflightAfter at ht
    split at ht
    · rename_i connection id
      rw [Dict.get_insert] at ht
      split at ht
      · rename_i heq
        cases ht
        rintro ⟨f', hf', htracks⟩
        rw [hf] at hf'
        cases hf'
        have htracks' : f.role.tracks = some (connection, id) := hallows.2
        rw [htracks'] at htracks
        cases htracks
        exact hne heq.symm
      · exact hs.inflight key' t hne ht
    · rw [Dict.get_remove] at ht
      split at ht
      · cases ht
      · exact hs.inflight key' t hne ht
    · exact hs.inflight key' t hne ht
  · rw [hran.fired] at ht
    unfold Section.firedAfter at ht
    split at ht
    · rw [List.mem_insert_iff] at ht
      rcases ht with rfl | ht
      · exact hq.token t hallows.2
      · exact hs.fired t ht
    · exact hs.fired t ht

end

/-! ## In the registry, or about to be -/

/-- The stream, once acknowledged, is recorded or about to be. -/
def Kept (key : SubscriptionKey) (P : Server N) : Prop :=
  Drained P.shared.log ∨ (Acknowledged P.shared.log key →
    key ∈ P.shared.subscriptions.keys ∨ SomeThread (fun _ p => Recording key p) P)

theorem tracks_of_listens {f : Frame} (h : f.role.listens = some key) :
    f.role.tracks = some key := by
  cases f with
  | message msg =>
      cases msg with
      | request req =>
          have hlistens : (if req.method = methods.subscriptionsListen then requestKey req
            else none) = some key := h
          split at hlistens
          · exact hlistens
          · cases hlistens
      | notification n => cases h
      | response resp => cases h
  | _ => cases h

/-- What is acknowledged is recorded next. -/
theorem recording_of_pending {f : Frame} {q : Entitled} {p : Proc N Unit} (h : KeepsFrame f q p)
    (hq : q.pending = some key) : Recording key p := by
  have hnone {P : Prop} (h : q.pending = none) : P := by
    rw [hq] at h
    cases h
  cases p with
  | ret a => exact hnone h
  | call a k =>
      have hallows := h.1
      cases a
      case effect e =>
        cases e
        case subscriptionInsert connection id agreed =>
          have hpending := hallows.1
          rw [hq] at hpending
          cases hpending
          exact ⟨agreed, k, rfl⟩
        case subscriptionRemove connection id =>
          rcases hallows with h | h
          · exact hnone h.1
          · exact hnone h.1
        all_goals first | exact hnone hallows | exact hnone hallows.1
      all_goals first | exact hnone hallows | exact hnone hallows.1

section

variable {n : Nat} {c : Choice N} {s s' : Shared} {a : Section} {r : Reply N a} {f : Frame}
  {q : Entitled}

/-- **Staying recorded**: nobody takes the subscription out but a drain. -/
theorem registered_after (h : runSection n c s a = .answer r s') (hf : frames n = some f)
    (hcancels : f.role.cancels ≠ some key) (hallows : frameAllows f q a)
    (hq : q.Sound key frames n s) (hs : s.Sound key frames)
    (hkey : key ∈ s.subscriptions.keys) :
    key ∈ s'.subscriptions.keys ∨ Drained s'.log := by
  have hran := ran_of_answer h
  rw [hran.subscriptions, hran.log]
  unfold Section.subscriptionsAfter
  split
  · rw [Dict.mem_keys_insert]
    exact Or.inl (Or.inr hkey)
  · rename_i connection id
    rw [Dict.mem_keys_remove]
    refine Or.inl ⟨?_, hkey⟩
    rintro rfl
    rcases hallows with ⟨-, hrole | ⟨hlistens, hcancelled⟩⟩ | ⟨-, hgone⟩
    · exact hcancels hrole
    · exact hs.fired n (hq.cancelled hcancelled) ⟨f, hf, tracks_of_listens hlistens⟩
    · exact hq.gone hgone
  · refine Or.inr ⟨n, List.mem_append_right _ ?_⟩
    exact List.mem_singleton_self _
  · exact Or.inl hkey

/-- **A new acknowledgement** comes from the listen request, which records it
next. -/
theorem recording_after {k : Reply N a → Proc N Unit} (h : runSection n c s a = .answer r s')
    (hkeeps : KeepsFrame f q (.call a k)) (hold : ¬ Acknowledged s.log key)
    (hnew : Acknowledged s'.log key) : Recording key (k r) := by
  obtain ⟨m, hm, hack⟩ := hnew
  rw [streamed_of_answer h, List.mem_append] at hm
  rcases hm with hm | hm
  · exact absurd ⟨m, hm, hack⟩ hold
  · obtain ⟨rfl, hid, hopen⟩ := mem_streams.mp hm
    obtain ⟨id, filters, rfl, hlistens⟩ := hkeeps.1.2 hack
    obtain rfl := hid.unique (forSubscription_acknowledgement id filters)
    simp only [runSection, runEffect, hopen, if_false] at h
    cases h
    exact recording_of_pending (hkeeps.2 _) hlistens

end

theorem Entitled.Sound.mono {n m : Nat} {c : Choice N} {s s' : Shared} {a : Section}
    {r : Reply N a} {q : Entitled} (hq : q.Sound key frames m s)
    (h : runSection n c s a = .answer r s') : q.Sound key frames m s' :=
  ⟨fun hpending => acknowledged_of_answer h (hq.pending hpending),
    fun htold => acknowledged_of_answer h (hq.told htold), hq.gone,
    fun hcancelled => fired_mono h (hq.cancelled hcancelled), hq.token⟩

theorem Drained.append {log : List Event} (h : Drained log) (log' : List Event) :
    Drained (log ++ log') := by
  obtain ⟨n, hn⟩ := h
  exact ⟨n, List.mem_append_left _ hn⟩

/-- An acknowledged stream that is on its way into the registry. -/
structure Unhindered (key : SubscriptionKey) (frames : Nat → Option Frame) (P : Server N) :
    Prop where
  tasks : Threads (fun s n f p => ∃ q, KeepsFrame f q p ∧ q.Sound key frames n s) P
  shared : P.shared.Sound key frames
  kept : Kept key P

theorem unhindered_init (sessions : SessionStore) (taskCapacity : Nat) :
    Unhindered key frames (Pool.init (Shared.init sessions taskCapacity) : Server N) := by
  refine ⟨nofun, ⟨nofun, fun _ _ _ => nofun, nofun⟩, Or.inr ?_⟩
  rintro ⟨m, hm, -⟩
  cases hm

/-- A task about to record the subscription stays one, or has just recorded it. -/
theorem recording_step {P P' : Server N} {a : Act Frame (Choice N)}
    (h : (server d rfc3339).Step P a P') (hnum : Machine.Numbered P)
    (hP : SomeThread (fun _ p => Recording key p) P) :
    SomeThread (fun _ p => Recording key p) P' ∨ key ∈ P'.shared.subscriptions.keys := by
  refine SomeThread.step h hnum hP ?_ ?_ ?_ fun n p _ hJ => Or.inl hJ
  · rintro n ⟨agreed, k, heq⟩
    cases heq
  · rintro n c e k r s rfl hget ⟨agreed, k', heq⟩ hx
    cases heq
    rw [Machine.Step.resumed h hget hx]
    have hx : runSection n c P.shared _ = .answer r s := hx
    refine Or.inr ?_
    rw [Pool.resumed, (ran_of_answer hx).subscriptions]
    exact (Dict.mem_keys_insert ..).mpr (Or.inl rfl)
  · rintro n c e k s rfl hget ⟨agreed, k', heq⟩ hx
    cases heq
    cases hx

/-- **Kept**: an acknowledgement is new, and its request is recorded next; or
the subscription is on its way, or in the registry, and stays. -/
theorem kept_step {P P' : Server N} {a : Act Frame (Choice N)}
    (h : (server d rfc3339).Step P a P')
    (huncancelled : ∀ n f, frames n = some f → f.role.cancels ≠ some key)
    (hG : Undisturbed key frames P a) (hP : Unhindered key frames P) : Kept key P' := by
  by_cases hdrained : Drained P'.shared.log
  · exact Or.inl hdrained
  refine Or.inr fun hnew => ?_
  by_cases hold : Acknowledged P.shared.log key
  · have hkept : key ∈ P.shared.subscriptions.keys ∨ SomeThread (fun _ p => Recording key p) P := by
      refine (hP.kept.resolve_left fun hdrained' => hdrained ?_) hold
      refine shared_step h (I := fun s => Drained s.log) hdrained' (fun s b hs => hs) ?_
      intro n c e k r s _ _ hx
      rw [(ran_of_answer hx).log]
      exact hdrained'.append _
    rcases hkept with hkey | hrecording
    · refine Or.inl ?_
      refine (shared_step h (I := fun s => key ∈ s.subscriptions.keys ∨ Drained s.log)
        (Or.inl hkey) (fun s b hs => hs) ?_).resolve_right hdrained
      rintro n c e k r s rfl hget hx
      obtain ⟨f, hf, q, hkeeps, hq⟩ := hP.tasks n _ hget
      have hf := hG.planned n f hf
      exact registered_after hx hf (huncancelled n f hf) hkeeps.1 hq hP.shared hkey
    · exact (recording_step h hP.tasks.numbered hrecording).symm
  · cases h.stepped with
    | spawn => exact absurd hnew hold
    | finish hget => exact absurd hnew hold
    | @answer n _ _ k r _ hget hx =>
        obtain ⟨f, hf, q, hkeeps, -⟩ := hP.tasks n _ hget
        refine Or.inr ⟨n, k r, ?_, recording_after hx hkeeps hold hnew⟩
        rw [Pool.get_resumed, if_pos rfl]
    | panic hget hx =>
        rw [eq_of_panic hx] at hnew
        exact absurd hnew hold

theorem unhindered_step {P P' : Server N} {a : Act Frame (Choice N)}
    (h : (server d rfc3339).Step P a P')
    (huncancelled : ∀ n f, frames n = some f → f.role.cancels ≠ some key)
    (hG : Undisturbed key frames P a) (hP : Unhindered key frames P) :
    Unhindered key frames P' := by
  refine ⟨?_, ?_, kept_step h huncancelled hG hP⟩
  · refine threads_step h hP.tasks ?_ ?_ ?_ ?_
    · intro f _
      exact ⟨Entitled.none, keepsFrame_startFrame d rfc3339 f, Entitled.sound_none ..⟩
    · rintro s b n f p ⟨q, hkeeps, hq⟩
      exact ⟨q, hkeeps, hq.pending, hq.told, hq.gone, hq.cancelled, hq.token⟩
    · rintro n f c e k r s - hget hf ⟨q, hkeeps, hq⟩ hx
      exact ⟨_, hkeeps.2 r, entitled_after hx (huncancelled n f (hG.planned n f hf)) hkeeps.1
        hq hP.shared hG.reachable⟩
    · rintro n c e k r s m f p - - hx - - - ⟨q, hkeeps, hq⟩
      exact ⟨q, hkeeps, hq.mono hx⟩
  · refine shared_step h (I := fun s => s.Sound key frames) hP.shared ?_ ?_
    · intro s b hs
      exact ⟨hs.registered, hs.inflight, hs.fired⟩
    · intro n c e k r s _ hget hx
      obtain ⟨f, hf, q, hkeeps, hq⟩ := hP.tasks n _ hget
      exact shared_sound_after hx (hG.planned n f hf) hkeeps.1 hq hP.shared

/-! ## One run -/

theorem acknowledged_of_run {P : Server N} {tr : List (Act Frame (Choice N) × Server N)}
    (hrun : Run (server d rfc3339).Step P tr) (hP : Acknowledged P.shared.log key) :
    ∀ P' ∈ states P tr, Acknowledged P'.shared.log key := by
  refine hrun.invariant hP fun P a P' h hP => ?_
  refine shared_step h (I := fun s => Acknowledged s.log key) hP (fun s b hs => hs) ?_
  intro n c e k r s _ _ hx
  exact acknowledged_of_answer hx hP

/-- **Kept along a run** in which nobody cancels the request and its connection
stays reachable. -/
theorem unhindered_of_run {sessions : SessionStore} {taskCapacity : Nat}
    {tr : List (Act Frame (Choice N) × Server N)}
    (hrun : Run (server d rfc3339).Step (Pool.init (Shared.init sessions taskCapacity)) tr)
    (huncancelled : ∀ f ∈ (final (Pool.init (Shared.init sessions taskCapacity)) tr).born,
      f.role.cancels ≠ some key)
    (hreach : ∀ P ∈ states (Pool.init (Shared.init sessions taskCapacity)) tr,
      Acknowledged P.shared.log key → P.shared.Reachable key.1) :
    ∀ P ∈ states (Pool.init (Shared.init sessions taskCapacity)) tr,
      Unhindered key
        (fun n => (final (Pool.init (Shared.init sessions taskCapacity)) tr).born[n]?) P := by
  refine hrun.invariant_of_guard (fun x hx => ?_) (unhindered_init sessions taskCapacity)
    fun _ _ _ h hG hP => unhindered_step h ?_ hG hP
  · exact ⟨planned_of_run hrun x hx, hreach x.1 (source_mem_states hx)⟩
  · intro n f hf
    exact huncancelled f (List.mem_of_getElem? hf)

end TurboMcp.System
