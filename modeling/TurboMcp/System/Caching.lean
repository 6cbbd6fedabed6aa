import TurboMcp.Client.Cache
import TurboMcp.Client.Handshake
import TurboMcp.Lib.Runs

/-!
# Caching while the server announces changes

The actor takes the server's frames one by one: a response goes to the task that
waits for it, a notification drops what it obsoletes from the cache.  The task
stores its result when it runs again, and the actor may have gone on by then.
-/

namespace TurboMcp.System.Caching

open TurboMcp.Core TurboMcp.Lib TurboMcp.Client TurboMcp.Client.ResponseCache

/-- Where a call that missed the cache stands; `received` is the place its
response has among the frames of the actor. -/
inductive Phase
  | waiting (id : RequestId)
  | ready (outcome : Except ClientError Value) (received : Nat)
  deriving DecidableEq

structure Task where
  key : CacheKey
  phase : Phase

structure State where
  now : Nat
  cache : ResponseCache
  /-- The frames the actor has processed. -/
  history : List JsonRpcMessage
  tasks : List Task
  nextId : Int
  /-- Where the result last stored for a key was received. -/
  origin : CacheKey → Nat

def State.initial : State :=
  { now := 0, cache := ResponseCache.empty, history := [], tasks := [], nextId := 1
    origin := fun _ => 0 }

inductive Label
  | tick (ms : Nat)
  /-- A listing or a read is called for. -/
  | call (key : CacheKey)
  | frame (msg : JsonRpcMessage)
  /-- A read goes into its next round of input. -/
  | again (i : Nat)
  | store (i tie : Nat)
  /-- A call fails or is dropped. -/
  | leave (i : Nat)
  | clear

/-- What `cached_request` and `read_resource` store: any listing, and what
settles a read. -/
def settles (key : CacheKey) (v : Value) : Bool :=
  key.1 ≠ "resources/read" || (v.get "resultType").bind Value.asStr ≠ some "input_required"

/-- What the actor does to the cache. -/
def routeCache (cache : ResponseCache) : JsonRpcMessage → ResponseCache
  | .notification n => cache.onNotification n.method n.params
  | _ => cache

/-- What the actor does to a task. -/
def routeTask (received : Nat) (msg : JsonRpcMessage) (task : Task) : Task :=
  match msg with
  | .response resp =>
      if task.phase = .waiting resp.id then
        { task with phase := .ready (completePending resp) received }
      else task
  | _ => task

def State.stored (s : State) (i tie : Nat) (key : CacheKey) (v : Value) (received : Nat) : State :=
  { s with
    cache := s.cache.store s.now tie key v
    tasks := s.tasks.eraseIdx i
    origin := if (ttlMs v).isSome then Function.update s.origin key received else s.origin }

def step (s : State) : Label → Option State
  | .tick ms => some { s with now := s.now + ms }
  | .call key =>
      let (hit, cache) := s.cache.get s.now key
      if hit.isSome then some { s with cache }
      else
        some { s with
          cache, nextId := s.nextId + 1
          tasks := s.tasks ++ [{ key, phase := .waiting (.number s.nextId) }] }
  | .frame msg =>
      some { s with
        cache := routeCache s.cache msg
        history := s.history ++ [msg]
        tasks := s.tasks.map (routeTask s.history.length msg) }
  | .again i =>
      match s.tasks[i]? with
      | some ⟨key, .ready (.ok v) _⟩ =>
          if settles key v then none
          else
            some { s with
              nextId := s.nextId + 1
              tasks := s.tasks.set i { key, phase := .waiting (.number s.nextId) } }
      | _ => none
  | .store i tie =>
      match s.tasks[i]? with
      | some ⟨key, .ready (.ok v) received⟩ =>
          if settles key v then some (s.stored i tie key v received) else none
      | _ => none
  | .leave i => some { s with tasks := s.tasks.eraseIdx i }
  | .clear => some { s with cache := s.cache.clear }

/-! ## What a step does -/

section

variable {s t : State}

theorem step_store {i tie : Nat} (h : step s (.store i tie) = some t) :
    ∃ key v received, s.tasks[i]? = some ⟨key, .ready (.ok v) received⟩ ∧
      t = s.stored i tie key v received := by
  simp only [step] at h
  split at h
  · rename_i key v received htask
    split at h
    · exact ⟨key, v, received, htask, (Option.some.inj h).symm⟩
    · cases h
  · cases h

theorem step_again {i : Nat} (h : step s (.again i) = some t) :
    ∃ key, t = { s with
      nextId := s.nextId + 1
      tasks := s.tasks.set i { key, phase := .waiting (.number s.nextId) } } := by
  simp only [step] at h
  split at h
  · rename_i key v received htask
    split at h
    · cases h
    · exact ⟨key, (Option.some.inj h).symm⟩
  · cases h

/-- After a store a caller sees the result stored, and what was there before. -/
theorem seen_stored {i tie received : Nat} {key key' : CacheKey} {v v' : Value}
    (hv : (s.stored i tie key v received).cache.lookup s.now key' = some v') :
    (((ttlMs v).isSome ∧ key' = key ∧ v' = v) ∧
        (s.stored i tie key v received).origin key' = received) ∨
      (s.cache.lookup s.now key' = some v' ∧
        (s.stored i tie key v received).origin key' = s.origin key') := by
  by_cases hsame : (ttlMs v).isSome = true ∧ key' = key
  · obtain ⟨hcacheable, rfl⟩ := hsame
    have hstored : (s.stored i tie key' v received).cache.lookup s.now key' = some v :=
      lookup_stored hcacheable
    refine Or.inl ⟨⟨hcacheable, rfl, Option.some.inj (hv.symm.trans hstored)⟩, ?_⟩
    simp only [State.stored, hcacheable, if_true, Function.update_self]
  · rcases lookup_store hv with ⟨hkey, -, hcacheable⟩ | hbefore
    · exact absurd ⟨hcacheable, hkey⟩ hsame
    · refine Or.inr ⟨hbefore, ?_⟩
      unfold State.stored
      simp only
      split
      · rename_i hcacheable
        exact Function.update_of_ne (fun heq => hsame ⟨hcacheable, heq⟩) _ _
      · rfl

theorem step_call {key : CacheKey} (h : step s (.call key) = some t) :
    t.cache = (s.cache.get s.now key).2 ∧ t.now = s.now ∧ t.history = s.history ∧
      t.origin = s.origin ∧
      ∀ task ∈ t.tasks, task ∈ s.tasks ∨ ∃ id, task.phase = .waiting id := by
  simp only [step] at h
  split at h
  · obtain rfl := Option.some.inj h
    exact ⟨rfl, rfl, rfl, rfl, fun task htask => Or.inl htask⟩
  · obtain rfl := Option.some.inj h
    refine ⟨rfl, rfl, rfl, rfl, ?_⟩
    intro task htask
    rcases List.mem_append.mp htask with htask | htask
    · exact Or.inl htask
    · rw [List.mem_singleton] at htask
      exact Or.inr ⟨_, by rw [htask]⟩

/-- Only the actor adds to the history, and only a store sets an origin or makes
a result visible. -/
theorem step_frame {a : Label} (h : step s a = some t) (hstore : ∀ i tie, a ≠ .store i tie)
    (hframe : ∀ msg, a ≠ .frame msg) :
    t.history = s.history ∧ t.origin = s.origin ∧
      ∀ key v, t.cache.lookup t.now key = some v → s.cache.lookup s.now key = some v := by
  cases a with
  | tick ms =>
      obtain rfl := Option.some.inj h
      exact ⟨rfl, rfl, fun key v hv => lookup_of_later hv⟩
  | call key =>
      obtain ⟨hcache, hnow, hhistory, horigin, -⟩ := step_call h
      refine ⟨hhistory, horigin, ?_⟩
      intro key' v hv
      rw [hcache, hnow] at hv
      exact lookup_of_get hv
  | frame msg => exact absurd rfl (hframe msg)
  | again i =>
      obtain ⟨key, rfl⟩ := step_again h
      exact ⟨rfl, rfl, fun key v hv => hv⟩
  | store i tie => exact absurd rfl (hstore i tie)
  | leave i =>
      obtain rfl := Option.some.inj h
      exact ⟨rfl, rfl, fun key v hv => hv⟩
  | clear =>
      obtain rfl := Option.some.inj h
      exact ⟨rfl, rfl, nofun⟩

/-- A task that a step other than the actor's leaves ready was ready before. -/
theorem step_tasks {a : Label} (h : step s a = some t) (hframe : ∀ msg, a ≠ .frame msg) :
    ∀ task ∈ t.tasks, task ∈ s.tasks ∨ ∃ id, task.phase = .waiting id := by
  cases a with
  | tick ms =>
      obtain rfl := Option.some.inj h
      exact fun task htask => Or.inl htask
  | call key => exact (step_call h).2.2.2.2
  | frame msg => exact absurd rfl (hframe msg)
  | again i =>
      obtain ⟨key, rfl⟩ := step_again h
      intro task htask
      rcases List.mem_or_eq_of_mem_set htask with hold | hnew
      · exact Or.inl hold
      · exact Or.inr ⟨_, by rw [hnew]⟩
  | store i tie =>
      obtain ⟨key, v, received, -, rfl⟩ := step_store h
      exact fun task htask => Or.inl (List.mem_of_mem_eraseIdx htask)
  | leave i =>
      obtain rfl := Option.some.inj h
      exact fun task htask => Or.inl (List.mem_of_mem_eraseIdx htask)
  | clear =>
      obtain rfl := Option.some.inj h
      exact fun task htask => Or.inl htask

end

/-! ## Where a result comes from -/

/-- The frame at `i` was the response that came to `outcome`. -/
def Received (s : State) (outcome : Except ClientError Value) (i : Nat) : Prop :=
  ∃ resp, s.history[i]? = some (.response resp) ∧ completePending resp = outcome

/-- What a task holds and what a caller sees came with the frames they name. -/
structure Genuine (s : State) : Prop where
  tasks : ∀ task ∈ s.tasks, ∀ outcome i, task.phase = .ready outcome i → Received s outcome i
  seen : ∀ key v, s.cache.lookup s.now key = some v → Received s (.ok v) (s.origin key)

section

variable {s t : State}

theorem Received.mono {outcome : Except ClientError Value} {i : Nat} (h : Received s outcome i)
    (hhistory : s.history <+: t.history) : Received t outcome i := by
  obtain ⟨resp, hresp, hout⟩ := h
  obtain ⟨rest, hrest⟩ := hhistory
  obtain ⟨hbound, -⟩ := List.getElem?_eq_some_iff.mp hresp
  refine ⟨resp, ?_, hout⟩
  rw [← hrest, List.getElem?_append_left hbound, hresp]

theorem Genuine.frame {msg : JsonRpcMessage} (h : step s (.frame msg) = some t)
    (hs : Genuine s) : Genuine t := by
  obtain rfl := Option.some.inj h
  have hhistory : s.history <+: s.history ++ [msg] := List.prefix_append _ _
  refine ⟨?_, ?_⟩
  · intro task htask outcome i hphase
    obtain ⟨task', htask', rfl⟩ := List.mem_map.mp htask
    unfold routeTask at hphase
    split at hphase
    · split at hphase
      · cases hphase
        exact ⟨_, List.getElem?_concat_length, rfl⟩
      · exact (hs.tasks task' htask' outcome i hphase).mono hhistory
    · exact (hs.tasks task' htask' outcome i hphase).mono hhistory
  · intro key v hv
    have hbefore : s.cache.lookup s.now key = some v := by
      cases msg with
      | request req => exact hv
      | response resp => exact hv
      | notification n => exact (lookup_onNotification hv).1
    exact (hs.seen key v hbefore).mono hhistory

theorem Genuine.store {i tie : Nat} (h : step s (.store i tie) = some t) (hs : Genuine s) :
    Genuine t := by
  obtain ⟨key, v, received, htask, rfl⟩ := step_store h
  have hreceived : Received s (.ok v) received :=
    hs.tasks _ (List.mem_of_getElem? htask) _ _ rfl
  refine ⟨?_, ?_⟩
  · intro task hmem
    exact hs.tasks task (List.mem_of_mem_eraseIdx hmem)
  · intro key' v' hv
    rcases seen_stored hv with ⟨⟨-, rfl, rfl⟩, horigin⟩ | ⟨hbefore, horigin⟩
    · rw [horigin]
      exact hreceived
    · rw [horigin]
      exact hs.seen key' v' hbefore

theorem Genuine.step {a : Label} (h : step s a = some t) (hs : Genuine s) : Genuine t := by
  by_cases hstore : ∃ i tie, a = .store i tie
  · obtain ⟨i, tie, rfl⟩ := hstore
    exact hs.store h
  · by_cases hframe : ∃ msg, a = .frame msg
    · obtain ⟨msg, rfl⟩ := hframe
      exact hs.frame h
    · push Not at hstore hframe
      obtain ⟨hhistory, horigin, hseen⟩ := step_frame h hstore hframe
      have hsame : ∀ {outcome i}, Received s outcome i → Received t outcome i :=
        fun hr => hr.mono (hhistory ▸ List.prefix_rfl)
      refine ⟨?_, ?_⟩
      · intro task htask outcome i hphase
        rcases step_tasks h hframe task htask with hold | ⟨id, hid⟩
        · exact hsame (hs.tasks task hold outcome i hphase)
        · rw [hid] at hphase
          cases hphase
      · intro key v hv
        rw [horigin]
        exact hsame (hs.seen key v (hseen key v hv))

/-- **Provenance**: what is seen of a key is what the response at its origin
came to. -/
theorem cache_genuine {tr : List (Label × State)}
    (hrun : Run (fun s a t => step s a = some t) State.initial tr) :
    ∀ t ∈ states State.initial tr, Genuine t := by
  refine hrun.invariant ⟨?_, ?_⟩ fun _ _ _ h hs => Genuine.step h hs
  · intro task htask
    cases htask
  · intro key v hv
    cases hv

end

/-! ## Current results -/

/-- No result that a caller can see was received before a notification, among
those processed, that obsoletes it. -/
def Current (s : State) : Prop :=
  ∀ key v, s.cache.lookup s.now key = some v →
    ∀ n, .notification n ∈ s.history.drop (s.origin key) → ¬ Obsoletes n key

/-- No result is stored of which the actor has processed such a notification
since the response. -/
def StoredInTime (s : State) : Label → Prop
  | .store i _ => ∀ key v received, s.tasks[i]? = some ⟨key, .ready (.ok v) received⟩ →
      (ttlMs v).isSome →
        ∀ n, .notification n ∈ s.history.drop received → ¬ Obsoletes n key
  | _ => True

section

variable {s t : State}

theorem current_initial : Current State.initial := by
  intro key v hv
  cases hv

theorem current_frame {msg : JsonRpcMessage} (h : step s (.frame msg) = some t)
    (hs : Current s) : Current t := by
  obtain rfl := Option.some.inj h
  intro key v hv n hn
  change (routeCache s.cache msg).lookup s.now key = some v at hv
  change .notification n ∈ (s.history ++ [msg]).drop (s.origin key) at hn
  rw [List.drop_append, List.mem_append] at hn
  cases msg with
  | request req =>
      rcases hn with hn | hn
      · exact hs key v hv n hn
      · cases List.mem_singleton.mp (List.mem_of_mem_drop hn)
  | response resp =>
      rcases hn with hn | hn
      · exact hs key v hv n hn
      · cases List.mem_singleton.mp (List.mem_of_mem_drop hn)
  | notification n' =>
      obtain ⟨hbefore, hkept⟩ := lookup_onNotification hv
      rcases hn with hn | hn
      · exact hs key v hbefore n hn
      · cases List.mem_singleton.mp (List.mem_of_mem_drop hn)
        exact hkept

theorem current_store {i tie : Nat} (h : step s (.store i tie) = some t) (hs : Current s) :
    Current t ↔ StoredInTime s (.store i tie) := by
  obtain ⟨key, v, received, htask, rfl⟩ := step_store h
  constructor
  · intro ht key' v' received' htask' hcacheable n hn
    rw [htask] at htask'
    cases htask'
    have hseen : (s.stored i tie key v received).cache.lookup s.now key = some v :=
      lookup_stored hcacheable
    refine ht key v hseen n ?_
    simp only [State.stored, hcacheable, if_true, Function.update_self]
    exact hn
  · intro hstored key' v' hv n hn
    rcases seen_stored hv with ⟨⟨hcacheable, rfl, rfl⟩, horigin⟩ | ⟨hbefore, horigin⟩
    · rw [horigin] at hn
      exact hstored _ _ _ htask hcacheable n hn
    · rw [horigin] at hn
      exact hs key' v' hbefore n hn

/-- **Step lemma**: a step keeps the cache current exactly if it stores in time. -/
theorem current_step {a : Label} (h : step s a = some t) (hs : Current s) :
    Current t ↔ StoredInTime s a := by
  by_cases hstore : ∃ i tie, a = .store i tie
  · obtain ⟨i, tie, rfl⟩ := hstore
    exact current_store h hs
  · by_cases hframe : ∃ msg, a = .frame msg
    · obtain ⟨msg, rfl⟩ := hframe
      exact iff_of_true (current_frame h hs) trivial
    · push Not at hstore hframe
      obtain ⟨hhistory, horigin, hseen⟩ := step_frame h hstore hframe
      refine iff_of_true ?_ ?_
      · intro key v hv n hn
        rw [hhistory, horigin] at hn
        exact hs key v (hseen key v hv) n hn
      · cases a with
        | store i tie => exact absurd rfl (hstore i tie)
        | tick | call | frame | again | leave | clear => trivial

/-- **A current cache**: in every state of a run no caller can see an obsolete
result iff every store comes before the actor has processed a notification that
obsoletes what is stored. -/
theorem cache_current_iff {tr : List (Label × State)}
    (hrun : Run (fun s a t => step s a = some t) State.initial tr) :
    (∀ t ∈ states State.initial tr, Current t) ↔
      ∀ x ∈ steps State.initial tr, StoredInTime x.1 x.2.1 :=
  hrun.forall_states_iff (I := fun _ => True) trivial current_initial
    (fun _ _ _ _ _ => trivial) fun _ _ _ h _ hs => current_step h hs

end

/-! ### A listing and a change -/

def toolsKey : CacheKey := ("tools/list", none)

def listing : Value := .object [("tools", .array []), ("ttlMs", .int 60000)]

def listed : JsonRpcMessage := .response (.success (.number 1) listing)

def toolsChanged : JsonRpcNotification :=
  { method := "notifications/tools/list_changed", params := none }

/-- What was processed since the response of what is stored has no method. -/
def promptly (s : State) : Label → Bool
  | .store i _ =>
      match s.tasks[i]? with
      | some ⟨_, .ready _ received⟩ => (s.history.drop received).all (·.method = none)
      | _ => true
  | _ => true

theorem storedInTime_of_promptly (s : State) (a : Label) (h : promptly s a = true) :
    StoredInTime s a := by
  cases a with
  | store i tie =>
      intro key v received htask _ n hn
      simp only [promptly, htask, List.all_eq_true, decide_eq_true_eq] at h
      cases h _ hn
  | tick | call | frame | again | leave | clear => trivial

/-- The change comes after the listing is stored. -/
def inTime : List Label :=
  [.call toolsKey, .frame listed, .store 0 0, .frame (.notification toolsChanged)]

theorem in_time_current :
    ∃ s, reach (fun s a => if promptly s a then step s a else none) State.initial inTime = some s ∧
      Current s := by
  refine ⟨_, rfl, ?_⟩
  have hreach : reach (fun s a => if promptly s a then step s a else none) State.initial inTime =
      some _ := rfl
  obtain ⟨tr, hrun, hfinal, hstored⟩ := exists_run_of_guarded_reach storedInTime_of_promptly hreach
  rw [← hfinal]
  exact (cache_current_iff hrun).mpr hstored _ (final_mem_states _ tr)

/-- The actor processes the change before the caller runs again. -/
def overtaken : List Label :=
  [.call toolsKey, .frame listed, .frame (.notification toolsChanged), .store 0 0]

/-- **A stale listing**: received before the change, stored after it, and served
from then on. -/
theorem overtaken_stale :
    ∃ s, reach step State.initial overtaken = some s ∧
      s.cache.lookup s.now toolsKey = some listing ∧ ¬ Current s := by
  refine ⟨_, rfl, rfl, ?_⟩
  intro h
  exact h toolsKey listing rfl toolsChanged (List.mem_cons_of_mem _ List.mem_cons_self)
    (Or.inl ⟨rfl, rfl⟩)

end TurboMcp.System.Caching
