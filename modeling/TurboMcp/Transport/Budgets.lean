import Mathlib.Data.List.Perm.Subperm
import TurboMcp.Lib.Buckets
import TurboMcp.Transport.Guards

/-!
# Budgets

The limiter shared by all requests keeps a bucket for each key and, every now and
then, drops the ones that are full again.  The keyed store under it is taken with its
laws.  Each key is served as by a bucket of its own: what others are charged, and when
buckets are dropped, does not matter to it.  Only cleared requests are charged to a
subject, each of them once.
-/

namespace TurboMcp.Transport.HttpEndpoint

open TurboMcp.Auth TurboMcp.Core TurboMcp.Lib

/-! ## The limiter behind the endpoint -/

/-- `GovernorRateLimiter`, with the state of the keyed store it wraps. -/
structure GovernorRateLimiter (S : Type) where
  inner : S
  checks : Nat

def GovernorRateLimiter.new {S : Type} (store : KeyedLimiter RateKey S (Option Nat)) :
    GovernorRateLimiter S := ⟨store.new, 0⟩

/-- What the surroundings decide as an effect is answered. -/
structure Surrounding where
  now : Nat
  decision : AuthDecision
  uuid : String
  ready : Option ProtocolError
  result : RequestPost.CallResult
  response : RequestPost.Response
  existed : Bool

variable {S B : Type}

/-- The limiter's effects; the others are answered from outside. -/
def limited (store : KeyedLimiter RateKey S (Option Nat)) (_thread : Nat) (choice : Surrounding)
    (limiter : GovernorRateLimiter S) :
    (e : EndpointEffect) → Outcome (GovernorRateLimiter S) e.Reply
  | .authenticate _ => .answer choice.decision limiter
  | .countCheck => .answer limiter.checks { limiter with checks := limiter.checks + 1 }
  | .retainRecent =>
      .answer () { limiter with inner := store.retainRecent choice.now limiter.inner }
  | .checkKey key =>
      .answer (store.checkKey choice.now key limiter.inner).1
        { limiter with inner := (store.checkKey choice.now key limiter.inner).2 }
  | .mint => .answer choice.uuid limiter
  | .register _ => .answer () limiter
  | .unregister _ => .answer () limiter
  | .pollReady => .answer choice.ready limiter
  | .call _ => .answer choice.result limiter
  | .race _ _ _ => .answer choice.response limiter
  | .terminate _ => .answer choice.existed limiter
  | .respond _ => .answer () limiter

abbrev EndpointLog := List (Logged EndpointEffect EndpointEffect.Reply Surrounding)

/-- The verdict of an effect that charges a key. -/
def verdictOn (key : RateKey) : (Σ e : EndpointEffect, e.Reply) → Option (Option Nat)
  | ⟨.checkKey key', verdict⟩ => if key' = key then some verdict else none
  | _ => none

/-- When a key was charged, and with what verdict. -/
def charges (key : RateKey) (log : EndpointLog) : List (Nat × Option Nat) :=
  log.filterMap fun x => (verdictOn key x.did).map fun verdict => (x.choice.now, verdict)

def times (key : RateKey) (log : EndpointLog) : List Nat := (charges key log).map Prod.fst

def verdicts (key : RateKey) (log : EndpointLog) : List (Option Nat) :=
  (charges key log).map Prod.snd

/-- The times at which buckets were dropped. -/
def cleanups (log : EndpointLog) : List Nat :=
  log.filterMap fun x => match x.did with
    | ⟨.retainRecent, _⟩ => some x.choice.now
    | _ => none

/-- A check reads the clock no earlier than the clean-ups before it. -/
def OnTime (log : EndpointLog) : Prop :=
  ∀ before x after, log = before ++ x :: after → ∀ key, verdictOn key x.did ≠ none →
    ∀ cleanup ∈ cleanups before, cleanup ≤ x.choice.now

/-! ## Private buckets -/

variable {store : KeyedLimiter RateKey S (Option Nat)} {rule : BucketRule B (Option Nat)}
  {view : S → RateKey → Option B} {log : EndpointLog} {key : RateKey}

theorem charges_concat (x : Logged EndpointEffect EndpointEffect.Reply Surrounding) :
    charges key (log ++ [x]) = charges key log ++
      ((verdictOn key x.did).map fun verdict => (x.choice.now, verdict)).toList := by
  unfold charges
  rw [List.filterMap_append]
  cases hverdict : verdictOn key x.did <;> simp [hverdict]

theorem cleanups_append (log log' : EndpointLog) :
    cleanups (log ++ log') = cleanups log ++ cleanups log' := List.filterMap_append

theorem OnTime.of_concat {x : Logged EndpointEffect EndpointEffect.Reply Surrounding}
    (h : OnTime (log ++ [x])) :
    OnTime log ∧ ∀ key, verdictOn key x.did ≠ none → ∀ cleanup ∈ cleanups log,
      cleanup ≤ x.choice.now := by
  refine ⟨?_, h log x [] rfl⟩
  rintro before y after rfl
  exact h before y (after ++ [x]) (by simp)

/-- The store mirrors the private buckets of what has been charged, from its last
clean-up on, and has answered as they would. -/
def Faithful (rule : BucketRule B (Option Nat)) (view : S → RateKey → Option B)
    (limiter : GovernorRateLimiter S) (log : EndpointLog) : Prop :=
  OnTime log →
    (∀ now, (∀ cleanup ∈ cleanups log, cleanup ≤ now) →
      KeyedLimiter.Mirrors rule view now (fun key => times key log) limiter.inner) ∧
      ∀ key, verdicts key log = rule.answers none (times key log)

theorem faithful_new (hstore : store.Lawful rule view) :
    Faithful rule view (GovernorRateLimiter.new store) [] :=
  fun _ => ⟨fun now _ => hstore.mirrors_new now, fun _ => rfl⟩

/-- An effect that charges nobody. -/
theorem Faithful.pass {limiter limiter' : GovernorRateLimiter S}
    (h : Faithful rule view limiter log)
    (x : Logged EndpointEffect EndpointEffect.Reply Surrounding)
    (hx : ∀ key, verdictOn key x.did = none)
    (hkeeps : ∀ now, (∀ cleanup ∈ cleanups [x], cleanup ≤ now) →
      KeyedLimiter.Mirrors rule view now (fun key => times key log) limiter.inner →
        KeyedLimiter.Mirrors rule view now (fun key => times key log) limiter'.inner) :
    Faithful rule view limiter' (log ++ [x]) := by
  intro hontime
  obtain ⟨hmirrors, hverdicts⟩ := h hontime.of_concat.1
  have hcharges : ∀ key, charges key (log ++ [x]) = charges key log := by
    intro key
    rw [charges_concat, hx key]
    exact List.append_nil _
  have htimes : (fun key => times key (log ++ [x])) = fun key => times key log := by
    funext key
    unfold times
    rw [hcharges key]
  refine ⟨fun now hnow => ?_, fun key => ?_⟩
  · rw [cleanups_append, List.forall_mem_append] at hnow
    rw [htimes]
    exact hkeeps now hnow.2 (hmirrors now hnow.1)
  · unfold verdicts times
    rw [hcharges key]
    exact hverdicts key

/-- A charge of one key. -/
theorem Faithful.charge {limiter : GovernorRateLimiter S} (h : Faithful rule view limiter log)
    (hstore : store.Lawful rule view) (thread : Nat) (choice : Surrounding) (key : RateKey) :
    Faithful rule view
      { limiter with inner := (store.checkKey choice.now key limiter.inner).2 }
      (log ++ [⟨thread, choice, .checkKey key,
        (store.checkKey choice.now key limiter.inner).1⟩]) := by
  intro hontime
  obtain ⟨hlog, hdone⟩ := hontime.of_concat
  obtain ⟨hmirrors, hverdicts⟩ := h hlog
  -- The clean-ups lie before this check, so the mirrored bucket is the one it charges.
  have hnow := hmirrors choice.now (hdone key (by simp [verdictOn]))
  have hcharges : ∀ key', charges key' (log ++ [⟨thread, choice, .checkKey key,
      (store.checkKey choice.now key limiter.inner).1⟩]) = charges key' log ++
        if key = key' then [(choice.now, (store.checkKey choice.now key limiter.inner).1)]
        else [] := by
    intro key'
    rw [charges_concat]
    unfold verdictOn
    by_cases hkey : key = key' <;> simp [hkey]
  refine ⟨fun now hby => ?_, fun key' => ?_⟩
  · have htimes : (fun key' => times key' (log ++ [⟨thread, choice, .checkKey key,
        (store.checkKey choice.now key limiter.inner).1⟩])) =
        Function.update (fun key' => times key' log) key (times key log ++ [choice.now]) := by
      funext key'
      unfold times
      rw [hcharges key']
      by_cases hkey : key = key'
      · subst hkey
        simp
      · simp [hkey, Function.update_of_ne (Ne.symm hkey)]
    rw [cleanups_append, List.forall_mem_append] at hby
    rw [htimes]
    exact (hmirrors now hby.1).checkKey hstore hnow key
  · unfold verdicts times
    rw [hcharges key']
    by_cases hkey : key = key'
    · subst hkey
      rw [if_pos rfl, List.map_append, List.map_append, BucketRule.answers_append]
      refine congr (congrArg _ (hverdicts key)) ?_
      exact congrArg (fun v => [v]) (hnow.answer hstore key)
    · rw [if_neg hkey, List.append_nil]
      exact hverdicts key'

theorem Faithful.step {limiter limiter' : GovernorRateLimiter S} (hstore : store.Lawful rule view)
    (h : Faithful rule view limiter log) {n : Nat} {choice : Surrounding} {e : EndpointEffect}
    {r : e.Reply} (hexec : limited store n choice limiter e = .answer r limiter') :
    Faithful rule view limiter' (log ++ [⟨n, choice, e, r⟩]) := by
  cases e with
  | checkKey key =>
      cases hexec
      exact h.charge hstore n choice key
  | retainRecent =>
      cases hexec
      refine h.pass _ (fun _ => rfl) fun now hnow hmirrors => ?_
      exact hmirrors.retainRecent hstore (hnow choice.now List.mem_cons_self)
  | _ =>
      cases hexec
      exact h.pass _ (fun _ => rfl) fun _ _ hmirrors => hmirrors

/-! ## Who gets through -/

/-- The threads whose charge of the key was admitted. -/
def admittedThreads (key : RateKey) (log : EndpointLog) : List Nat :=
  (log.filter fun x => verdictOn key x.did = some none).map (·.thread)

theorem length_admittedThreads (key : RateKey) (log : EndpointLog) :
    (admittedThreads key log).length = (verdicts key log).count none := by
  induction log with
  | nil => rfl
  | cons x log ih =>
      unfold admittedThreads verdicts charges at ih ⊢
      rw [List.filter_cons, List.filterMap_cons]
      rcases hverdict : verdictOn key x.did with _ | _ | wait
      · simpa using ih
      · simpa using ih
      · simpa using ih

/-- Whoever is cleared on a key was admitted on it. -/
theorem mem_admittedThreads {c : HttpConfig} {req : HttpRequest} {principal : Option Value}
    {n : Nat} (hlimiter : c.rateLimiter = true)
    (h : Cleared c req (Logged.own n log) principal) :
    n ∈ admittedThreads (bucketOf c req principal) log := by
  obtain ⟨x, hx, hdid⟩ := List.mem_map.mp (h.admitted hlimiter)
  obtain ⟨hx, hthread⟩ := List.mem_filter.mp hx
  refine List.mem_map.mpr ⟨x, List.mem_filter.mpr ⟨hx, ?_⟩, of_decide_eq_true hthread⟩
  rw [hdid]
  simp [verdictOn]

/-- **Budgets are private**: over any keyed store that keeps its laws, and in every run
whose checks read the clock no earlier than the clean-ups before them, a key has been
answered as a bucket answers that only this key charges and that is never dropped; and no
more requests are cleared on a key than that bucket has admitted, whoever else is charged
meanwhile. -/
theorem budgets_private (c : HttpConfig) (hlimiter : c.rateLimiter = true)
    (hstore : store.Lawful rule view)
    {tr : List (Act HttpRequest Surrounding × Pool (GovernorRateLimiter S × EndpointLog)
      EndpointEffect EndpointEffect.Reply HttpRequest)}
    (hrun : Run (endpoint c (limited store)).logged.Step
      (Pool.init (GovernorRateLimiter.new store, [])) tr) :
    ∀ P ∈ states (Pool.init (GovernorRateLimiter.new store, [])) tr, OnTime P.shared.2 → ∀ key,
      verdicts key P.shared.2 = rule.answers none (times key P.shared.2) ∧
      ∀ threads : List Nat, threads.Nodup →
        (∀ n ∈ threads, ∃ req principal, P.born[n]? = some req ∧
          Cleared c req (Logged.own n P.shared.2) principal ∧ bucketOf c req principal = key) →
        threads.length ≤ (rule.answers none (times key P.shared.2)).count none := by
  intro P hP hontime key
  have hfaithful := Machine.logged_invariant (m := endpoint c (limited store))
    (I := fun limiter log => Faithful rule view limiter log) (faithful_new hstore)
    (fun _ _ _ _ _ _ _ hlog hexec => hlog.step hstore hexec)
    (fun _ _ n choice e _ _ hexec => by cases e <;> cases hexec) hrun P hP
  have hverdicts := (hfaithful hontime).2 key
  refine ⟨hverdicts, fun threads hnodup hthreads => ?_⟩
  rw [← hverdicts, ← length_admittedThreads]
  -- Whoever is cleared on the key has an admitted charge of its own.
  refine (List.subperm_of_subset hnodup fun n hn => ?_).length_le
  obtain ⟨req, principal, -, hcleared, rfl⟩ := hthreads n hn
  exact mem_admittedThreads hlimiter hcleared

/-! ## A shared budget -/

/-- The same without an authenticator: one request per ten nanoseconds and address. -/
def openConfig : HttpConfig := { sampleConfig with authenticator := false }

def sampleSurrounding (now : Nat) : Surrounding where
  now
  decision := .challenge 401 ""
  uuid := ""
  ready := none
  result := .ok none
  response := .plain 202 .empty
  existed := true

abbrev SamplePool := Pool (GovernorRateLimiter (Dict RateKey Nat) × EndpointLog) EndpointEffect
  EndpointEffect.Reply HttpRequest

/-- The first two requests come from one address, the third from another. -/
def sampleActs : List (Act HttpRequest Surrounding) :=
  [.spawn (sampleRequest 1), .spawn (sampleRequest 1), .spawn (sampleRequest 2),
    .run 0 (sampleSurrounding 0), .run 0 (sampleSurrounding 0), .run 0 (sampleSurrounding 1),
    .run 1 (sampleSurrounding 1), .run 1 (sampleSurrounding 2),
    .run 2 (sampleSurrounding 2), .run 2 (sampleSurrounding 3), .run 0 (sampleSurrounding 3)]

def sampleMachine : Machine (GovernorRateLimiter (Dict RateKey Nat) × EndpointLog) EndpointEffect
    EndpointEffect.Reply HttpRequest Surrounding :=
  (endpoint openConfig (limited (gcraLimiter 10 1))).logged

def sampleStart : SamplePool := Pool.init (GovernorRateLimiter.new (gcraLimiter 10 1), [])

def sampleTrace : List (Act HttpRequest Surrounding × SamplePool) :=
  trace sampleMachine.act sampleStart sampleActs

def sampleEnd : SamplePool := final sampleStart sampleTrace

theorem sample_run : Run sampleMachine.Step sampleStart sampleTrace := by
  have hchecked : checked sampleMachine.act (fun P a => (sampleMachine.step P a).isSome)
      sampleStart sampleActs = true := by
    decide +kernel
  exact run_trace_of_checked (fun P a h => Machine.step_act h) hchecked

theorem sampleEnd_mem : sampleEnd ∈ states sampleStart sampleTrace := final_mem_states _ _

/-- The first address has spent its budget; the second has not. -/
theorem budgets_private_sample :
    verdicts (.ip (localAddress 1)) sampleEnd.shared.2 = [none, some 9] ∧
      verdicts (.ip (localAddress 2)) sampleEnd.shared.2 = [none] ∧
      verdicts (.ip (localAddress 1)) sampleEnd.shared.2 =
        (gcra 10 1).answers none (times (.ip (localAddress 1)) sampleEnd.shared.2) ∧
      verdicts (.ip (localAddress 2)) sampleEnd.shared.2 =
        (gcra 10 1).answers none (times (.ip (localAddress 2)) sampleEnd.shared.2) := by
  have hontime : OnTime sampleEnd.shared.2 := by
    -- buckets are dropped at time zero only
    have hcleanups : ∀ cleanup ∈ cleanups sampleEnd.shared.2, cleanup = 0 := by
      decide +kernel
    rintro before x after hlog key - cleanup hcleanup
    have hmem : cleanup ∈ cleanups sampleEnd.shared.2 := by
      rw [hlog, cleanups_append]
      exact List.mem_append_left _ hcleanup
    rw [hcleanups cleanup hmem]
    exact Nat.zero_le _
  have hprivate := fun key => (budgets_private openConfig rfl (gcraLimiter_lawful 10 1) sample_run
    sampleEnd sampleEnd_mem hontime key).1
  exact ⟨by decide +kernel, by decide +kernel, hprivate _, hprivate _⟩

end TurboMcp.Transport.HttpEndpoint
