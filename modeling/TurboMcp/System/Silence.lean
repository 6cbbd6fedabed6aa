import TurboMcp.System.Roles
import TurboMcp.System.Streams

/-!
# Closed subscriptions

A cancellation takes a subscription out of the registry, and `close_all`
answers it after draining the registry; neither touches the task subscriptions.
Where these have no entry for it either, and no handler is still to record one,
nothing that starts later is told of the subscription, and so nothing that
starts later notifies it.
-/

namespace TurboMcp.System

open TurboMcp.Core TurboMcp.Lib TurboMcp.Server TurboMcp.ExtTasks

variable {N : Type} {d : VersionDispatcher N} {rfc3339 : Nat → String} {key : SubscriptionKey}

/-! ## Notifying and recording -/

/-- A notification of the subscription, other than its acknowledgement. -/
def Notifies (key : SubscriptionKey) : JsonRpcMessage → Prop
  | .notification n =>
      ForSubscription key.2 (.notification n) ∧ isAcknowledgement (.notification n) = false
  | _ => False

instance (key : SubscriptionKey) (m : JsonRpcMessage) : Decidable (Notifies key m) :=
  match m with
  | .notification _ => inferInstanceAs (Decidable (_ ∧ _))
  | .request _ | .response _ => .isFalse id

/-- The section enqueues one. -/
def Section.notifies (key : SubscriptionKey) (a : Section) : Prop :=
  ∃ m, a = .effect (.send key.1 m) ∧ Notifies key m

/-- The section's answer tells of the subscription. -/
def Section.tells (key : SubscriptionKey) : (a : Section) → Reply N a → Prop
  | .targets _, (keys : List SubscriptionKey) => key ∈ keys
  | .taskSubscribers _, (subs : List Subscriber) => ∃ s ∈ subs, Subscriber.key s = key
  | _, _ => False

/-- The section records the subscription, in the registry or with an extension. -/
def Section.records (key : SubscriptionKey) (a : Section) : Prop :=
  (∃ agreed, a = .effect (.subscriptionInsert key.1 key.2 agreed)) ∨
    ∃ ext notifications declared,
      a = .effect (.onSubscribe ext key.1 key.2 notifications declared)

/-- The task does not notify the subscription unless it is yet to be told of it. -/
def Silent (key : SubscriptionKey) (p : Proc N Unit) : Prop :=
  Program.wp (fun a => ¬ a.notifies key) (fun a r => ¬ a.tells key r) p fun _ => True

/-- The task has no record of the subscription left to make. -/
def Recorded (key : SubscriptionKey) (p : Proc N Unit) : Prop :=
  Program.wp (fun a => ¬ a.records key) (fun _ _ => True) p fun _ => True

/-- A task that has not heard of a subscription is silent. -/
theorem silent_of_keeps {q : Known} {p : Proc N Unit} (h : Keeps q p) (hq : ¬ q.heard key) :
    Silent key p := by
  induction p generalizing q with
  | ret a => trivial
  | call a k ih =>
      obtain ⟨hallows, hk⟩ := h
      refine ⟨?_, fun r hr => ih r (hk r) ?_⟩
      · rintro ⟨m, rfl, hnotifies⟩
        cases hallows.2 with
        | acknowledgement id filters => cases hnotifies.2
        | unstamped hnone =>
            have hid := hnotifies.1
            rw [ForSubscription, hnone] at hid
            cases hid
        | notification hheard hid =>
            obtain rfl := hnotifies.1.unique hid
            exact hq hheard
        | closeResponse hdrained => exact hnotifies
      · show ¬ heardAfter q.heard a r key
        unfold heardAfter
        split
        · exact not_or.mpr ⟨hq, hr⟩
        · exact not_or.mpr ⟨hq, hr⟩
        · exact hq

/-- Only the listen request itself records its subscription. -/
theorem recorded_of_keepsFrame {f : Frame} {q : Entitled} {p : Proc N Unit}
    (h : KeepsFrame f q p) (hf : f.role.listens ≠ some key) : Recorded key p := by
  induction p generalizing q with
  | ret a => trivial
  | call a k ih =>
      obtain ⟨hallows, hk⟩ := h
      refine ⟨?_, fun r _ => ih r (hk r)⟩
      rintro (⟨agreed, rfl⟩ | ⟨ext, notifications, declared, rfl⟩)
      · exact hf hallows.2
      · exact hf hallows.2

/-! ## Forgotten subscriptions -/

/-- Neither the registry nor the tasks extension knows the subscription. -/
structure Shared.Forgot (s : Shared) (key : SubscriptionKey) : Prop where
  subscriptions : key ∉ s.subscriptions.keys
  taskSubs : ∀ taskId, ∀ sub ∈ s.taskSubs.subscribers taskId, Subscriber.key sub ≠ key

/-- What is forgotten is not told. -/
theorem Shared.Forgot.not_tells {n : Nat} {c : Choice N} {s s' : Shared} {a : Section}
    {r : Reply N a} (hs : s.Forgot key) (h : runSection n c s a = .answer r s') :
    ¬ a.tells key r := by
  unfold Section.tells
  split
  · cases h
    exact fun hkey => hs.subscriptions (Subscriptions.mem_keys_of_mem_targets hkey)
  · cases h
    rintro ⟨sub, hsub, hkey⟩
    exact hs.taskSubs _ sub hsub hkey
  · exact id

theorem mem_subscribers_onSubscribe {subs : TaskSubscriptions} {connection : String}
    {id : RequestId} {notifications : Value} {declared : Bool} {taskId : String} {sub : Subscriber}
    (h : sub ∈ (onSubscribe subs connection id notifications declared).1.subscribers taskId) :
    sub ∈ subs.subscribers taskId ∨ sub = ⟨connection, id⟩ := by
  unfold onSubscribe at h
  split at h
  · exact Or.inl h
  · split at h
    · rw [TaskSubscriptions.mem_subscribers_subscribe] at h
      exact h.imp_right And.left
    · exact Or.inl h

/-- Only recording it brings a subscription back. -/
theorem Shared.Forgot.after {n : Nat} {c : Choice N} {s s' : Shared} {a : Section}
    {r : Reply N a} (hs : s.Forgot key) (h : runSection n c s a = .answer r s')
    (ha : ¬ a.records key) : s'.Forgot key := by
  have hran := ran_of_answer h
  constructor
  · rw [hran.subscriptions]
    unfold Section.subscriptionsAfter
    split
    · rename_i connection id agreed
      rw [Dict.mem_keys_insert, not_or]
      refine ⟨?_, hs.subscriptions⟩
      rintro rfl
      exact ha (Or.inl ⟨agreed, rfl⟩)
    · rw [Dict.mem_keys_remove]
      exact fun h => hs.subscriptions h.2
    · exact List.not_mem_nil
    · exact hs.subscriptions
  · intro taskId sub hsub
    rw [hran.taskSubs] at hsub
    unfold Section.taskSubsAfter at hsub
    split at hsub
    · rename_i ext connection id notifications declared
      split at hsub
      · rcases mem_subscribers_onSubscribe hsub with hsub | rfl
        · exact hs.taskSubs taskId sub hsub
        · rintro rfl
          exact ha (Or.inr ⟨ext, notifications, declared, rfl⟩)
      · exact hs.taskSubs taskId sub hsub
    · rw [TaskSubscriptions.mem_subscribers_dropConnection] at hsub
      exact hs.taskSubs taskId sub hsub.1
    · exact hs.taskSubs taskId sub hsub

/-! ## Closing -/

/-- The task's next section closes the subscription: the one that takes it out
for a cancellation of it, or that answers it. -/
def Closes (key : SubscriptionKey) (P : Server N) (n : Nat) : Prop :=
  ∃ f a k, P.born[n]? = some f ∧ P.threads.get n = some (.call a k) ∧
    (f.role.cancels = some key ∧ a = .effect (.subscriptionRemove key.1 key.2) ∨
      a = .effect (.send key.1 (closeResponse key.2)))

/-- **The condition**: when it is closed, the task subscriptions have no entry
for it, no task is still to record it, and, where it is answered, it has not
been recorded anew since it was drained. -/
structure Closable (key : SubscriptionKey) (P : Server N) (n : Nat) : Prop where
  unlisted : ∀ taskId, ∀ sub ∈ P.shared.taskSubs.subscribers taskId, Subscriber.key sub ≠ key
  recorded : ∀ m p, P.threads.get m = some p → Recorded key p
  drained : ∀ k, P.threads.get n = some (.call (.effect (.send key.1 (closeResponse key.2))) k) →
    key ∉ P.shared.subscriptions.keys

/-- No later listen request has the subscription's id. -/
def NotReused (key : SubscriptionKey) : Act Frame (Choice N) → Prop
  | .spawn f => f.role.listens ≠ some key
  | .run _ _ => True

/-- What holds from the closing on: `early` tasks had been told of the
subscription by then, and only they notify it. -/
structure Closed (key : SubscriptionKey) (early : Nat → Prop) (log : List Event)
    (P : Server N) : Prop where
  forgot : P.shared.Forgot key
  tasks : Threads (fun _ n _ p => Recorded key p ∧ (early n ∨ Silent key p)) P
  log : ∃ later, P.shared.log = log ++ later ∧
    ∀ n m, .sent n key.1 m ∈ later → Notifies key m → early n

theorem closed_step {P P' : Server N} {a : Act Frame (Choice N)} {early : Nat → Prop}
    {log : List Event} (h : (server d rfc3339).Step P a P') (hG : NotReused key a)
    (hP : Closed key early log P) : Closed key early log P' := by
  have htask {n : Nat} {p : Proc N Unit} (hget : P.threads.get n = some p) :
      Recorded key p ∧ (early n ∨ Silent key p) := by
    obtain ⟨-, -, hJ⟩ := hP.tasks n p hget
    exact hJ
  refine ⟨?_, ?_, ?_⟩
  · refine shared_step h (I := fun s => s.Forgot key) hP.forgot
      (fun s b hs => ⟨hs.subscriptions, hs.taskSubs⟩) ?_
    intro n c e k r s _ hget hx
    exact hP.forgot.after hx (htask hget).1.1
  · refine threads_step h hP.tasks ?_ ?_ ?_ ?_
    · rintro f rfl
      exact ⟨recorded_of_keepsFrame (keepsFrame_startFrame d rfc3339 f) hG,
        Or.inr (silent_of_keeps (keeps_startFrame d rfc3339 f) id)⟩
    · intro s b n f p hJ
      exact hJ
    · rintro n f c e k r s - - - ⟨hrecorded, hsilent⟩ hx
      refine ⟨hrecorded.2 r trivial, hsilent.imp_right fun hsilent => hsilent.2 r ?_⟩
      exact hP.forgot.not_tells hx
    · intro n c e k r s m f p _ _ _ _ _ _ hJ
      exact hJ
  · refine shared_step h (I := fun s => ∃ later, s.log = log ++ later ∧
      ∀ n m, .sent n key.1 m ∈ later → Notifies key m → early n) hP.log (fun s b hs => hs) ?_
    intro n c e k r s _ hget hx
    obtain ⟨later, hlog, hlater⟩ := hP.log
    refine ⟨later ++ e.events n c P.shared, ?_, fun m msg hmem hnotifies => ?_⟩
    · rw [(ran_of_answer hx).log, hlog, List.append_assoc]
    · rcases List.mem_append.mp hmem with hmem | hmem
      · exact hlater m msg hmem hnotifies
      · obtain ⟨rfl, rfl⟩ := sent_mem_events hmem
        rcases (htask hget).2 with hearly | hsilent
        · exact hearly
        · exact absurd ⟨msg, rfl, hnotifies⟩ hsilent.1

/-- **The closing itself** leaves the subscription forgotten. -/
theorem closed_of_closes {P P₁ : Server N} {n : Nat} {c : Choice N}
    (h : (server d rfc3339).Step P (.run n c) P₁) (hP : Orderly P) (hcloses : Closes key P n)
    (hG : Closable key P n) :
    Closed key (fun m => ∃ p, P₁.threads.get m = some p ∧ ¬ Silent key p) P₁.shared.log P₁ := by
  obtain ⟨f, a, k, -, hget, hclosing⟩ := hcloses
  refine ⟨?_, fun m p hm => ?_, [], (List.append_nil _).symm, nofun⟩
  · have hforgot : ∀ r s, runSection n c P.shared a = .answer r s → s.Forgot key := by
      intro r s hx
      have hran := ran_of_answer hx
      rcases hclosing with ⟨-, rfl⟩ | rfl
      · refine ⟨?_, ?_⟩
        · rw [hran.subscriptions, Section.subscriptionsAfter, Dict.mem_keys_remove]
          exact fun h => h.1 rfl
        · rw [hran.taskSubs]
          exact hG.unlisted
      · refine ⟨?_, ?_⟩
        · rw [hran.subscriptions]
          exact hG.drained k hget
        · rw [hran.taskSubs]
          exact hG.unlisted
    cases h.stepped with
    | finish hget' =>
        rw [hget] at hget'
        cases hget'
    | answer hget' hx =>
        rw [hget] at hget'
        cases hget'
        exact hforgot _ _ hx
    | panic hget' hx =>
        rw [hget] at hget'
        cases hget'
        rcases panicked hx with ⟨-, hroutes, -⟩ | ⟨-, ⟨sid, uri, rfl, -⟩, -⟩
        · rcases hclosing with ⟨-, rfl⟩ | rfl <;> cases hroutes
        · rcases hclosing with ⟨-, h⟩ | h <;> cases h
  · obtain ⟨f, hf, -⟩ := orderly_step h hP m p hm
    refine ⟨f, hf, ?_, ?_⟩
    · cases h.stepped with
      | finish hget' =>
          rw [hget] at hget'
          cases hget'
      | answer hget' hx =>
          rw [hget] at hget'
          cases hget'
          rw [Pool.get_resumed] at hm
          split at hm
          · cases hm
            exact (hG.recorded n _ hget).2 _ trivial
          · exact hG.recorded m p hm
      | panic hget' hx =>
          rw [Pool.get_ended] at hm
          split at hm
          · cases hm
          · exact hG.recorded m p hm
    · by_cases hsilent : Silent key p
      · exact Or.inr hsilent
      · exact Or.inl ⟨p, hm, hsilent⟩

/-- **A closed subscription stays silent**: when it is closed under the
condition and its id is not used again, only tasks that had been told of it by
then notify it any more.  So no later publication or push does, and where no
task had been told of it, nothing does. -/
theorem closed_stays_silent (d : VersionDispatcher N) (rfc3339 : Nat → String)
    (sessions : SessionStore) (taskCapacity : Nat) (key : SubscriptionKey)
    {tr₁ tr₂ : List (Act Frame (Choice N) × Server N)} {n : Nat} {c : Choice N} {P₁ : Server N}
    (hrun₁ : Run (server d rfc3339).Step (Pool.init (Shared.init sessions taskCapacity)) tr₁)
    (hstep : (server d rfc3339).Step (final (Pool.init (Shared.init sessions taskCapacity)) tr₁)
      (.run n c) P₁)
    (hrun₂ : Run (server d rfc3339).Step P₁ tr₂)
    (hcloses : Closes key (final (Pool.init (Shared.init sessions taskCapacity)) tr₁) n)
    (hclosable : Closable key (final (Pool.init (Shared.init sessions taskCapacity)) tr₁) n)
    (hfresh : ∀ x ∈ steps P₁ tr₂, NotReused key x.2.1) :
    ∀ P ∈ states P₁ tr₂, ∃ later, P.shared.log = P₁.shared.log ++ later ∧
      (∀ n m, .sent n key.1 m ∈ later → Notifies key m →
        ∃ p, P₁.threads.get n = some p ∧ ¬ Silent key p) ∧
      ((∀ n p, P₁.threads.get n = some p → Silent key p) →
        ∀ n m, .sent n key.1 m ∈ later → ¬ Notifies key m) := by
  intro P hP
  have horderly : Orderly (final (Pool.init (Shared.init sessions taskCapacity)) tr₁) :=
    hrun₁.invariant (orderly_init _) (fun _ _ _ h hP => orderly_step h hP) _
      (final_mem_states _ _)
  have hclosed := closed_of_closes hstep horderly hcloses hclosable
  have hP := hrun₂.invariant_of_guard hfresh hclosed
    (fun _ _ _ h hG hP => closed_step h hG hP) P hP
  obtain ⟨later, hlog, hlater⟩ := hP.log
  refine ⟨later, hlog, hlater, fun hsilent n m hmem hnotifies => ?_⟩
  obtain ⟨p, hget, hp⟩ := hlater n m hmem hnotifies
  exact hp (hsilent n p hget)

/-! ## A cancelled subscription to a task's status -/

/-- A cancellation of request 7 on connection `c`. -/
def cancelSeven : JsonRpcMessage :=
  .notification
    { method := methods.cancelled
      params := some (.object
        [("requestId", .int 7), ("_meta", .object [(Meta.internal.connectionId, .string "c")])]) }

/-- A listen request is handled, and a cancellation of it up to where the
registry's entry is removed. -/
def beforeRemoval (taskIds : List String) : List (Act Frame (Choice Unit)) :=
  listening taskIds ++ List.replicate 8 (.run 2 (.declined "")) ++
    [.spawn (.message cancelSeven), .run 3 (.declined "")]

/-- A computed `Closes`, for a cancellation. -/
def cancelling (key : SubscriptionKey) (P : Server N) (n : Nat) : Bool :=
  match P.born[n]?, P.threads.get n with
  | some f, some (.call (.effect (.subscriptionRemove connection id)) _) =>
      f.role.cancels = some key ∧ (connection, id) = key
  | _, _ => false

theorem closes_of_cancelling {P : Server N} {n : Nat} (h : cancelling key P n = true) :
    Closes key P n := by
  unfold cancelling at h
  split at h
  · rename_i f connection id k hf hget
    obtain ⟨hcancels, rfl⟩ := of_decide_eq_true h
    exact ⟨f, _, k, hf, hget, Or.inl ⟨hcancels, rfl⟩⟩
  · cases h

/-- A notification of the subscription by a task numbered `n` or higher. -/
def notified (key : SubscriptionKey) (n : Nat) (log : List Event) : Bool :=
  log.any fun
    | .sent m connection msg => n ≤ m ∧ connection = key.1 ∧ Notifies key msg
    | _ => false

/-- **A push after the cancellation**: the task completes once the cancellation
has been handled, and its status is still enqueued for the stream. -/
theorem cancelled_subscription_notified :
    ∃ tr₁ tr₂ P₁, Run (server taskServer fun _ => "").Step
        (Pool.init (Shared.init (SessionStore.withCapacity 8) 8)) tr₁ ∧
      Closes ("c", .number 7)
        (final (Pool.init (Shared.init (SessionStore.withCapacity 8) 8)) tr₁) 3 ∧
      (server taskServer fun _ => "").Step
        (final (Pool.init (Shared.init (SessionStore.withCapacity 8) 8)) tr₁)
        (.run 3 (.declined "")) P₁ ∧
      Run (server taskServer fun _ => "").Step P₁ tr₂ ∧
      ∃ n m, P₁.next ≤ n ∧ .sent n "c" m ∈ (final P₁ tr₂).shared.log ∧
        Notifies ("c", .number 7) m := by
  have hrun : ((reach (server taskServer fun _ => "").step
      (Pool.init (Shared.init (SessionStore.withCapacity 8) 8)) (beforeRemoval ["t"])).bind
        fun P => ((server taskServer fun _ => "").step P (.run 3 (.declined ""))).bind
          fun P₁ => (reach (server taskServer fun _ => "").step P₁
            (.spawn (.completeTask "t" (.completed .null)) ::
              List.replicate 5 (.run 4 (.declined "")))).map
            fun P' => (cancelling ("c", .number 7) P 3,
              notified ("c", .number 7) P₁.next P'.shared.log)) = some (true, true) := by
    decide +kernel
  obtain ⟨P, hreach, hrun⟩ := Option.bind_eq_some_iff.mp hrun
  obtain ⟨P₁, hstep, hrun⟩ := Option.bind_eq_some_iff.mp hrun
  obtain ⟨P', hreach', hP⟩ := Option.map_eq_some_iff.mp hrun
  rw [Prod.mk.injEq] at hP
  obtain ⟨tr₁, hrun₁, rfl, -⟩ := exists_run_to hreach
  obtain ⟨tr₂, hrun₂, rfl, -⟩ := exists_run_to hreach'
  refine ⟨tr₁, tr₂, P₁, hrun₁, closes_of_cancelling hP.1, hstep, hrun₂, ?_⟩
  obtain ⟨e, he, hnotified⟩ := List.any_eq_true.mp hP.2
  split at hnotified
  · obtain ⟨hn, rfl, hm⟩ := of_decide_eq_true hnotified
    exact ⟨_, _, hn, he, hm⟩
  · cases hnotified

/-- No live task was started by a listen request with the subscription's id, and
no task subscription is for it. -/
def unrecorded (key : SubscriptionKey) (P : Server N) : Bool :=
  P.threads.keys.all (fun n => (P.born[n]?).all fun f => f.role.listens ≠ some key) &&
    P.shared.taskSubs.entries.all fun e => e.2.all fun sub => Subscriber.key sub ≠ key

theorem closable_of_unrecorded {P : Server N} {n : Nat} (hP : InRole P)
    (hclosing : cancelling key P n = true) (h : unrecorded key P = true) :
    Closable key P n := by
  unfold unrecorded at h
  rw [Bool.and_eq_true, List.all_eq_true, List.all_eq_true] at h
  refine ⟨fun taskId sub hsub => ?_, fun m p hget => ?_, fun k hget => ?_⟩
  · unfold TaskSubscriptions.subscribers at hsub
    cases htask : P.shared.taskSubs.get taskId with
    | none =>
        rw [htask] at hsub
        cases hsub
    | some list =>
        rw [htask] at hsub
        have := h.2 _ ((Dict.get_eq_some_iff ..).mp htask)
        rw [List.all_eq_true] at this
        exact of_decide_eq_true (this sub hsub)
  · obtain ⟨f, hf, q, hq⟩ := hP m p hget
    have hkey : m ∈ P.threads.keys := by
      rw [Dict.mem_keys, hget]
      rfl
    have := h.1 m hkey
    rw [hf, Option.all_some] at this
    exact recorded_of_keepsFrame hq (of_decide_eq_true this)
  · simp only [cancelling, hget] at hclosing
    split at hclosing
    · rename_i heq
      cases heq
    · cases hclosing

/-- A cancelled subscription to list changes is not notified of one that comes
after. -/
theorem cancelled_subscription_silent :
    ∃ tr₁ tr₂ P₁, Run (server taskServer fun _ => "").Step
        (Pool.init (Shared.init (SessionStore.withCapacity 8) 8)) tr₁ ∧
      (server taskServer fun _ => "").Step
        (final (Pool.init (Shared.init (SessionStore.withCapacity 8) 8)) tr₁)
        (.run 3 (.declined "")) P₁ ∧
      Run (server taskServer fun _ => "").Step P₁ tr₂ ∧
      Frame.listChanged .tools ∈ (final P₁ tr₂).born ∧
      ∃ later, (final P₁ tr₂).shared.log = P₁.shared.log ++ later ∧
        ∀ n m, .sent n "c" m ∈ later → Notifies ("c", .number 7) m →
          ∃ p, P₁.threads.get n = some p ∧ ¬ Silent ("c", .number 7) p := by
  have hrun : ((reach (server taskServer fun _ => "").step
      (Pool.init (Shared.init (SessionStore.withCapacity 8) 8)) (beforeRemoval [])).bind
        fun P => ((server taskServer fun _ => "").step P (.run 3 (.declined ""))).bind
          fun P₁ => (reach (server taskServer fun _ => "").step P₁
            (.spawn (.listChanged .tools) :: List.replicate 4 (.run 4 (.declined "")))).map
            fun P' => (cancelling ("c", .number 7) P 3, unrecorded ("c", .number 7) P,
              P'.born.contains (.listChanged .tools))) = some (true, true, true) := by
    decide +kernel
  obtain ⟨P, hreach, hrun⟩ := Option.bind_eq_some_iff.mp hrun
  obtain ⟨P₁, hstep, hrun⟩ := Option.bind_eq_some_iff.mp hrun
  obtain ⟨P', hreach', hP⟩ := Option.map_eq_some_iff.mp hrun
  rw [Prod.mk.injEq, Prod.mk.injEq] at hP
  obtain ⟨tr₁, hrun₁, rfl, -⟩ := exists_run_to hreach
  obtain ⟨tr₂, hrun₂, rfl, hlabels⟩ := exists_run_to hreach'
  have hrole : InRole (final (Pool.init (Shared.init (SessionStore.withCapacity 8) 8)) tr₁) :=
    hrun₁.invariant nofun (fun _ _ _ h hP => inRole_step h hP) _ (final_mem_states _ _)
  have hfresh : ∀ x ∈ steps P₁ tr₂, NotReused ("c", .number 7) x.2.1 := by
    intro x hx
    rcases List.mem_cons.mp (hlabels x hx) with hx | hx
    · rw [hx]
      exact nofun
    · rw [(List.mem_replicate.mp hx).2]
      trivial
  obtain ⟨later, hlog, hlater, -⟩ :=
    closed_stays_silent taskServer (fun _ => "") _ _ ("c", .number 7) hrun₁ hstep hrun₂
      (closes_of_cancelling hP.1) (closable_of_unrecorded hrole hP.1 hP.2.1) hfresh
      _ (final_mem_states _ _)
  exact ⟨tr₁, tr₂, P₁, hrun₁, hstep, hrun₂, by simpa using hP.2.2, later, hlog, hlater⟩

end TurboMcp.System
