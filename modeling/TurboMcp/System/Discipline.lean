import TurboMcp.Server.Discipline
import TurboMcp.System.Server

/-!
# The discipline of the server's tasks

Every task of the server keeps to one protocol, whatever it is answered: it
inserts a URI right after touching the route, it sends a subscription's
notification after hearing of the subscription, it closes the streams it has
drained, each at most once, and it ends with nothing left to tear down or close.
-/

namespace TurboMcp.System

open TurboMcp.Core TurboMcp.Lib TurboMcp.Server TurboMcp.ExtTasks TurboMcp.Service

variable {N : Type}

/-- What a task has learned. -/
structure Known extends Held where
  /-- The session whose route the last section touched. -/
  touched : Option String
  /-- The subscriptions it was told to notify. -/
  heard : SubscriptionKey → Prop
  /-- The drained subscriptions it may answer. -/
  drained : List SubscriptionKey
  /-- Those it has yet to answer, or find gone. -/
  due : SubscriptionKey → Prop

def Known.none : Known := ⟨Held.none, .none, fun _ => False, [], fun _ => False⟩

/-- The subscription a subscriber of a task's status stands for. -/
def Subscriber.key (s : Subscriber) : SubscriptionKey := (s.connection, s.subscriptionId)

/-- What may be sent on a connection's writer. -/
inductive Known.MaySend (q : Known) (connection : String) : JsonRpcMessage → Prop
  | acknowledgement (id : RequestId) (filters : Map) :
      MaySend q connection (acknowledgement id filters)
  | unstamped {n : JsonRpcNotification} (h : subscriptionOf (.notification n) = .none) :
      MaySend q connection (.notification n)
  | notification {id : RequestId} {n : JsonRpcNotification} (h : q.heard (connection, id))
      (hid : ForSubscription id (.notification n)) : MaySend q connection (.notification n)
  | closeResponse {id : RequestId} (h : (connection, id) ∈ q.drained) :
      MaySend q connection (closeResponse id)

def sectionAllows (q : Known) : Section → Prop
  | .effect (.send connection msg) => q.Settled ∧ q.MaySend connection msg
  | .effect e => (requestProtocol Unit).allows q.toHeld e
  | .insertUri sid _ => q.touched = some sid
  | _ => True

/-- What an answered section teaches about sessions and acknowledgements. -/
def heldAfter (q : Held) : (a : Section) → Reply N a → Held
  | .effect e, r => (requestProtocol N).after q e r
  | .sessionRemove sid, _ =>
      { q with live := fun s => q.live s ∧ s ≠ sid, owed := fun s => q.owed s ∨ s = sid }
  | _, _ => q

def touchedAfter : Section → Option String
  | .effect (.legacyTouch sid _) => some sid
  | _ => .none

def heardAfter (heard : SubscriptionKey → Prop) : (a : Section) → Reply N a → SubscriptionKey → Prop
  | .targets _, (keys : List SubscriptionKey) => fun key => heard key ∨ key ∈ keys
  | .taskSubscribers _, (subs : List Subscriber) => fun key =>
      heard key ∨ ∃ s ∈ subs, Subscriber.key s = key
  | _, _ => heard

def drainedAfter (drained : List SubscriptionKey) :
    (a : Section) → Reply N a → List SubscriptionKey
  | .drain, (keys : List SubscriptionKey) => drained ++ keys
  | .effect (.send connection msg), _ =>
      drained.eraseP fun key => key.1 = connection ∧ msg = closeResponse key.2
  | _, _ => drained

def dueAfter (due : SubscriptionKey → Prop) : (a : Section) → Reply N a → SubscriptionKey → Prop
  | .drain, (keys : List SubscriptionKey) => fun key => due key ∨ key ∈ keys
  | .effect (.writer connection), (live : Bool) => fun key =>
      due key ∧ (live = false → key.1 ≠ connection)
  | .effect (.send connection msg), _ => fun key =>
      due key ∧ ¬ (key.1 = connection ∧ msg = closeResponse key.2)
  | _, _ => due

def sectionProtocol (N : Type) : Protocol Section (Reply N) Known where
  allows := sectionAllows
  after q a r := ⟨heldAfter q.toHeld a r, touchedAfter a, heardAfter q.heard a r,
    drainedAfter q.drained a r, dueAfter q.due a r⟩

/-- Nothing is left to do. -/
def Known.Done (q : Known) : Prop := q.Settled ∧ ∀ key, ¬ q.due key

theorem Known.done_none : Known.none.Done := ⟨Held.settled_none, fun _ => id⟩

/-- From `q`, `p` keeps to the discipline and leaves nothing undone. -/
abbrev Keeps {α : Type} (q : Known) (p : Proc N α) : Prop :=
  Program.Follows (sectionProtocol N) q p fun q _ => q.Done

/-! ## Requests -/

/-- An effect of the dispatcher, section by section. -/
theorem follows_sections {q : Held} {q' : Known} {e : Effect} (hq : q'.toHeld = q)
    (hdue : ∀ key, ¬ q'.due key) (he : (requestProtocol N).allows q e) :
    Program.Follows (sectionProtocol N) q' (Proc.sections e) fun q' r =>
      q'.toHeld = (requestProtocol N).after q e r ∧ ∀ key, ¬ q'.due key := by
  subst hq
  have hone (hallows : sectionAllows q' (.effect e))
      (hkeeps : ∀ r key, ¬ dueAfter q'.due (.effect e) r key) :
      Program.Follows (sectionProtocol N) q' (Proc.effect e) fun q'' r =>
        q''.toHeld = (requestProtocol N).after q'.toHeld e r ∧ ∀ key, ¬ q''.due key :=
    ⟨hallows, fun r => ⟨rfl, hkeeps r⟩⟩
  cases e
  case legacySubscribe sid connection uri =>
    exact ⟨he, fun _ => ⟨rfl, fun _ => ⟨rfl, hdue⟩⟩⟩
  case inflightCancel connection id =>
    refine ⟨trivial, fun (found : Option Nat) => ?_⟩
    cases found with
    | none => exact ⟨rfl, hdue⟩
    | some token => exact ⟨trivial, fun _ => ⟨rfl, hdue⟩⟩
  case send connection msg =>
    obtain ⟨hsettled, id, filters, rfl⟩ := he
    exact hone ⟨hsettled, .acknowledgement id filters⟩ fun _ key h => hdue key h.1
  case writer connection => exact hone he fun _ key h => hdue key h.1
  all_goals exact hone he fun _ => hdue

theorem keeps_serve (d : VersionDispatcher N) (msg : JsonRpcMessage) :
    Keeps Known.none ((serve d msg).expand Proc.sections) := by
  have h := (disciplined_serve d msg).expand (S := sectionProtocol N)
    (r := fun q q' => q'.toHeld = q ∧ ∀ key, ¬ q'.due key) (t := Known.none)
    (fun q q' e hrel he => follows_sections hrel.1 hrel.2 he) ⟨rfl, fun _ => id⟩
  refine h.mono ?_
  rintro q' - ⟨q, ⟨rfl, hdue⟩, hsettled⟩
  exact ⟨hsettled, hdue⟩

/-! ## Deliveries -/

/-- One delivery to a subscription the task has heard of. -/
theorem follows_sendTo {q : Known} {connection : String} {id : RequestId}
    {n : JsonRpcNotification} (hq : q.Done) (hheard : q.heard (connection, id))
    (hid : ForSubscription id (.notification n)) :
    Program.Follows (sectionProtocol N) q (Proc.sendTo connection (.notification n))
      fun q' _ => q'.Done ∧ q'.heard = q.heard := by
  refine ⟨nofun, fun (live : Bool) => ?_⟩
  have hdone : ((sectionProtocol N).after q (.effect (.writer connection)) live).Done :=
    ⟨hq.1, fun key h => hq.2 key h.1⟩
  cases live with
  | false => exact ⟨hdone, rfl⟩
  | true =>
      refine ⟨⟨hdone.1, .notification hheard hid⟩, fun sent => ⟨⟨hdone.1, ?_⟩, rfl⟩⟩
      exact fun key h => hdone.2 key h.1

/-- **Publishing**: every subscription heard of may be notified, and pruned. -/
theorem keeps_publish {q : Known} (hq : q.Done) (p : Publication) :
    Keeps q (Proc.publish (N := N) p) := by
  refine ⟨trivial, fun (keys : List SubscriptionKey) => ?_⟩
  refine (Proc.follows_sendEach (I := fun ts q => q.Done ∧ ∀ key ∈ ts, q.heard key) ?_ ?_).mono
    fun q _ h => h.1
  · rintro ⟨connection, id⟩ ts q ⟨hq, hheard⟩
    rw [List.forall_mem_cons] at hheard
    refine (follows_sendTo hq hheard.1 (forSubscription_notification p id)).mono ?_
    rintro q' sent ⟨hq', hheard'⟩
    have hI : q'.Done ∧ ∀ key ∈ ts, q'.heard key :=
      ⟨hq', fun key hkey => by rw [hheard']; exact hheard.2 key hkey⟩
    cases sent with
    | true => exact hI
    | false => exact ⟨nofun, fun _ => hI⟩
  · exact ⟨hq, fun key hkey => Or.inr hkey⟩

theorem follows_legacyWriter {q : Known} (hq : q.Done) (session connection : String) :
    Program.Follows (sectionProtocol N) q (Proc.legacyWriter session connection)
      fun q _ => q.Done := by
  have hwriter {q : Known} (hq : q.Done) (c : String) (live : Bool) :
      ((sectionProtocol N).after q (.effect (.writer c)) live).Done :=
    ⟨hq.1, fun key h => hq.2 key h.1⟩
  refine ⟨nofun, fun (stream : Bool) => ?_⟩
  cases stream with
  | true => exact hwriter hq _ _
  | false =>
      show Program.Follows _ _ (if connection = "" then _ else _) _
      split
      · exact hwriter hq _ _
      · exact ⟨nofun, fun live => hwriter (hwriter hq _ _) _ _⟩

theorem keeps_publishLegacy {q : Known} (hq : q.Done) (p : Publication) :
    Keeps q (Proc.publishLegacy (N := N) p) := by
  refine ⟨trivial, fun (routes : List (String × String)) => ?_⟩
  have hloop (routes : List (String × String)) {q : Known} (hq : q.Done) :
      Keeps q (Proc.sendLegacy (N := N) p.legacyNotification routes) := by
    induction routes generalizing q with
    | nil => exact hq
    | cons route routes ih =>
        obtain ⟨session, connection⟩ := route
        refine (follows_legacyWriter hq session connection).seq fun q writer hq => ?_
        cases writer with
        | none => exact ih hq
        | some writer =>
            refine ⟨⟨hq.1, .unstamped (subscription_legacyNotification p)⟩, fun _ => ih ⟨hq.1, ?_⟩⟩
            exact fun key h => hq.2 key h.1
  exact hloop routes hq

theorem keeps_publishAll {q : Known} (hq : q.Done) (p : Publication) :
    Keeps q (Proc.publishAll (N := N) p) :=
  (keeps_publish hq p).seq fun _ _ hq => keeps_publishLegacy hq p

theorem keeps_scheduleListChanged (kind : ListChangedKind) :
    Keeps Known.none (Proc.scheduleListChanged (N := N) kind) := by
  refine ⟨trivial, fun (scheduled : Bool) => ?_⟩
  cases scheduled with
  | true => exact Known.done_none
  | false => exact ⟨trivial, fun _ => keeps_publishAll Known.done_none _⟩

/-- Sending a close response uses up one permission to. -/
theorem drainedAfter_closeResponse (drained : List SubscriptionKey) (connection : String)
    (id : RequestId) (r : Bool) :
    drainedAfter (N := N) drained (.effect (.send connection (closeResponse id))) r =
      drained.erase (connection, id) := by
  show drained.eraseP _ = _
  rw [List.erase_eq_eraseP]
  congr 1
  funext key
  obtain ⟨c, i⟩ := key
  rw [Bool.eq_iff_iff, decide_eq_true_eq, beq_iff_eq, Prod.mk.injEq]
  constructor
  · rintro ⟨rfl, h⟩
    exact ⟨rfl, closeResponse_injective h⟩
  · rintro ⟨rfl, rfl⟩
    exact ⟨rfl, rfl⟩

/-- **Closing**: every drained subscription is answered, or its connection is
gone. -/
theorem keeps_closeAll : Keeps Known.none (Proc.closeAll (N := N)) := by
  refine ⟨trivial, fun (keys : List SubscriptionKey) => ?_⟩
  refine (Proc.follows_sendEach (I := fun ts q => q.Settled ∧
    (∀ key, ts.count key ≤ q.drained.count key) ∧ ∀ key, q.due key → key ∈ ts) ?_
      ⟨Held.settled_none, ?_, ?_⟩).mono fun q _ h =>
        ⟨h.1, fun key hkey => List.not_mem_nil (h.2.2 key hkey)⟩
  · rintro ⟨connection, id⟩ ts q ⟨hq, hcount, hdue⟩
    refine ⟨nofun, fun (live : Bool) => ?_⟩
    cases live with
    | false =>
        refine ⟨hq, fun key => ?_, fun key h => ?_⟩
        · exact Nat.le_trans (List.count_le_count_cons ..) (hcount key)
        · have hne : key.1 ≠ connection := h.2 rfl
          have := hdue key h.1
          rw [List.mem_cons] at this
          rcases this with rfl | this
          · exact absurd rfl hne
          · exact this
    | true =>
        have hmem : (connection, id) ∈ q.drained := by
          rw [← List.count_pos_iff]
          refine Nat.lt_of_lt_of_le ?_ (hcount (connection, id))
          rw [List.count_cons_self]
          exact Nat.succ_pos _
        refine ⟨⟨hq, .closeResponse hmem⟩, fun (sent : Bool) => ?_⟩
        have hI : ∀ q' : Known, q'.Settled →
            q'.drained = q.drained.erase (connection, id) →
            (∀ key, q'.due key → q.due key ∧ key ≠ (connection, id)) →
            q'.Settled ∧ (∀ key, ts.count key ≤ q'.drained.count key) ∧
              ∀ key, q'.due key → key ∈ ts := by
          intro q' hq' hdrained hdue'
          refine ⟨hq', fun key => ?_, fun key h => ?_⟩
          · have := hcount key
            rw [hdrained, List.count_erase]
            rw [List.count_cons] at this
            omega
          · obtain ⟨h, hne⟩ := hdue' key h
            have := hdue key h
            rw [List.mem_cons] at this
            exact this.resolve_left hne
        have hafter := hI ((sectionProtocol N).after
          ((sectionProtocol N).after q (.effect (.writer connection)) true)
          (.effect (.send connection (closeResponse id))) sent) hq
          (drainedAfter_closeResponse (N := N) q.drained connection id sent) (by
            rintro key ⟨⟨h, -⟩, hne⟩
            refine ⟨h, ?_⟩
            rintro rfl
            exact hne ⟨rfl, rfl⟩)
        cases sent with
        | true => exact hafter
        | false => exact hafter
  · intro key
    exact Nat.le_refl _
  · rintro key (h | h)
    · exact absurd h id
    · exact h

/-! ## Tasks -/

/-- No field of a task is called `_meta`. -/
theorem get_meta_notificationParams (rfc3339 : Nat → String) (detailed : DetailedTask) :
    Map.get (notificationParams rfc3339 detailed) "_meta" = none := by
  obtain ⟨⟨taskId, status, message, created, updated, ttl, poll⟩, requests, result, error⟩ :=
    detailed
  cases message <;> cases poll <;> cases requests <;> cases result <;> cases error <;>
    simp [notificationParams, Task.fields, Map.get]

theorem forSubscription_statusNotification (rfc3339 : Nat → String) (detailed : DetailedTask)
    (s : Subscriber) :
    ForSubscription s.subscriptionId (Proc.statusNotification rfc3339 detailed s) := by
  unfold ForSubscription Proc.statusNotification Proc.stampSubscriptionId
  rw [get_meta_notificationParams]
  simp only [subscriptionOf, Meta.metaObject, Option.bind_some]
  show ((Map.get (Map.insert _ "_meta" _) "_meta").bind Value.asObject).bind _ = _
  rw [Map.get_insert_self]
  simp [Value.asObject, Map.get]

/-- **Pushing**: each subscriber heard of may be notified, and dropped. -/
theorem keeps_pushStatus {q : Known} (hq : q.Done) (rfc3339 : Nat → String) (taskId : String) :
    Keeps q (Proc.pushStatus (N := N) rfc3339 taskId) := by
  refine ⟨trivial, fun (subs : List Subscriber) => ?_⟩
  show Program.Follows _ _ (if subs.isEmpty = true then _ else _) _
  split
  · exact hq
  · refine ⟨trivial, fun (detailed : Option DetailedTask) => ?_⟩
    cases detailed with
    | none => exact hq
    | some detailed =>
        refine (Proc.follows_sendEach (I := fun ts q => q.Done ∧ ∀ s ∈ ts, q.heard (Subscriber.key s))
          ?_ ?_).mono fun q _ h => h.1
        · rintro s ts q ⟨hq, hheard⟩
          rw [List.forall_mem_cons] at hheard
          refine (follows_sendTo hq hheard.1 (forSubscription_statusNotification _ detailed s)).mono ?_
          rintro q' sent ⟨hq', hheard'⟩
          have hI : q'.Done ∧ ∀ s ∈ ts, q'.heard (Subscriber.key s) :=
            ⟨hq', fun s hs => by rw [hheard']; exact hheard.2 s hs⟩
          cases sent with
          | true => exact hI
          | false => exact ⟨trivial, fun _ => hI⟩
        · exact ⟨hq, fun s hs => Or.inr ⟨s, hs, rfl⟩⟩

/-! ## Frames -/

/-- **Every task of the server keeps to the discipline.** -/
theorem keeps_startFrame (d : VersionDispatcher N) (rfc3339 : Nat → String) (f : Frame) :
    Keeps Known.none (startFrame d rfc3339 f) := by
  have htell (a : Section) (ha : ∀ q, sectionAllows q a)
      (hdone : ∀ r, ((sectionProtocol N).after Known.none a r).Done) :
      Keeps Known.none (Proc.tell (N := N) a) := ⟨ha _, hdone⟩
  have hpush (taskId : String) := keeps_pushStatus (N := N) Known.done_none rfc3339 taskId
  cases f with
  | message msg => exact keeps_serve d msg
  | delete session =>
      refine ⟨trivial, fun _ => ⟨nofun, fun _ => ⟨?_, fun _ => id⟩⟩⟩
      rintro sid ⟨h | h, hne⟩
      · exact h
      · exact hne h
  | listChanged kind => exact keeps_scheduleListChanged kind
  | resourceUpdated uri => exact keeps_publishAll Known.done_none _
  | closeSubscriptions => exact keeps_closeAll
  | createTask ttl poll => exact htell _ (fun _ => trivial) fun _ => Known.done_none
  | obtainInput taskId key request =>
      refine ⟨trivial, fun (rx : Option Channel) => ?_⟩
      cases rx with
      | none => exact Known.done_none
      | some _ => exact hpush taskId
  | completeTask taskId outcome => exact ⟨trivial, fun _ => hpush taskId⟩
  | getTask taskId => exact htell _ (fun _ => trivial) fun _ => Known.done_none
  | cancelTask taskId =>
      refine ⟨trivial, fun (known : Bool) => ?_⟩
      cases known with
      | false => exact Known.done_none
      | true => exact hpush taskId
  | updateTask taskId responses =>
      refine ⟨trivial, fun (changed : Option Bool) => ?_⟩
      show Program.Follows _ _ (if changed = some true then _ else _) _
      split
      · exact hpush taskId
      · exact Known.done_none
  | connect => exact htell _ (fun _ => trivial) fun _ => Known.done_none
  | openStream session => exact htell _ (fun _ => trivial) fun _ => Known.done_none
  | disconnect connection => exact htell _ (fun _ => trivial) fun _ => Known.done_none
  | closeReceiver connection => exact htell _ (fun _ => trivial) fun _ => Known.done_none

/-! ## Runs -/

/-- Every live task goes on keeping to the discipline. -/
def Orderly (P : Server N) : Prop := Threads (fun _ _ _ p => ∃ q, Keeps q p) P

theorem orderly_init (s : Shared) : Orderly (Pool.init s : Server N) := nofun

theorem orderly_step {d : VersionDispatcher N} {rfc3339 : Nat → String} {P P' : Server N}
    {a : Act Frame (Choice N)} (h : (server d rfc3339).Step P a P') (hP : Orderly P) :
    Orderly P' := by
  refine threads_step h hP ?_ ?_ ?_ ?_
  · intro f _
    exact ⟨Known.none, keeps_startFrame d rfc3339 f⟩
  · intro s b n f p hJ
    exact hJ
  · rintro n f c e k r s _ _ _ ⟨q, hq⟩ _
    exact ⟨_, hq.2 r⟩
  · intro n c e k r s m f p _ _ _ _ _ _ hJ
    exact hJ

theorem Orderly.keeps {P : Server N} (hP : Orderly P) {n : Nat} {p : Proc N Unit}
    (hget : P.threads.get n = some p) : ∃ q, Keeps q p := by
  obtain ⟨-, -, hq⟩ := hP n p hget
  exact hq

end TurboMcp.System
