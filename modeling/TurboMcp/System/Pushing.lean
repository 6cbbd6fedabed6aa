import TurboMcp.System.Streams

/-!
# Pushing a task's status

`push_status` reads the subscribers, then the task, then delivers to one
subscriber after another; what is left of it between two sections is one of a
few stages.  Any other task of the server has yet to push: it drops no
connection, enqueues no status, and goes on to push a task right after it may
have changed its status.
-/

namespace TurboMcp.System

open TurboMcp.Core TurboMcp.Lib TurboMcp.Server TurboMcp.ExtTasks

variable {N : Type} {d : VersionDispatcher N} {rfc3339 : Nat → String}

/-! ## Stages -/

/-- Where a push stands between two sections. -/
inductive Stage
  /-- It has yet to read who is subscribed to the task. -/
  | owing (taskId : String)
  /-- It knows, and has yet to read the task. -/
  | told (taskId : String) (subs : List Subscriber)
  /-- It looks up the next subscriber's writer. -/
  | showing (detailed : DetailedTask) (subs : List Subscriber)
  /-- It has found it, and sends. -/
  | found (detailed : DetailedTask) (s : Subscriber) (subs : List Subscriber)
  /-- It has found it gone. -/
  | dropping (detailed : DetailedTask) (s : Subscriber) (subs : List Subscriber)
  | done

/-- Deliver a status to the subscribers that are left. -/
def deliverStatus (rfc3339 : Nat → String) (detailed : DetailedTask) (subs : List Subscriber) :
    Proc N Unit :=
  Proc.sendEach Subscriber.connection (Proc.statusNotification rfc3339 detailed)
    (fun s => Proc.tell (.dropConnection s.connection)) subs

/-- What is left of a push. -/
def Stage.residual (rfc3339 : Nat → String) : Stage → Proc N Unit
  | owing taskId => Proc.pushStatus rfc3339 taskId
  | told taskId subs => Program.call (.task (.get taskId)) fun (detailed : Option DetailedTask) =>
      match detailed with
      | none => Program.ret ()
      | some detailed => deliverStatus rfc3339 detailed subs
  | showing detailed subs => deliverStatus rfc3339 detailed subs
  | found detailed s subs =>
      Program.call (.effect (.send s.connection (Proc.statusNotification rfc3339 detailed s)))
        fun (sent : Bool) =>
          if sent then deliverStatus rfc3339 detailed subs
          else Program.call (.dropConnection s.connection) fun _ =>
            deliverStatus rfc3339 detailed subs
  | dropping detailed s subs =>
      Program.call (.dropConnection s.connection) fun _ => deliverStatus rfc3339 detailed subs
  | done => Program.ret ()

/-- What an answered section makes of a stage. -/
inductive Stage.Moves (rfc3339 : Nat → String) : Stage → (a : Section) → Reply N a → Stage → Prop
  | nobody {taskId : String} :
      Moves rfc3339 (owing taskId) (.taskSubscribers taskId) ([] : List Subscriber) done
  | told {taskId : String} {subs : List Subscriber} (h : subs ≠ []) :
      Moves rfc3339 (owing taskId) (.taskSubscribers taskId) subs (told taskId subs)
  | missing {taskId : String} {subs : List Subscriber} :
      Moves rfc3339 (told taskId subs) (.task (.get taskId)) (none : Option DetailedTask) done
  | read {taskId : String} {subs : List Subscriber} {detailed : DetailedTask} :
      Moves rfc3339 (told taskId subs) (.task (.get taskId)) (some detailed)
        (showing detailed subs)
  | found {detailed : DetailedTask} {s : Subscriber} {subs : List Subscriber} :
      Moves rfc3339 (showing detailed (s :: subs)) (.effect (.writer s.connection)) true
        (found detailed s subs)
  | lost {detailed : DetailedTask} {s : Subscriber} {subs : List Subscriber} :
      Moves rfc3339 (showing detailed (s :: subs)) (.effect (.writer s.connection)) false
        (dropping detailed s subs)
  | sent {detailed : DetailedTask} {s : Subscriber} {subs : List Subscriber} :
      Moves rfc3339 (found detailed s subs)
        (.effect (.send s.connection (Proc.statusNotification rfc3339 detailed s))) true
        (showing detailed subs)
  | refused {detailed : DetailedTask} {s : Subscriber} {subs : List Subscriber} :
      Moves rfc3339 (found detailed s subs)
        (.effect (.send s.connection (Proc.statusNotification rfc3339 detailed s))) false
        (dropping detailed s subs)
  | dropped {detailed : DetailedTask} {s : Subscriber} {subs : List Subscriber} :
      Moves rfc3339 (dropping detailed s subs) (.dropConnection s.connection) ()
        (showing detailed subs)

/-- **A push goes from stage to stage.** -/
theorem Stage.moves {st : Stage} {a : Section} {k : Reply N a → Proc N Unit}
    (h : st.residual rfc3339 = .call a k) (r : Reply N a) :
    ∃ st', st.Moves rfc3339 a r st' ∧ k r = st'.residual rfc3339 := by
  cases st with
  | owing taskId =>
      cases h
      have hsubs (subs : List Subscriber) : ∃ st', (owing taskId).Moves (N := N) rfc3339
          (.taskSubscribers taskId) subs st' ∧
          (if subs.isEmpty = true then Program.ret () else
            (told taskId subs).residual rfc3339) = st'.residual (N := N) rfc3339 := by
        cases subs with
        | nil => exact ⟨_, .nobody, rfl⟩
        | cons s subs => exact ⟨_, .told (List.cons_ne_nil s subs), rfl⟩
      exact hsubs r
  | told taskId subs =>
      cases h
      have hread (detailed : Option DetailedTask) : ∃ st', (told taskId subs).Moves (N := N)
          rfc3339 (.task (.get taskId)) detailed st' ∧
          (match detailed with
            | none => Program.ret ()
            | some detailed => deliverStatus rfc3339 detailed subs) =
            st'.residual (N := N) rfc3339 := by
        cases detailed with
        | none => exact ⟨_, .missing, rfl⟩
        | some detailed => exact ⟨_, .read, rfl⟩
      exact hread r
  | showing detailed subs =>
      cases subs with
      | nil => cases h
      | cons s subs =>
          cases h
          have hlive (live : Bool) : ∃ st', (showing detailed (s :: subs)).Moves (N := N) rfc3339
              (.effect (.writer s.connection)) live st' ∧
              (if live = true then (found detailed s subs).residual rfc3339
                else (dropping detailed s subs).residual rfc3339) =
                  st'.residual (N := N) rfc3339 := by
            cases live with
            | true => exact ⟨_, .found, rfl⟩
            | false => exact ⟨_, .lost, rfl⟩
          obtain ⟨st', hmoves, heq⟩ := hlive r
          refine ⟨st', hmoves, ?_⟩
          rw [← heq]
          cases (r : Bool) <;> rfl
  | found detailed s subs =>
      cases h
      have hsent (sent : Bool) : ∃ st', (found detailed s subs).Moves (N := N) rfc3339
          (.effect (.send s.connection (Proc.statusNotification rfc3339 detailed s))) sent st' ∧
          (if sent = true then deliverStatus rfc3339 detailed subs
            else (dropping detailed s subs).residual rfc3339) =
              st'.residual (N := N) rfc3339 := by
        cases sent with
        | true => exact ⟨_, .sent, rfl⟩
        | false => exact ⟨_, .refused, rfl⟩
      exact hsent r
  | dropping detailed s subs =>
      cases h
      exact ⟨_, .dropped, rfl⟩
  | done => cases h

/-- A push that is not over performs a section that cannot panic. -/
theorem not_panic_of_residual {n : Nat} {c : Choice N} {s s' : Shared} {a : Section}
    {k : Reply N a → Proc N Unit} {st : Stage} (hst : .call a k = st.residual (N := N) rfc3339) :
    runSection n c s a ≠ .panic s' := by
  intro hx
  have hsections : a.onRoutes = false ∧ ∀ sid uri, a ≠ .insertUri sid uri := by
    cases st with
    | owing taskId =>
        cases hst
        exact ⟨rfl, nofun⟩
    | told taskId subs =>
        cases hst
        exact ⟨rfl, nofun⟩
    | showing detailed subs =>
        cases subs with
        | nil => cases hst
        | cons s₀ subs =>
            cases hst
            exact ⟨rfl, nofun⟩
    | found detailed s₀ subs =>
        cases hst
        exact ⟨rfl, nofun⟩
    | dropping detailed s₀ subs =>
        cases hst
        exact ⟨rfl, nofun⟩
    | done => cases hst
  rcases panicked hx with ⟨-, hroutes, -⟩ | ⟨-, ⟨sid, uri, rfl, -⟩, -⟩
  · rw [hsections.1] at hroutes
    cases hroutes
  · exact hsections.2 sid uri rfl

/-! ## Before a push -/

/-- The task whose status the section may have changed, and is then to push. -/
def announced : (a : Section) → Reply N a → Option String
  | .task (.complete taskId _), _ => some taskId
  | .task (.cancel taskId), (known : Bool) => if known then some taskId else none
  | .task (.publishInput taskId _ _), (rx : Option Channel) => rx.map fun _ => taskId
  | .task (.deliverInputs taskId _), (changed : Option Bool) =>
      if changed = some true then some taskId else none
  | _, _ => none

/-- The message is the status of a task. -/
def isStatus : JsonRpcMessage → Bool
  | .notification n => n.method = notificationsTasks
  | _ => false

/-- Only a push reads who is subscribed, drops connections and sends statuses. -/
def Section.ofPush : Section → Prop
  | .taskSubscribers _ | .dropConnection _ => True
  | .effect (.send _ m) => isStatus m = true
  | _ => False

/-- The task pushes nothing but what it has just changed. -/
def Prelude (rfc3339 : Nat → String) : Proc N Unit → Prop
  | .ret _ => True
  | .call a k => ¬ a.ofPush ∧ ∀ r,
      (∀ taskId, announced a r = some taskId → k r = (Stage.owing taskId).residual rfc3339) ∧
        (announced a r = none → Prelude rfc3339 (k r))

/-- No part of a push, and no operation on a task. -/
def Section.Statusless (a : Section) : Prop := ¬ a.ofPush ∧ ∀ op, a ≠ .task op

abbrev Statusless {α : Type} (p : Proc N α) : Prop :=
  Program.wp Section.Statusless (fun _ _ => True) p fun _ => True

theorem announced_of_statusless {a : Section} (ha : a.Statusless) (r : Reply N a) :
    announced a r = none := by
  unfold announced
  split <;> first | exact absurd rfl (ha.2 _) | rfl

theorem prelude_of_statusless {p : Proc N Unit} (h : Statusless p) : Prelude rfc3339 p := by
  induction p with
  | ret a => trivial
  | call a k ih =>
      obtain ⟨ha, hk⟩ := h
      refine ⟨ha.1, fun r => ⟨fun taskId h => ?_, fun _ => ih r (hk r trivial)⟩⟩
      rw [announced_of_statusless ha] at h
      cases h

/-! ### Requests -/

theorem isStatus_acknowledgement (id : RequestId) (filters : Map) :
    isStatus (acknowledgement id filters) = false := rfl

theorem statusless_sections (e : Effect)
    (he : ∀ connection m, e = .send connection m → isStatus m = false) :
    Statusless (Proc.sections (N := N) e) := by
  have hone {a : Section} (ha : a.Statusless) : Statusless (Proc.perform (N := N) a) :=
    ⟨ha, fun _ _ => trivial⟩
  cases e
  case send connection m =>
    refine hone ⟨fun h => ?_, nofun⟩
    rw [Section.ofPush, he connection m rfl] at h
    cases h
  case legacySubscribe session connection uri =>
    exact ⟨⟨id, nofun⟩, fun _ _ => ⟨⟨id, nofun⟩, fun _ _ => trivial⟩⟩
  case inflightCancel connection id =>
    refine ⟨⟨fun h => h, nofun⟩, fun (found : Option Nat) _ => ?_⟩
    cases found with
    | none => trivial
    | some token => exact ⟨⟨fun h => h, nofun⟩, fun _ _ => trivial⟩
  all_goals exact hone ⟨id, nofun⟩

theorem statusless_serve (d : VersionDispatcher N) (msg : JsonRpcMessage) :
    Statusless ((serve d msg).expand Proc.sections) := by
  refine Program.wp_expand (C := fun e => ∀ connection m, e = .send connection m →
    isStatus m = false) statusless_sections ?_
  refine (disciplined_serve d msg).wp ?_
  rintro q e hallows connection m rfl
  obtain ⟨-, id, filters, rfl⟩ := hallows
  exact isStatus_acknowledgement id filters

/-! ### Publications -/

theorem statusless_sendTo {connection : String} {m : JsonRpcMessage} (hm : isStatus m = false) :
    Statusless (Proc.sendTo (N := N) connection m) := by
  refine ⟨⟨id, nofun⟩, fun (live : Bool) _ => ?_⟩
  cases live with
  | false => trivial
  | true =>
      refine ⟨⟨fun h => ?_, nofun⟩, fun _ _ => trivial⟩
      rw [Section.ofPush, hm] at h
      cases h

theorem statusless_sendEach {T : Type} {connection : T → String} {message : T → JsonRpcMessage}
    {gone : T → Proc N Unit} (ts : List T) (hmessage : ∀ t, isStatus (message t) = false)
    (hgone : ∀ t, Statusless (gone t)) : Statusless (Proc.sendEach connection message gone ts) := by
  induction ts with
  | nil => trivial
  | cons t ts ih =>
      refine Program.wp_seq (statusless_sendTo (hmessage t)) fun sent _ => ?_
      cases sent with
      | true => exact ih
      | false => exact Program.wp_seq (hgone t) fun _ _ => ih

theorem method_ne_notificationsTasks (p : Publication) : p.method ≠ notificationsTasks := by
  cases p with
  | listChanged kind => cases kind <;> decide
  | resourceUpdated uri =>
      show "notifications/resources/updated" ≠ notificationsTasks
      decide

theorem isStatus_notification (p : Publication) (id : RequestId) :
    isStatus (p.notification id) = false :=
  decide_eq_false (method_ne_notificationsTasks p)

theorem isStatus_legacyNotification (p : Publication) : isStatus p.legacyNotification = false :=
  decide_eq_false (method_ne_notificationsTasks p)

theorem statusless_publishAll (p : Publication) : Statusless (Proc.publishAll (N := N) p) := by
  have hwriter (session connection : String) :
      Statusless (Proc.legacyWriter (N := N) session connection) := by
    refine ⟨⟨id, nofun⟩, fun (stream : Bool) _ => ?_⟩
    cases stream with
    | true => trivial
    | false =>
        show Program.wp _ _ (if connection = "" then _ else _) _
        split
        · trivial
        · exact ⟨⟨id, nofun⟩, fun _ _ => trivial⟩
  have hloop (routes : List (String × String)) :
      Statusless (Proc.sendLegacy (N := N) p.legacyNotification routes) := by
    induction routes with
    | nil => trivial
    | cons route routes ih =>
        refine Program.wp_seq (hwriter route.1 route.2) fun writer _ => ?_
        cases writer with
        | none => exact ih
        | some writer =>
            refine ⟨⟨fun h => ?_, nofun⟩, fun _ _ => ih⟩
            rw [Section.ofPush, isStatus_legacyNotification] at h
            cases h
  have hpublish : Statusless (Proc.publish (N := N) p) := by
    refine ⟨⟨id, nofun⟩, fun keys _ => ?_⟩
    exact statusless_sendEach keys (fun key => isStatus_notification p key.2) fun _ =>
      ⟨⟨id, nofun⟩, fun _ _ => trivial⟩
  exact Program.wp_seq hpublish fun _ _ => ⟨⟨id, nofun⟩, fun routes _ => hloop routes⟩

/-! ### Every frame -/

/-- **Every task of the server pushes only what it has just changed.** -/
theorem prelude_startFrame (d : VersionDispatcher N) (rfc3339 : Nat → String) (f : Frame) :
    Prelude rfc3339 (startFrame d rfc3339 f) := by
  have htell (a : Section) (ha : a.Statusless) : Prelude rfc3339 (Proc.tell (N := N) a) :=
    prelude_of_statusless ⟨ha, fun _ _ => trivial⟩
  cases f with
  | message msg => exact prelude_of_statusless (statusless_serve d msg)
  | delete session =>
      exact prelude_of_statusless
        ⟨⟨id, nofun⟩, fun _ _ => ⟨⟨id, nofun⟩, fun _ _ => trivial⟩⟩
  | listChanged kind =>
      refine prelude_of_statusless ⟨⟨id, nofun⟩, fun (scheduled : Bool) _ => ?_⟩
      cases scheduled with
      | true => trivial
      | false => exact ⟨⟨id, nofun⟩, fun _ _ => statusless_publishAll _⟩
  | resourceUpdated uri => exact prelude_of_statusless (statusless_publishAll _)
  | closeSubscriptions =>
      refine prelude_of_statusless ⟨⟨id, nofun⟩, fun keys _ => ?_⟩
      exact statusless_sendEach keys (fun _ => rfl) fun _ => trivial
  | createTask ttl poll => exact htell _ ⟨id, nofun⟩
  | obtainInput taskId key request =>
      refine ⟨id, fun (rx : Option Channel) => ?_⟩
      cases rx with
      | none => exact ⟨nofun, fun _ => trivial⟩
      | some rx =>
          refine ⟨fun taskId' h => ?_, nofun⟩
          cases h
          rfl
  | completeTask taskId outcome =>
      refine ⟨id, fun _ => ⟨fun taskId' h => ?_, nofun⟩⟩
      cases h
      rfl
  | getTask taskId => exact ⟨id, fun _ => ⟨nofun, fun _ => trivial⟩⟩
  | cancelTask taskId =>
      refine ⟨id, fun (known : Bool) => ?_⟩
      cases known with
      | false => exact ⟨nofun, fun _ => trivial⟩
      | true =>
          refine ⟨fun taskId' h => ?_, nofun⟩
          cases h
          rfl
  | updateTask taskId responses =>
      refine ⟨id, fun (changed : Option Bool) => ?_⟩
      rcases changed with _ | _ | _
      · exact ⟨nofun, fun _ => trivial⟩
      · exact ⟨nofun, fun _ => trivial⟩
      · refine ⟨fun taskId' h => ?_, nofun⟩
        cases h
        rfl
  | connect => exact htell _ ⟨id, nofun⟩
  | openStream session => exact htell _ ⟨id, nofun⟩
  | disconnect connection => exact htell _ ⟨id, nofun⟩
  | closeReceiver connection => exact htell _ ⟨id, nofun⟩

/-! ## Runs -/

/-- A task has yet to push, or is pushing. -/
def Staged (rfc3339 : Nat → String) (p : Proc N Unit) : Prop :=
  Prelude rfc3339 p ∨ ∃ st : Stage, p = st.residual rfc3339

/-- **One section of any task**: it stays in its prelude, comes to owe a push,
or its push moves on. -/
theorem Staged.after {a : Section} {k : Reply N a → Proc N Unit}
    (h : Staged rfc3339 (.call a k)) (r : Reply N a) : Staged rfc3339 (k r) := by
  rcases h with ⟨-, hk⟩ | ⟨st, h⟩
  · cases hann : announced a r with
    | none => exact Or.inl ((hk r).2 hann)
    | some taskId => exact Or.inr ⟨_, (hk r).1 taskId hann⟩
  · obtain ⟨st', -, h⟩ := Stage.moves h.symm r
    exact Or.inr ⟨st', h⟩

/-- Every live task has yet to push, or is pushing. -/
def AllStaged (rfc3339 : Nat → String) (P : Server N) : Prop :=
  Threads (fun _ _ _ p => Staged rfc3339 p) P

theorem allStaged_step {P P' : Server N} {a : Act Frame (Choice N)}
    (h : (server d rfc3339).Step P a P') (hP : AllStaged rfc3339 P) : AllStaged rfc3339 P' := by
  refine threads_step h hP ?_ ?_ ?_ ?_
  · intro f _
    exact Or.inl (prelude_startFrame d rfc3339 f)
  · intro s b n f p hJ
    exact hJ
  · intro n f c e k r s _ _ _ hJ _
    exact hJ.after r
  · intro n c e k r s m f p _ _ _ _ _ _ hJ
    exact hJ

/-- No push is in progress. -/
def NoPush (rfc3339 : Nat → String) (P : Server N) : Prop :=
  ∀ n (st : Stage), P.threads.get n = some (st.residual rfc3339) →
    st.residual (N := N) rfc3339 = .ret ()

end TurboMcp.System
