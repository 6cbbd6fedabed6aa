import TurboMcp.Server.Roles
import TurboMcp.System.Discipline

/-!
# The roles of the server's tasks

Which entries a task touches follows from the frame it was started for: a
request's own, a cancellation's target, and, for a publication, those it was
told of and found gone.  Only `close_all` drains the registry.
-/

namespace TurboMcp.System

open TurboMcp.Core TurboMcp.Lib TurboMcp.Server TurboMcp.ExtTasks TurboMcp.Service

variable {N : Type}

def Frame.role : Frame → Role
  | .message msg => Role.ofMessage msg
  | _ => Role.none

/-- What a task has learned of entries. -/
structure Entitled extends Opening where
  /-- The subscriptions a publication was told of. -/
  told : SubscriptionKey → Prop
  /-- Those of them whose connection it has found gone. -/
  gone : SubscriptionKey → Prop
  /-- The token of the request it cancels. -/
  token : Option Nat

def Entitled.none : Entitled := ⟨Opening.none, fun _ => False, fun _ => False, .none⟩

def frameAllows (f : Frame) (q : Entitled) : Section → Prop
  | .effect (.send connection m) => q.pending = .none ∧ (isAcknowledgement m = true →
      ∃ id filters, m = acknowledgement id filters ∧ f.role.listens = some (connection, id))
  | .effect (.subscriptionRemove connection id) =>
      roleAllows f.role q.toOpening (.subscriptionRemove connection id) ∨
        q.pending = .none ∧ q.gone (connection, id)
  | .effect e => roleAllows f.role q.toOpening e
  | .inflightToken connection id =>
      q.pending = .none ∧ f.role.cancels = some (connection, id)
  | .fireToken token => q.pending = .none ∧ q.token = some token
  | .drain => q.pending = .none ∧ f = .closeSubscriptions
  | _ => q.pending = .none

def openingAfter (f : Frame) (q : Opening) : (a : Section) → Reply N a → Opening
  | .effect (.send _ m), (sent : Bool) =>
      ⟨if isAcknowledgement m && sent then f.role.listens else .none, false⟩
  | .effect e, r => (roleProtocol N f.role).after q e r
  | _, _ => q

def toldAfter (told : SubscriptionKey → Prop) :
    (a : Section) → Reply N a → SubscriptionKey → Prop
  | .targets _, (keys : List SubscriptionKey) => fun key => told key ∨ key ∈ keys
  | _, _ => told

def goneAfter (q : Entitled) : (a : Section) → Reply N a → SubscriptionKey → Prop
  | .effect (.writer connection), (live : Bool) => fun key =>
      q.gone key ∨ live = false ∧ key.1 = connection ∧ q.told key
  | .effect (.send connection _), (sent : Bool) => fun key =>
      q.gone key ∨ sent = false ∧ key.1 = connection ∧ q.told key
  | _, _ => q.gone

def tokenAfter (token : Option Nat) : (a : Section) → Reply N a → Option Nat
  | .inflightToken _ _, (found : Option Nat) => found
  | _, _ => token

def frameProtocol (N : Type) (f : Frame) : Protocol Section (Reply N) Entitled where
  allows := frameAllows f
  after q a r := ⟨openingAfter f q.toOpening a r, toldAfter q.told a r, goneAfter q a r,
    tokenAfter q.token a r⟩

/-- From `q`, `p` keeps to the frame's role and leaves no stream half open. -/
abbrev KeepsFrame {α : Type} (f : Frame) (q : Entitled) (p : Proc N α) : Prop :=
  Program.Follows (frameProtocol N f) q p fun q _ => q.pending = .none

/-! ## Requests -/

theorem followsFrame_sections {msg : JsonRpcMessage} {q : Opening} {q' : Entitled} {e : Effect}
    (hq : q'.toOpening = q) (he : roleAllows (Role.ofMessage msg) q e) :
    Program.Follows (frameProtocol N (.message msg)) q' (Proc.sections e) fun q' r =>
      q'.toOpening = (roleProtocol N (Role.ofMessage msg)).after q e r := by
  subst hq
  cases e
  case legacySubscribe session connection uri =>
    exact ⟨he, fun _ => ⟨he, fun _ => rfl⟩⟩
  case inflightCancel connection id =>
    refine ⟨he, fun (found : Option Nat) => ?_⟩
    cases found with
    | none => exact rfl
    | some token => exact ⟨⟨he.1, rfl⟩, fun _ => rfl⟩
  case send connection m =>
    obtain ⟨hpending, id, filters, rfl, hlistens⟩ := he
    refine ⟨⟨hpending, fun _ => ⟨id, filters, rfl, hlistens⟩⟩, fun (sent : Bool) => ?_⟩
    cases sent <;> rfl
  case subscriptionRemove connection id => exact ⟨Or.inl he, fun _ => rfl⟩
  all_goals exact ⟨he, fun _ => rfl⟩

theorem keepsFrame_message (d : VersionDispatcher N) (msg : JsonRpcMessage) :
    KeepsFrame (.message msg) Entitled.none ((serve d msg).expand Proc.sections) := by
  have h := (keepsRole_serve d msg).expand (S := frameProtocol N (.message msg))
    (r := fun q q' => q'.toOpening = q) (t := Entitled.none)
    (fun q q' e hrel he => followsFrame_sections hrel he) rfl
  refine h.mono ?_
  rintro q' - ⟨q, rfl, hpending⟩
  exact hpending

/-! ## Everything else -/

/-- A section that concerns no table kept by request, and acknowledges nothing. -/
def Section.Untabled : Section → Prop
  | .effect (.send _ m) => isAcknowledgement m = false
  | .effect e => e.Untabled
  | .inflightToken _ _ | .fireToken _ | .drain => False
  | _ => True

abbrev Untabled {α : Type} (p : Proc N α) : Prop :=
  Program.wp Section.Untabled (fun _ _ => True) p fun _ => True

theorem keepsFrame_of_untabled {α : Type} {f : Frame} {q : Entitled} {p : Proc N α}
    (h : Untabled p) (hq : q.pending = .none) : KeepsFrame f q p := by
  induction p generalizing q with
  | ret a => exact hq
  | call a k ih =>
      obtain ⟨ha, hk⟩ := h
      have hallows : frameAllows f q a := by
        cases a
        case effect e =>
          cases e
          case send connection m =>
            refine ⟨hq, fun hack => ?_⟩
            rw [show isAcknowledgement m = false from ha] at hack
            cases hack
          all_goals first | exact absurd ha id | exact hq
        all_goals first | exact absurd ha id | exact hq
      have hafter (r : Reply N a) : (openingAfter f q.toOpening a r).pending = .none := by
        cases a
        case effect e =>
          cases e
          case send connection m =>
            have hsent (sent : Bool) : (openingAfter (N := N) f q.toOpening
                (.effect (.send connection m)) sent).pending = .none := by
              simp [openingAfter, show isAcknowledgement m = false from ha]
            exact hsent r
          all_goals first | exact absurd ha id | exact hq
        all_goals exact hq
      exact ⟨hallows, fun r => ih r (hk r trivial) (hafter r)⟩

theorem isAcknowledgement_legacyNotification (p : Publication) :
    isAcknowledgement p.legacyNotification = false := by
  cases p with
  | listChanged kind => cases kind <;> rfl
  | resourceUpdated uri => rfl

theorem untabled_publishLegacy (p : Publication) : Untabled (Proc.publishLegacy (N := N) p) :=
  Proc.wp_publishLegacy trivial (fun _ => trivial) fun _ =>
    isAcknowledgement_legacyNotification p

theorem untabled_pushStatus (rfc3339 : Nat → String) (taskId : String) :
    Untabled (Proc.pushStatus (N := N) rfc3339 taskId) :=
  Proc.wp_pushStatus trivial trivial (fun _ => trivial) (fun _ _ => rfl) fun _ => trivial

/-- **Publishing**: what is pruned was published to and found gone. -/
theorem keepsFrame_publish (f : Frame) {q : Entitled} (hq : q.pending = .none)
    (p : Publication) : KeepsFrame f q (Proc.publish (N := N) p) := by
  refine ⟨hq, fun (keys : List SubscriptionKey) => ?_⟩
  refine (Proc.follows_sendEach (I := fun ts q => q.pending = .none ∧ ∀ key ∈ ts, q.told key)
    ?_ ⟨hq, fun key hkey => Or.inr hkey⟩).mono fun q _ h => h.1
  rintro ⟨connection, id⟩ ts q ⟨hq, htold⟩
  rw [List.forall_mem_cons] at htold
  have hack := isAcknowledgement_notification p id
  refine ⟨hq, fun (live : Bool) => ?_⟩
  cases live with
  | false => exact ⟨Or.inr ⟨hq, Or.inr ⟨rfl, rfl, htold.1⟩⟩, fun _ => ⟨hq, htold.2⟩⟩
  | true =>
      refine ⟨⟨hq, fun h => ?_⟩, fun (sent : Bool) => ?_⟩
      · rw [hack] at h
        cases h
      · have hpending : (openingAfter (N := N) f q.toOpening
            (.effect (.send connection (p.notification id))) sent).pending = .none := by
          simp [openingAfter, hack]
        cases sent with
        | true => exact ⟨hpending, htold.2⟩
        | false =>
            refine ⟨Or.inr ⟨hpending, Or.inr ⟨rfl, rfl, htold.1⟩⟩, fun _ => ⟨hpending, htold.2⟩⟩

theorem keepsFrame_publishAll (f : Frame) {q : Entitled} (hq : q.pending = .none)
    (p : Publication) : KeepsFrame f q (Proc.publishAll (N := N) p) :=
  (keepsFrame_publish f hq p).seq fun _ _ hq =>
    keepsFrame_of_untabled (untabled_publishLegacy p) hq

/-- **Every task of the server keeps to its role.** -/
theorem keepsFrame_startFrame (d : VersionDispatcher N) (rfc3339 : Nat → String) (f : Frame) :
    KeepsFrame f Entitled.none (startFrame d rfc3339 f) := by
  have hof {p : Proc N Unit} (h : Untabled p) : KeepsFrame f Entitled.none p :=
    keepsFrame_of_untabled h rfl
  have hpush (taskId : String) := untabled_pushStatus (N := N) rfc3339 taskId
  cases f with
  | message msg => exact keepsFrame_message d msg
  | delete session => exact hof ⟨trivial, fun _ _ => ⟨trivial, fun _ _ => trivial⟩⟩
  | listChanged kind =>
      refine ⟨rfl, fun (scheduled : Bool) => ?_⟩
      cases scheduled with
      | true => exact rfl
      | false => exact ⟨rfl, fun _ => keepsFrame_publishAll _ rfl _⟩
  | resourceUpdated uri => exact keepsFrame_publishAll _ rfl _
  | closeSubscriptions =>
      refine ⟨⟨rfl, rfl⟩, fun (keys : List SubscriptionKey) => ?_⟩
      exact keepsFrame_of_untabled (Proc.wp_sendEach keys (fun _ => trivial) (fun _ => rfl)
        fun _ => trivial) rfl
  | createTask ttl poll => exact hof ⟨trivial, fun _ _ => trivial⟩
  | obtainInput taskId key request =>
      refine hof ⟨trivial, fun (rx : Option Channel) _ => ?_⟩
      cases rx with
      | none => trivial
      | some _ => exact hpush taskId
  | completeTask taskId outcome => exact hof ⟨trivial, fun _ _ => hpush taskId⟩
  | getTask taskId => exact hof ⟨trivial, fun _ _ => trivial⟩
  | cancelTask taskId =>
      refine hof ⟨trivial, fun (known : Bool) _ => ?_⟩
      cases known with
      | false => trivial
      | true => exact hpush taskId
  | updateTask taskId responses =>
      refine hof ⟨trivial, fun (changed : Option Bool) _ => ?_⟩
      show Program.wp _ _ (if changed = some true then _ else _) _
      split
      · exact hpush taskId
      · trivial
  | connect => exact hof ⟨trivial, fun _ _ => trivial⟩
  | openStream session => exact hof ⟨trivial, fun _ _ => trivial⟩
  | disconnect connection => exact hof ⟨trivial, fun _ _ => trivial⟩
  | closeReceiver connection => exact hof ⟨trivial, fun _ _ => trivial⟩

/-! ## Runs -/

/-- Every live task goes on keeping to its role. -/
def InRole (P : Server N) : Prop := Threads (fun _ _ f p => ∃ q, KeepsFrame f q p) P

theorem inRole_step {d : VersionDispatcher N} {rfc3339 : Nat → String} {P P' : Server N}
    {a : Act Frame (Choice N)} (h : (server d rfc3339).Step P a P') (hP : InRole P) :
    InRole P' := by
  refine threads_step h hP ?_ ?_ ?_ ?_
  · intro f _
    exact ⟨Entitled.none, keepsFrame_startFrame d rfc3339 f⟩
  · intro s b n f p hJ
    exact hJ
  · rintro n f c e k r s _ _ _ ⟨q, hq⟩ _
    exact ⟨_, hq.2 r⟩
  · intro n c e k r s m f p _ _ _ _ _ _ hJ
    exact hJ

end TurboMcp.System
