import TurboMcp.System.Cancelling
import TurboMcp.System.Recording

/-!
# A cancellation races a listen

A cancellation fires the token of the request it finds and then takes out the
subscription, in two steps; a listen records its subscription and then looks at
its token, in two steps.  Whichever way the four interleave, one of the two takes
the subscription out.
-/

namespace TurboMcp.System

open TurboMcp.Core TurboMcp.Lib TurboMcp.Server TurboMcp.ExtTasks TurboMcp.Service

variable {N : Type} {d : VersionDispatcher N} {rfc3339 : Nat → String} {key : SubscriptionKey}

/-! ## The listen's side -/

/-- How far a listen is with its recheck. -/
inductive Recheck
  | idle
  /-- The subscription is recorded, and the token not yet looked at. -/
  | inserted
  /-- The token has fired. -/
  | seen
  deriving DecidableEq

def recheckAllows (key : SubscriptionKey) : Recheck → Effect → Prop
  | .idle, _ => True
  | .inserted, e => ∃ connection id, e = .isCancelled connection id
  | .seen, e => e = .subscriptionRemove key.1 key.2

def recheckAfter : Recheck → (e : Effect) → Answer N e → Recheck
  | .idle, .subscriptionInsert _ _ _, _ => .inserted
  | .inserted, .isCancelled _ _, (cancelled : Bool) => if cancelled then .seen else .idle
  | .seen, _, _ => .idle
  | q, _, _ => q

/-- What is recorded is rechecked next, and taken out if the token has fired. -/
def recheckProtocol (N : Type) (key : SubscriptionKey) : Protocol Effect (Answer N) Recheck where
  allows := recheckAllows key
  after := recheckAfter

/-- The same, section by section. -/
def recheckSections (N : Type) (key : SubscriptionKey) : Protocol Section (Reply N) Recheck where
  allows q a :=
    match a with
    | .effect e => recheckAllows key q e
    | _ => q = .idle
  after q a :=
    match a with
    | .effect e => recheckAfter q e
    | _ => fun _ => q

/-- Nothing is recorded. -/
def Effect.Unrecorded : Effect → Prop
  | .subscriptionInsert _ _ _ => False
  | _ => True

theorem idle_of_unrecorded {α : Type} {p : Dispatch N α} {Q : α → Prop}
    (h : Program.wp Effect.Unrecorded (fun _ _ => True) p Q) :
    Program.Follows (recheckProtocol N key) .idle p fun q a => q = .idle ∧ Q a := by
  apply Program.follows_of_wp h
  · intro e _
    exact trivial
  · intro e r he
    cases e <;> first | exact absurd he id | rfl

theorem unrecorded_offerSubscription (conn : String) (id : RequestId) (raw : Value)
    (ctx : RequestContext) (extensions : List Extension) (ack : Map) :
    Program.wp Effect.Unrecorded (fun _ _ => True)
      (offerSubscription (N := N) conn id raw ctx extensions ack) fun _ => True := by
  induction extensions generalizing ack with
  | nil => trivial
  | cons ext extensions ih =>
      unfold offerSubscription
      refine ⟨trivial, fun (outcome : SubscribeOutcome) _ => ?_⟩
      cases outcome with
      | notApplicable => exact ih _
      | missingCapability => trivial
      | subscribed contribution => exact ih _

theorem rechecks_acknowledge (conn : String) (req : JsonRpcRequest) (agreed : SubscriptionFilter)
    (ack : Map) :
    Program.Follows (recheckProtocol N (conn, req.id)) .idle
      (acknowledge (N := N) conn req agreed ack) fun q _ => q = .idle := by
  unfold acknowledge
  refine ⟨trivial, fun (sent : Bool) => ?_⟩
  cases sent with
  | false => exact rfl
  | true =>
      refine ⟨trivial, fun _ => ⟨⟨_, _, rfl⟩, fun (cancelled : Bool) => ?_⟩⟩
      cases cancelled with
      | false => exact rfl
      | true => exact ⟨rfl, fun _ => rfl⟩

theorem rechecks_serveListen {req : JsonRpcRequest} (hkey : requestKey req = some key) :
    Program.Follows (recheckProtocol N key) .idle (serveListen (N := N) d req)
      fun q _ => q = .idle := by
  obtain ⟨conn, hconn, rfl⟩ := Option.map_eq_some_iff.mp hkey
  unfold serveListen handleSubscriptionsListen
  refine Program.Follows.seq (Q := fun q _ => q = .idle) ?_ fun q _ hq => ?_
  rotate_left
  · exact hq
  split
  · exact rfl
  · exact rfl
  · simp only [hconn, Option.getD_some]
    have hwriter : Program.Follows (recheckProtocol N (conn, req.id)) .idle (listenWriter req)
        fun q _ => q = .idle := by
      unfold listenWriter
      rw [hconn]
      exact ⟨trivial, fun _ => rfl⟩
    refine hwriter.seq fun q live hq => ?_
    subst hq
    split
    · split
      · exact rfl
      · refine (idle_of_unrecorded (unrecorded_offerSubscription _ _ _ _ _ _)).seq
          fun q out hq => ?_
        obtain ⟨rfl, -⟩ := hq
        cases out with
        | error ext => exact rfl
        | ok ack => exact (rechecks_acknowledge conn req _ ack).seq fun q _ hq => hq
    · exact rfl

/-- The frame opens the stream of this request. -/
theorem listens_cases {f : Frame} (h : f.role.listens = some key) :
    ∃ req, f = .message (.request req) ∧ req.method = methods.subscriptionsListen ∧
      requestKey req = some key := by
  cases f with
  | message msg =>
      cases msg with
      | request req =>
          have hlistens : (if req.method = methods.subscriptionsListen then requestKey req
            else none) = some key := h
          split at hlistens
          · rename_i hmethod
            exact ⟨req, rfl, hmethod, hlistens⟩
          · cases hlistens
      | notification n => cases h
      | response resp => cases h
  | _ => cases h

theorem rechecks_sections {q : Recheck} {e : Effect} (he : recheckAllows key q e) :
    Program.Follows (recheckSections N key) q (Proc.sections e)
      fun q' r => q' = recheckAfter q e r := by
  cases e
  case legacySubscribe session connection uri =>
    cases q with
    | idle => exact ⟨trivial, fun _ => ⟨rfl, fun _ => rfl⟩⟩
    | inserted =>
        obtain ⟨_, _, he⟩ := he
        cases he
    | seen => cases he
  case inflightCancel connection request =>
    cases q with
    | idle =>
        refine ⟨rfl, fun (found : Option Nat) => ?_⟩
        cases found with
        | none => exact rfl
        | some token => exact ⟨rfl, fun _ => rfl⟩
    | inserted =>
        obtain ⟨_, _, he⟩ := he
        cases he
    | seen => cases he
  all_goals exact ⟨he, fun _ => rfl⟩

/-- **A listen rechecks its token** once its subscription is recorded. -/
theorem rechecks_startFrame (d : VersionDispatcher N) (rfc3339 : Nat → String) {f : Frame}
    (hlistens : f.role.listens = some key) :
    Program.Follows (recheckSections N key) .idle (startFrame d rfc3339 f)
      fun q _ => q = .idle := by
  obtain ⟨req, rfl, hmethod, hkey⟩ := listens_cases hlistens
  have hserve : Program.Follows (recheckProtocol N key) .idle (serve d (.request req))
      fun q _ => q = .idle := by
    unfold serve
    split
    · simp only [hmethod, if_true]
      unfold whileInFlight
      split
      · exact rechecks_serveListen hkey
      · refine ⟨trivial, fun _ => (rechecks_serveListen hkey).seq fun q _ hq => ?_⟩
        subst hq
        exact ⟨trivial, fun _ => rfl⟩
    · exact rfl
  have himpl (q q' : Recheck) (e : Effect) (hq : q' = q) (he : recheckAllows key q e) :
      Program.Follows (recheckSections N key) q' (Proc.sections e)
        fun q' r => q' = recheckAfter q e r := by
    subst hq
    exact rechecks_sections he
  have h := hserve.expand (r := fun q q' => q' = q) himpl rfl
  refine h.mono ?_
  rintro q' _ ⟨q, rfl, hq⟩
  exact hq

/-! ## The cancellation's side -/

/-- Take the subscription out. -/
def Proc.takeOut (key : SubscriptionKey) : Proc N Unit :=
  Proc.tell (.effect (.subscriptionRemove key.1 key.2))

/-- `notifications/cancelled`: fire the token that is found, then take out. -/
def Proc.cancel (key : SubscriptionKey) : Proc N Unit := do
  let _ ← Proc.cancelInflight key.1 key.2
  Proc.takeOut key

theorem startFrame_cancelled (d : VersionDispatcher N) (rfc3339 : Nat → String)
    {note : JsonRpcNotification} (hvalid : (JsonRpcMessage.notification note).hasValidVersion = true)
    (hcancels : (Role.ofMessage (.notification note)).cancels = some key) :
    startFrame d rfc3339 (.message (.notification note)) = Proc.cancel key := by
  have hcancels : (if note.method = methods.cancelled then cancelledKey note else none) =
    some key := hcancels
  split at hcancels
  · rename_i hmethod
    unfold cancelledKey at hcancels
    split at hcancels
    · rename_i connection id hconn hid
      cases hcancels
      have hserve : serve d (.notification note) =
          .call (.inflightCancel connection id) fun _ =>
            .call (.subscriptionRemove connection id) fun _ => .ret () := by
        unfold serve handleNotification
        rw [if_pos hvalid]
        simp only [hmethod, if_true, hconn, hid]
        rfl
      show (serve d (.notification note)).expand Proc.sections = _
      rw [hserve]
      rfl
    · cases hcancels
  · cases hcancels

theorem cancel_eq (key : SubscriptionKey) :
    (Proc.cancel key : Proc N Unit) =
      .call (.inflightToken key.1 key.2) fun (found : Option Nat) =>
        (match found with
          | none => .ret false
          | some token => .call (.fireToken token) fun _ => .ret true) >>= fun _ =>
            Proc.takeOut key := rfl

/-! ## The race -/

/-- The listen's task has been read, and registers nothing any more. -/
def PastRegistration (key : SubscriptionKey) (n : Nat) (P : Server N) : Prop :=
  n < P.next ∧ ∀ k, P.threads.get n ≠ some (.call (.effect (.inflightRegister key.1 key.2)) k)

/-- The listen's task is at its end. -/
def Over (n : Nat) (P : Server N) : Prop := n < P.next ∧ Ended P n

/-- The listen cannot but see that it is cancelled, or is at its end. -/
def Decided (n : Nat) (P : Server N) : Prop := n < P.next ∧ (n ∈ P.shared.fired ∨ Ended P n)

/-- The only unfinished request under the key. -/
def Alone (key : SubscriptionKey) (n : Nat) (P : Server N) : Prop :=
  n < P.next → ∀ n' f, (P.threads.get n').isSome = true → P.born[n']? = some f →
    f.role.tracks = some key → n' = n

theorem Alone.apart {n : Nat} {P : Server N} (h : Alone key n P) (hn : n < P.next) :
    Apart key P := by
  intro n₁ n₂ f g h₁ h₂ hf hg htracks₁ htracks₂
  rw [h hn n₁ f h₁ hf htracks₁, h hn n₂ g h₂ hg htracks₂]

/-- Where the listen's task is: how far with its recheck, and on its way. -/
structure Listening (key : SubscriptionKey) (n : Nat) (q : Recheck) (P : Server N) : Prop where
  rechecks : ∀ p, P.threads.get n = some p →
    Program.Follows (recheckSections N key) q p fun q _ => q = .idle
  tracked : ∀ p, P.threads.get n = some p →
    ∃ t, Program.Follows (trackSections N key) t p (fun t _ => t ≠ .tracked) ∧
      (t = .tracked → P.shared.inflight.get key = some n)
  gone : P.threads.get n = none → q = .idle

/-- The subscription is not there, or the listen is about to take it out. -/
def Clean (key : SubscriptionKey) (n : Nat) (q : Recheck) (P : Server N) : Prop :=
  P.shared.subscriptions.get key = none ∨ (q = .inserted ∧ n ∈ P.shared.fired) ∨ q = .seen

/-- Where the cancellation's task is. -/
inductive Standing (key : SubscriptionKey) (n m : Nat) (q : Recheck) (P : Server N) : Prop
  | ahead (h : P.next ≤ m ∨ P.threads.get m = some (Proc.cancel key))
  | found (token : Nat) (k : Unit → Proc N Unit)
      (hget : P.threads.get m = some (.call (.fireToken token) k))
      (hk : k () = Proc.takeOut key) (hborn : n < P.next) (h : token = n ∨ Ended P n)
  | removing (hget : P.threads.get m = some (Proc.takeOut key)) (h : Decided n P)
  | removed (h : Decided n P) (hclean : Clean key n q P)

structure Race (key : SubscriptionKey) (n m : Nat) (P : Server N) : Prop where
  inRole : InRole P
  race : ∃ q, Listening key n q P ∧ Standing key n m q P

theorem race_init (key : SubscriptionKey) (n m : Nat) (sessions : SessionStore)
    (taskCapacity : Nat) :
    Race key n m (Pool.init (Shared.init sessions taskCapacity) : Server N) where
  inRole := nofun
  race := ⟨.idle, ⟨nofun, nofun, fun _ => rfl⟩, .ahead (Or.inl (Nat.zero_le m))⟩

/-! ### What a step leaves -/

variable {P P' : Server N} {a : Act Frame (Choice N)} {n m : Nat} {q q' : Recheck}

theorem Over.not_call (h : Over n P) {e : Section} {k : Reply N e → Proc N Unit} :
    P.threads.get n ≠ some (.call e k) := by
  intro hget
  rcases h.2 with hnone | hret
  · rw [hnone] at hget
    cases hget
  · rw [hret] at hget
    cases hget

theorem Over.step (h : Over n P) (hstep : (server d rfc3339).Step P a P') : Over n P' := by
  obtain ⟨hborn, hended⟩ := h
  cases hstep.stepped with
  | spawn =>
      refine ⟨Nat.lt_trans hborn (Pool.next_lt_spawned ..), ?_⟩
      unfold Ended
      rw [Pool.get_spawned, if_neg (Ne.symm (Nat.ne_of_lt hborn))]
      exact hended
  | finish hget =>
      refine ⟨hborn, ?_⟩
      unfold Ended
      rw [Pool.get_ended]
      split
      · exact Or.inl rfl
      · exact hended
  | answer hget hx =>
      refine ⟨hborn, ?_⟩
      unfold Ended
      rw [Pool.get_resumed]
      split
      · rename_i heq
        subst heq
        exact absurd hget (Over.not_call ⟨hborn, hended⟩)
      · exact hended
  | panic hget hx =>
      refine ⟨hborn, ?_⟩
      unfold Ended
      rw [Pool.get_ended]
      split
      · exact Or.inl rfl
      · exact hended

/-- Only an insertion brings an entry back. -/
theorem absent_of_answer {c : Choice N} {s s' : Shared} {e : Section} {r : Reply N e}
    (hx : runSection n c s e = .answer r s')
    (hinsert : ∀ agreed, e ≠ .effect (.subscriptionInsert key.1 key.2 agreed))
    (habsent : s.subscriptions.get key = none) : s'.subscriptions.get key = none := by
  rw [(ran_of_answer hx).subscriptions]
  unfold Section.subscriptionsAfter
  split
  · rename_i connection id agreed
    have hne : (connection, id) ≠ key := by
      rintro rfl
      exact hinsert agreed rfl
    exact (Dict.get_insert ..).trans ((if_neg hne).trans habsent)
  · rename_i connection id
    refine (Dict.get_remove ..).trans ?_
    split
    · rfl
    · exact habsent
  · rfl
  · exact habsent

/-- Another task records nothing under the key. -/
theorem Alone.not_inserts (halone : Alone key n P) (hn : n < P.next) (hrole : InRole P) {n' : Nat}
    (hne : n' ≠ n) {e : Section} {k : Reply N e → Proc N Unit}
    (hget : P.threads.get n' = some (.call e k)) (agreed : SubscriptionFilter) :
    e ≠ .effect (.subscriptionInsert key.1 key.2 agreed) := by
  rintro rfl
  obtain ⟨f, hf, _, hallows, -⟩ := hrole n' _ hget
  have htracks : f.role.tracks = some key := tracks_of_listens hallows.2
  exact hne (halone hn n' f (by rw [hget]; rfl) hf htracks)

theorem Listening.congr (h : Listening key n q P)
    (hget : P'.threads.get n = P.threads.get n)
    (hinflight : (P.threads.get n).isSome = true →
      P'.shared.inflight.get key = P.shared.inflight.get key) : Listening key n q P' where
  rechecks p hp := h.rechecks p (hget.symm.trans hp)
  tracked p hp := by
    obtain ⟨t, ht, hregistered⟩ := h.tracked p (hget.symm.trans hp)
    refine ⟨t, ht, fun htracked => ?_⟩
    rw [hinflight (by rw [← hget, hp]; rfl)]
    exact hregistered htracked
  gone hnone := h.gone (hget.symm.trans hnone)

/-- The listen's task itself: its recheck goes on. -/
theorem Listening.own {c : Choice N} {e : Section} {k : Reply N e → Proc N Unit} {r : Reply N e}
    {s : Shared} (h : Listening key n q P) (hget : P.threads.get n = some (.call e k))
    (hx : runSection n c P.shared e = .answer r s) :
    Listening key n ((recheckSections N key).after q e r) (P.resumed n s (k r)) := by
  have hself : (P.resumed n s (k r)).threads.get n = some (k r) := by
    rw [Pool.get_resumed, if_pos rfl]
  refine ⟨fun p hp => ?_, fun p hp => ?_, fun hnone => ?_⟩
  · rw [hself] at hp
    cases hp
    exact (h.rechecks _ hget).2 r
  · rw [hself] at hp
    cases hp
    obtain ⟨t, ⟨hallows, hk⟩, hregistered⟩ := h.tracked _ hget
    refine ⟨_, hk r, fun htracked => ?_⟩
    show s.inflight.get key = some n
    rw [(ran_of_answer hx).inflight]
    exact registered_after_own hallows hregistered htracked
  · rw [hself] at hnone
    cases hnone

theorem Decided.step (h : Decided n P) (hstep : (server d rfc3339).Step P a P')
    (hfired : n ∈ P.shared.fired → n ∈ P'.shared.fired) : Decided n P' := by
  obtain ⟨hborn, hfired' | hended⟩ := h
  · exact ⟨Nat.lt_of_lt_of_le hborn (Machine.born_step hstep).length_le, Or.inl (hfired hfired')⟩
  · exact (Over.step ⟨hborn, hended⟩ hstep).imp_right Or.inr

theorem Standing.keep (h : Standing key n m q P) (hstep : (server d rfc3339).Step P a P')
    (hget : P'.threads.get m = P.threads.get m) (hnext : P.next ≤ m → P'.next ≤ m)
    (hfired : n ∈ P.shared.fired → n ∈ P'.shared.fired)
    (hclean : Decided n P → Clean key n q P → Clean key n q' P') : Standing key n m q' P' := by
  cases h with
  | ahead h => exact .ahead (h.imp hnext hget.trans)
  | found token k hget' hk hborn h =>
      refine .found token k (hget.trans hget') hk
        (Nat.lt_of_lt_of_le hborn (Machine.born_step hstep).length_le) ?_
      exact h.imp_right fun hended => (Over.step ⟨hborn, hended⟩ hstep).2
  | removing hget' h => exact .removing (hget.trans hget') (h.step hstep hfired)
  | removed h h' => exact .removed (h.step hstep hfired) (hclean h h')

/-- The listen's task keeps the registry clean: what it records once its token has
fired it takes out. -/
theorem Clean.own {c : Choice N} {e : Section} {k : Reply N e → Proc N Unit} {r : Reply N e}
    {s : Shared} (h : Clean key n q P) (hallows : (recheckSections N key).allows q e)
    (hfired : n ∈ P.shared.fired) (hx : runSection n c P.shared e = .answer r s) :
    Clean key n ((recheckSections N key).after q e r) (P.resumed n s (k r)) := by
  have hfired' : n ∈ (P.resumed n s (k r)).shared.fired := fired_mono hx hfired
  cases q with
  | idle =>
      have habsent : P.shared.subscriptions.get key = none := by
        rcases h with habsent | ⟨h, -⟩ | h
        · exact habsent
        · cases h
        · cases h
      cases e
      case effect e =>
        cases e
        case subscriptionInsert => exact Or.inr (Or.inl ⟨rfl, hfired'⟩)
        all_goals exact Or.inl (absent_of_answer hx (fun _ h => by cases h) habsent)
      all_goals exact Or.inl (absent_of_answer hx (fun _ h => by cases h) habsent)
  | inserted =>
      cases e
      case effect e =>
        obtain ⟨connection, id, rfl⟩ := hallows
        cases hx
        have hseen : P.shared.fired.contains n = true := List.contains_iff_mem.mpr hfired
        refine Or.inr (Or.inr ?_)
        show (if P.shared.fired.contains n = true then Recheck.seen else Recheck.idle) = .seen
        rw [if_pos hseen]
      all_goals cases hallows
  | seen =>
      cases e
      case effect e =>
        obtain rfl : e = .subscriptionRemove key.1 key.2 := hallows
        cases hx
        refine Or.inl ?_
        show (P.shared.subscriptions.remove key).get key = none
        rw [Dict.get_remove, if_pos rfl]
      all_goals cases hallows

/-! ### Steps -/

theorem race_spawn {f : Frame} (hR : Race key n m P)
    (hstep : (server d rfc3339).Step P (.spawn f) (P.spawned f (startFrame d rfc3339 f)))
    (hn : P.next = n → f.role.listens = some key)
    (hm : P.next = m → startFrame d rfc3339 f = Proc.cancel key) :
    Race key n m (P.spawned f (startFrame d rfc3339 f)) := by
  obtain ⟨hrole, q, hlistening, hstanding⟩ := hR
  have hnum := hrole.numbered
  refine ⟨inRole_step hstep hrole, q, ?_, ?_⟩
  · by_cases hnext : P.next = n
    · have hnone : P.threads.get n = none := by
        rcases hget : P.threads.get n with _ | p
        · rfl
        · exact absurd (hnum n p hget) (by omega)
      obtain rfl : q = .idle := hlistening.gone hnone
      have hself : (P.spawned f (startFrame d rfc3339 f)).threads.get n =
          some (startFrame d rfc3339 f) := by
        rw [Pool.get_spawned, if_pos hnext]
      refine ⟨fun p hp => ?_, fun p hp => ?_, fun _ => rfl⟩
      · rw [hself] at hp
        cases hp
        exact rechecks_startFrame d rfc3339 (hn hnext)
      · rw [hself] at hp
        cases hp
        exact ⟨.waiting, tracked_startFrame d rfc3339 (tracks_of_listens (hn hnext)), nofun⟩
    · exact hlistening.congr ((Pool.get_spawned ..).trans (if_neg hnext)) fun _ => rfl
  · by_cases hnext : P.next = m
    · refine .ahead (Or.inr ?_)
      rw [Pool.get_spawned, if_pos hnext, hm hnext]
    · refine hstanding.keep hstep ((Pool.get_spawned ..).trans (if_neg hnext)) (fun hle => ?_) id
        fun _ hclean => hclean
      show (P.born ++ [f]).length ≤ m
      rw [List.length_append, List.length_singleton]
      show P.next + 1 ≤ m
      omega

/-- A task that ends leaves what there is, the listen's with its recheck done. -/
theorem race_ended {c : Choice N} {s : Shared} {p : Proc N Unit} (hR : Race key n m P)
    {n' : Nat} (hstep : (server d rfc3339).Step P (.run n' c) (P.ended n' s))
    (hget : P.threads.get n' = some p) (hs : s = { P.shared with poisoned := s.poisoned })
    (hidle : ∀ q, Listening key n q P → n' = n → q = .idle)
    (hlast : n' = m → (∀ token k, p ≠ .call (.fireToken token) k) ∧ p ≠ Proc.cancel key ∧
      p ≠ Proc.takeOut key) : Race key n m (P.ended n' s) := by
  obtain ⟨hrole, q, hlistening, hstanding⟩ := hR
  have hshared : (P.ended n' s).shared = s := rfl
  refine ⟨inRole_step hstep hrole, q, ?_, ?_⟩
  · by_cases hne : n' = n
    · have hself : (P.ended n' s).threads.get n = none := by
        rw [Pool.get_ended, if_pos hne]
      refine ⟨fun p hp => ?_, fun p hp => ?_, fun _ => hidle q hlistening hne⟩
      · rw [hself] at hp
        cases hp
      · rw [hself] at hp
        cases hp
    · refine hlistening.congr ((Pool.get_ended ..).trans (if_neg hne)) fun _ => ?_
      rw [hshared, hs]
  · have hclean (h : Clean key n q P) : Clean key n q (P.ended n' s) := by
      unfold Clean at h ⊢
      rw [hshared, hs]
      exact h
    have hfired (h : n ∈ P.shared.fired) : n ∈ (P.ended n' s).shared.fired := by
      rw [hshared, hs]
      exact h
    by_cases hne : n' = m
    · obtain ⟨hnofire, hnocancel, hnotake⟩ := hlast hne
      subst hne
      cases hstanding with
      | ahead h =>
          rcases h with hle | hget'
          · exact absurd (hrole.numbered n' p hget) (by omega)
          · exact absurd (Option.some.inj (hget.symm.trans hget')) hnocancel
      | found token k hget' => exact absurd (Option.some.inj (hget.symm.trans hget')) (hnofire _ _)
      | removing hget' => exact absurd (Option.some.inj (hget.symm.trans hget')) hnotake
      | removed h h' => exact .removed (h.step hstep hfired) (hclean h')
    · exact hstanding.keep hstep ((Pool.get_ended ..).trans (if_neg hne)) id hfired fun _ => hclean

/-- The cancellation finds the listen's token, or the listen is over. -/
theorem Listening.found (h : Listening key n q P) (hpast : PastRegistration key n P) :
    Over n P ∨ P.shared.inflight.get key = some n := by
  obtain ⟨hborn, hpast⟩ := hpast
  rcases hget : P.threads.get n with _ | p
  · exact Or.inl ⟨hborn, Or.inl hget⟩
  · rcases p with ⟨⟨⟩⟩ | ⟨e, k⟩
    · exact Or.inl ⟨hborn, Or.inr hget⟩
    · obtain ⟨t, ⟨hallows, -⟩, hregistered⟩ := h.tracked _ hget
      refine Or.inr (hregistered ?_)
      cases t with
      | tracked => rfl
      | waiting =>
          cases e
          case effect e =>
            obtain rfl : e = .inflightRegister key.1 key.2 := hallows
            exact absurd hget (hpast k)
          all_goals cases hallows
      | finished =>
          cases e
          case effect e => exact absurd hallows id
          all_goals cases hallows

/-- **The listen moves**: its subscription, once recorded, is rechecked. -/
theorem race_listen {c : Choice N} {e : Section} {k : Reply N e → Proc N Unit} {r : Reply N e}
    {s : Shared} (hR : Race key n m P) (hne : n ≠ m)
    (hstep : (server d rfc3339).Step P (.run n c) (P.resumed n s (k r)))
    (hget : P.threads.get n = some (.call e k)) (hx : runSection n c P.shared e = .answer r s) :
    Race key n m (P.resumed n s (k r)) := by
  obtain ⟨hrole, q, hlistening, hstanding⟩ := hR
  refine ⟨inRole_step hstep hrole, _, hlistening.own hget hx, ?_⟩
  refine hstanding.keep hstep ((Pool.get_resumed ..).trans (if_neg hne)) id (fired_mono hx) ?_
  rintro ⟨hborn, hdecided⟩ hclean
  refine hclean.own (hlistening.rechecks _ hget).1 ?_ hx
  exact hdecided.resolve_right fun hended => Over.not_call ⟨hborn, hended⟩ hget

/-- Another task moves. -/
theorem race_other {c : Choice N} {e : Section} {k : Reply N e → Proc N Unit} {r : Reply N e}
    {s : Shared} {n' : Nat} (hR : Race key n m P) (halone : Alone key n P)
    (hn : ∀ f, P.born[n]? = some f → f.role.listens = some key) (hne : n' ≠ n)
    (hstep : (server d rfc3339).Step P (.run n' c) (P.resumed n' s (k r)))
    (hget : P.threads.get n' = some (.call e k)) (hx : runSection n' c P.shared e = .answer r s)
    (hstanding : ∀ q, Listening key n q P → Standing key n m q P →
      (Decided n P → Clean key n q P → Clean key n q (P.resumed n' s (k r))) →
        Standing key n m q (P.resumed n' s (k r))) : Race key n m (P.resumed n' s (k r)) := by
  obtain ⟨hrole, q, hlistening, hstaged⟩ := hR
  have hborn (hlive : (P.threads.get n).isSome = true) : n < P.next := by
    obtain ⟨p, hp⟩ := Option.isSome_iff_exists.mp hlive
    exact hrole.numbered n p hp
  refine ⟨inRole_step hstep hrole, q, ?_, hstanding q hlistening hstaged fun hdecided hclean => ?_⟩
  · refine hlistening.congr ((Pool.get_resumed ..).trans (if_neg hne)) fun hlive => ?_
    obtain ⟨p, hp⟩ := Option.isSome_iff_exists.mp hlive
    obtain ⟨f, hf, -⟩ := hrole n p hp
    exact inflight_unshared hrole (halone.apart (hborn hlive)) (Ne.symm hne) hget hp hf
      (tracks_of_listens (hn f hf)) hx
  · rcases hclean with habsent | ⟨rfl, hfired⟩ | rfl
    · exact Or.inl (absent_of_answer hx (halone.not_inserts hdecided.1 hrole hne hget) habsent)
    · exact Or.inr (Or.inl ⟨rfl, fired_mono hx hfired⟩)
    · exact Or.inr (Or.inr rfl)

/-- **The cancellation moves**: it looks up, fires and takes out. -/
theorem standing_cancel {c : Choice N} {e : Section} {k : Reply N e → Proc N Unit} {r : Reply N e}
    {s : Shared} (hlistening : Listening key n q P) (hstanding : Standing key n m q P) (hne : m ≠ n)
    (hnum : Machine.Numbered P) (hstep : (server d rfc3339).Step P (.run m c) (P.resumed m s (k r)))
    (hget : P.threads.get m = some (.call e k)) (hx : runSection m c P.shared e = .answer r s)
    (hafter : ∀ k, P.threads.get m = some (.call (.inflightToken key.1 key.2) k) →
      PastRegistration key n P)
    (hclean : Decided n P → Clean key n q P → Clean key n q (P.resumed m s (k r))) :
    Standing key n m q (P.resumed m s (k r)) := by
  have hself (p : Proc N Unit) : (P.resumed m s p).threads.get m = some p := by
    rw [Pool.get_resumed, if_pos rfl]
  have hstays (p : Proc N Unit) (hended : Ended P n) : Ended (P.resumed m s p) n := by
    unfold Ended
    rw [Pool.get_resumed, if_neg hne]
    exact hended
  cases hstanding with
  | ahead h =>
      rcases h with hle | hget'
      · exact absurd (hnum m _ hget) (by omega)
      · rw [cancel_eq] at hget'
        have hpast := hafter _ hget'
        have hborn : n < (P.resumed m s (k r)).next := hpast.1
        have hfound := hlistening.found hpast
        rw [hget] at hget'
        cases hget'
        cases hx
        rcases htoken : P.shared.inflight.get (key.1, key.2) with _ | token
        · refine .removing (hself _) ⟨hborn, Or.inr (hstays _ ?_)⟩
          · rcases hfound with hover | hregistered
            · exact hover.2
            · rw [show P.shared.inflight.get key = none from htoken] at hregistered
              cases hregistered
        · refine .found token (fun _ => Proc.takeOut key) (hself _) rfl hborn ?_
          · rcases hfound with hover | hregistered
            · exact Or.inr (hstays _ hover.2)
            · rw [show P.shared.inflight.get key = some token from htoken] at hregistered
              exact Or.inl (Option.some.inj hregistered)
  | found token k' hget' hk' hborn h =>
      rw [hget] at hget'
      cases hget'
      cases hx
      refine .removing ((hself _).trans (congrArg some hk')) ⟨hborn, ?_⟩
      rcases h with rfl | hended
      · exact Or.inl List.mem_insert_self
      · exact Or.inr (hstays _ hended)
  | removing hget' h =>
      rw [hget] at hget'
      cases hget'
      cases hx
      refine .removed (h.step hstep id) (Or.inl ?_)
      show (P.shared.subscriptions.remove key).get key = none
      rw [Dict.get_remove, if_pos rfl]
  | removed h h' => exact .removed (h.step hstep (fired_mono hx)) (hclean h h')

/-- Nothing of the cancellation, nor a recheck, takes a lock that may be poisoned. -/
theorem race_panic {c : Choice N} {e : Section} {k : Reply N e → Proc N Unit} {s : Shared}
    {n' : Nat} (hR : Race key n m P) (hstep : (server d rfc3339).Step P (.run n' c) (P.ended n' s))
    (hget : P.threads.get n' = some (.call e k)) (hx : runSection n' c P.shared e = .panic s) :
    Race key n m (P.ended n' s) := by
  refine race_ended hR hstep hget (eq_of_panic hx) ?_ ?_
  · rintro q hlistening rfl
    have hallows := (hlistening.rechecks _ hget).1
    cases q with
    | idle => rfl
    | inserted =>
        cases e
        case effect e =>
          obtain ⟨connection, id, rfl⟩ := hallows
          cases hx
        all_goals cases hallows
    | seen =>
        cases e
        case effect e =>
          obtain rfl : e = .subscriptionRemove key.1 key.2 := hallows
          cases hx
        all_goals cases hallows
  · rintro -
    refine ⟨?_, ?_, ?_⟩
    · rintro token k' heq
      cases heq
      cases hx
    · intro heq
      rw [cancel_eq] at heq
      cases heq
      cases hx
    · intro heq
      cases heq
      cases hx

/-- **Step lemma**: whoever moves, the listen or the cancellation still takes the
subscription out. -/
theorem race_step (hstep : (server d rfc3339).Step P a P') (hR : Race key n m P) (hne : n ≠ m)
    (hframe : ∀ f, P'.born[n]? = some f → f.role.listens = some key)
    (hcancel : ∀ f, P'.born[m]? = some f → startFrame d rfc3339 f = Proc.cancel key)
    (halone : Alone key n P)
    (hafter : ∀ c k, a = .run m c →
      P.threads.get m = some (.call (.inflightToken key.1 key.2) k) → PastRegistration key n P) :
    Race key n m P' := by
  cases hstep.stepped with
  | @spawn f =>
      refine race_spawn hR hstep ?_ ?_
      · rintro rfl
        exact hframe f List.getElem?_concat_length
      · rintro rfl
        exact hcancel f List.getElem?_concat_length
  | @finish n' c hget =>
      refine race_ended hR hstep hget rfl ?_ ?_
      · rintro q hlistening rfl
        exact hlistening.rechecks _ hget
      · rintro -
        refine ⟨?_, ?_, ?_⟩
        · intro token k h
          cases h
        · intro h
          cases h
        · intro h
          cases h
  | @answer n' c e k r s hget hx =>
      by_cases hlisten : n' = n
      · subst hlisten
        exact race_listen hR hne hstep hget hx
      · refine race_other hR halone hframe hlisten hstep hget hx ?_
        intro q hlistening hstanding hclean
        by_cases hself : n' = m
        · subst hself
          exact standing_cancel hlistening hstanding (Ne.symm hne) hR.inRole.numbered hstep hget hx
            (fun k hget' => hafter c k rfl hget') hclean
        · exact hstanding.keep hstep ((Pool.get_resumed ..).trans (if_neg hself)) id (fired_mono hx)
            hclean
  | @panic n' c e k s hget hx => exact race_panic hR hstep hget hx

/-- Both at their ends, the subscription is not there. -/
theorem Race.absent (hR : Race key n m P) (hm : m < P.next) (hlisten : Ended P n)
    (hcancel : Ended P m) : P.shared.subscriptions.get key = none := by
  obtain ⟨-, q, hlistening, hstanding⟩ := hR
  have hidle : q = .idle := by
    rcases hlisten with hnone | hret
    · exact hlistening.gone hnone
    · exact hlistening.rechecks _ hret
  have hlive {e : Section} {k : Reply N e → Proc N Unit} :
      P.threads.get m ≠ some (.call e k) := Over.not_call ⟨hm, hcancel⟩
  subst hidle
  cases hstanding with
  | ahead h =>
      rcases h with hle | hget
      · omega
      · exact absurd hget hlive
  | found token k hget => exact absurd hget hlive
  | removing hget => exact absurd hget hlive
  | removed _ hclean =>
      rcases hclean with habsent | ⟨h, -⟩ | h
      · exact habsent
      · cases h
      · cases h

/-- **A cancellation that races a listen wins**: in every run in which the
cancellation is handled once the listen is registered, and no other request uses
the pair meanwhile, the registry holds no entry for it when both are at their
ends. -/
theorem cancel_wins (d : VersionDispatcher N) (rfc3339 : Nat → String) (sessions : SessionStore)
    (taskCapacity : Nat) {key : SubscriptionKey} {f : Frame} {note : JsonRpcNotification}
    (hlistens : f.role.listens = some key)
    (hvalid : (JsonRpcMessage.notification note).hasValidVersion = true)
    (hcancels : (Role.ofMessage (.notification note)).cancels = some key)
    {tr : List (Act Frame (Choice N) × Server N)}
    (hrun : Run (server d rfc3339).Step (Pool.init (Shared.init sessions taskCapacity)) tr)
    {n m : Nat}
    (hn : (final (Pool.init (Shared.init sessions taskCapacity)) tr).born[n]? = some f)
    (hm : (final (Pool.init (Shared.init sessions taskCapacity)) tr).born[m]? =
      some (.message (.notification note)))
    (halone : ∀ x ∈ steps (Pool.init (Shared.init sessions taskCapacity)) tr, Alone key n x.1)
    (hafter : ∀ x ∈ steps (Pool.init (Shared.init sessions taskCapacity)) tr, ∀ c k,
      x.2.1 = .run m c → x.1.threads.get m = some (.call (.inflightToken key.1 key.2) k) →
        PastRegistration key n x.1)
    (hlisten : Ended (final (Pool.init (Shared.init sessions taskCapacity)) tr) n)
    (hcancel : Ended (final (Pool.init (Shared.init sessions taskCapacity)) tr) m) :
    (final (Pool.init (Shared.init sessions taskCapacity)) tr).shared.subscriptions.get key =
      none := by
  have hne : n ≠ m := by
    rintro rfl
    rw [hn] at hm
    cases hm
    cases hlistens
  have hinv : ∀ P ∈ states (Pool.init (Shared.init sessions taskCapacity)) tr,
      Race key n m P := invariant_of_steps (race_init ..) fun x hx hR => ?_
  · exact (hinv _ (final_mem_states _ tr)).absent (List.getElem?_eq_some_iff.mp hm).1 hlisten
      hcancel
  · have hborn := Machine.born_of_mem_steps hrun x hx
    refine race_step (hrun x hx) hR hne ?_ ?_ (halone x hx) (hafter x hx)
    · intro f' hf'
      rw [heard_unique hborn hf' hn]
      exact hlistens
    · intro g hg
      rw [heard_unique hborn hg hm]
      exact startFrame_cancelled d rfc3339 hvalid hcancels

/-! ## A token fired after the recheck -/

def cancelListen : JsonRpcNotification :=
  { method := "notifications/cancelled"
    params := some (.object [("requestId", .int 7),
      ("_meta", .object [(Meta.internal.connectionId, .string "c")])]) }

/-- The token is looked up before the listen looks at it, and fired after. -/
def crossing : List (Act Frame (Choice Unit)) :=
  listening ["t"] ++ List.replicate 5 (.run 2 (.declined "")) ++
    [.spawn (.message (.notification cancelListen)), .run 3 (.declined ""), .run 2 (.declined ""),
      .run 3 (.declined ""), .run 2 (.declined ""), .run 3 (.declined ""), .run 2 (.declined ""),
      .run 3 (.declined "")]

/-- Only the third task is a request, and the fourth looks up when that is past
its registration. -/
def orderly (P : Server Unit) : Act Frame (Choice Unit) → Bool
  | .run 3 _ =>
      (P.born.eraseIdx 2).all (·.role.tracks.isNone) && 2 < P.next &&
        match P.threads.get 2 with
        | some (.call (.effect (.inflightRegister _ _)) _) => false
        | _ => true
  | _ => (P.born.eraseIdx 2).all (·.role.tracks.isNone)

theorem alone_of_others {P : Server Unit}
    (h : (P.born.eraseIdx n).all (·.role.tracks.isNone) = true) : Alone key n P := by
  intro _ n' f _ hf htracks
  by_contra hne
  have hmem : f ∈ P.born.eraseIdx n := List.mem_eraseIdx_iff_getElem?.mpr ⟨n', hne, hf⟩
  have hnone := List.all_eq_true.mp h f hmem
  rw [htracks] at hnone
  cases hnone

theorem orderly_spec (P : Server Unit) (a : Act Frame (Choice Unit)) (h : orderly P a = true) :
    Alone key 2 P ∧ ∀ c k, a = .run 3 c →
      P.threads.get 3 = some (.call (.inflightToken key.1 key.2) k) →
        PastRegistration key 2 P := by
  unfold orderly at h
  split at h
  · rw [Bool.and_eq_true, Bool.and_eq_true] at h
    obtain ⟨⟨hothers, hborn⟩, hpast⟩ := h
    refine ⟨alone_of_others hothers, fun c k _ _ => ⟨of_decide_eq_true hborn, fun k' hget => ?_⟩⟩
    rw [hget] at hpast
    cases hpast
  · rename_i hnot
    exact ⟨alone_of_others h, fun c k ha _ => absurd ha (hnot c)⟩

theorem cancel_wins_crossing :
    ∃ tr, Run (server taskServer fun _ => "").Step
        (Pool.init (Shared.init (SessionStore.withCapacity 8) 8)) tr ∧
      Ended (final (Pool.init (Shared.init (SessionStore.withCapacity 8) 8)) tr) 3 ∧
      (final (Pool.init (Shared.init (SessionStore.withCapacity 8) 8)) tr).shared.subscriptions.get
        ("c", .number 7) = none := by
  have hend : (reach (fun P a => if orderly P a then (server taskServer fun _ => "").step P a
      else none) (Pool.init (Shared.init (SessionStore.withCapacity 8) 8)) crossing).map
        (fun P => (P.born.drop 2, isEnded P 2, isEnded P 3)) =
          some ([.message (listenRequest "c" 7 ["t"]), .message (.notification cancelListen)],
            true, true) := by
    decide +kernel
  obtain ⟨P, hreach, hP⟩ := Option.map_eq_some_iff.mp hend
  obtain ⟨hborn, hended⟩ := Prod.mk.inj hP
  obtain ⟨hlisten, hcancel⟩ := Prod.mk.inj hended
  obtain ⟨tr, hrun, rfl, horderly⟩ := exists_run_of_guarded_reach
    (G := fun P a => Alone ("c", .number 7) 2 P ∧ ∀ c k, a = .run 3 c →
      P.threads.get 3 = some (.call (.inflightToken "c" (.number 7)) k) →
        PastRegistration ("c", .number 7) 2 P) (fun P a h => orderly_spec P a h) hreach
  refine ⟨tr, hrun, ended_of_isEnded hcancel, ?_⟩
  have hborn (i : Nat) :
      (final (Pool.init (Shared.init (SessionStore.withCapacity 8) 8)) tr).born[2 + i]? =
        [Frame.message (listenRequest "c" 7 ["t"]),
          Frame.message (.notification cancelListen)][i]? := by
    rw [← hborn, List.getElem?_drop]
  exact cancel_wins taskServer (fun _ => "") (SessionStore.withCapacity 8) 8
    (f := .message (listenRequest "c" 7 ["t"])) (by decide) (by decide) (by decide) hrun
    (hborn 0) (hborn 1) (fun x hx => (horderly x hx).1) (fun x hx => (horderly x hx).2)
    (ended_of_isEnded hlisten) (ended_of_isEnded hcancel)

end TurboMcp.System
