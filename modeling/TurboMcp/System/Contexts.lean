import TurboMcp.Server.Contexts
import TurboMcp.System.Server

/-!
# Sessions and contexts in a run

Every state in the session store is one that an `initialize` of the run stored,
its log level apart, and every context that a handler gets on a legacy version
is built from one.  What frames must meet for this is a family of `Terms`, one
for each frame, that agree on the states found.
-/

namespace TurboMcp.System

open TurboMcp.Core TurboMcp.Lib TurboMcp.Server TurboMcp.ExtTasks TurboMcp.Service

variable {N : Type}

/-! ## Sections -/

def Section.Within (t : Terms) : Section → Prop
  | .effect e => e.Within t
  | _ => True

def SectionFinds (t : Terms) : (a : Section) → Reply N a → Prop
  | .effect e, r => Finds t e r
  | _, _ => True

/-- A section that stores no session and hands on no context. -/
def Section.Aside : Section → Prop
  | .effect (.writer _) | .effect (.send _ _) | .effect (.subscriptionRemove _ _)
  | .effect (.legacyRemove _) => True
  | .effect _ => False
  | _ => True

theorem Section.Aside.within {t : Terms} {a : Section} (h : a.Aside) : a.Within t := by
  cases a
  case effect e => cases e <;> first | exact absurd h id | trivial
  all_goals trivial

/-! ### Frames that are no messages -/

abbrev Aside {α : Type} (p : Proc N α) : Prop :=
  Program.wp Section.Aside (fun _ _ => True) p fun _ => True

theorem aside_sendTo (connection : String) (m : JsonRpcMessage) :
    Aside (Proc.sendTo (N := N) connection m) := by
  refine ⟨trivial, fun (live : Bool) _ => ?_⟩
  cases live with
  | true => exact ⟨trivial, fun _ _ => trivial⟩
  | false => trivial

theorem aside_sendEach {T : Type} {connection : T → String} {message : T → JsonRpcMessage}
    {gone : T → Proc N Unit} (ts : List T) (hgone : ∀ t, Aside (gone t)) :
    Aside (Proc.sendEach connection message gone ts) := by
  induction ts with
  | nil => trivial
  | cons t ts ih =>
      refine Program.wp_seq (aside_sendTo _ _) fun sent _ => ?_
      cases sent with
      | true => exact ih
      | false => exact Program.wp_seq (hgone t) fun _ _ => ih

theorem aside_publishLegacy (p : Publication) : Aside (Proc.publishLegacy (N := N) p) := by
  have hwriter (session connection : String) :
      Aside (Proc.legacyWriter (N := N) session connection) := by
    refine ⟨trivial, fun (stream : Bool) _ => ?_⟩
    cases stream with
    | true => trivial
    | false =>
        show Program.wp _ _ (if connection = "" then _ else _) _
        split
        · trivial
        · exact ⟨trivial, fun _ _ => trivial⟩
  have hloop (routes : List (String × String)) :
      Aside (Proc.sendLegacy (N := N) p.legacyNotification routes) := by
    induction routes with
    | nil => trivial
    | cons route routes ih =>
        refine Program.wp_seq (hwriter route.1 route.2) fun writer _ => ?_
        cases writer with
        | none => exact ih
        | some writer => exact ⟨trivial, fun _ _ => ih⟩
  exact ⟨trivial, fun routes _ => hloop routes⟩

theorem aside_publishAll (p : Publication) : Aside (Proc.publishAll (N := N) p) := by
  have hpublish : Aside (Proc.publish (N := N) p) :=
    ⟨trivial, fun keys _ => aside_sendEach keys fun _ => ⟨trivial, fun _ _ => trivial⟩⟩
  exact Program.wp_seq hpublish fun _ _ => aside_publishLegacy p

theorem aside_pushStatus (rfc3339 : Nat → String) (taskId : String) :
    Aside (Proc.pushStatus (N := N) rfc3339 taskId) := by
  refine ⟨trivial, fun (subs : List Subscriber) _ => ?_⟩
  show Program.wp _ _ (if subs.isEmpty = true then _ else _) _
  split
  · trivial
  · refine ⟨trivial, fun (detailed : Option DetailedTask) _ => ?_⟩
    cases detailed with
    | none => trivial
    | some detailed => exact aside_sendEach subs fun _ => ⟨trivial, fun _ _ => trivial⟩

/-- Only messages store sessions and hand on contexts. -/
theorem aside_startFrame (d : VersionDispatcher N) (rfc3339 : Nat → String) {f : Frame}
    (h : ∀ msg, f ≠ .message msg) : Aside (startFrame d rfc3339 f) := by
  have hpush (taskId : String) := aside_pushStatus (N := N) rfc3339 taskId
  cases f with
  | message msg => exact absurd rfl (h msg)
  | delete session => exact ⟨trivial, fun _ _ => ⟨trivial, fun _ _ => trivial⟩⟩
  | listChanged kind =>
      refine ⟨trivial, fun (scheduled : Bool) _ => ?_⟩
      cases scheduled with
      | true => trivial
      | false => exact ⟨trivial, fun _ _ => aside_publishAll _⟩
  | resourceUpdated uri => exact aside_publishAll _
  | closeSubscriptions => exact ⟨trivial, fun keys _ => aside_sendEach keys fun _ => trivial⟩
  | obtainInput taskId key request =>
      refine ⟨trivial, fun (rx : Option Channel) _ => ?_⟩
      cases rx with
      | none => trivial
      | some _ => exact hpush taskId
  | completeTask taskId outcome => exact ⟨trivial, fun _ _ => hpush taskId⟩
  | cancelTask taskId =>
      refine ⟨trivial, fun (known : Bool) _ => ?_⟩
      cases known with
      | false => trivial
      | true => exact hpush taskId
  | updateTask taskId responses =>
      refine ⟨trivial, fun (changed : Option Bool) _ => ?_⟩
      show Program.wp _ _ (if changed = some true then _ else _) _
      split
      · exact hpush taskId
      · trivial
  | createTask | getTask | connect | openStream | disconnect | closeReceiver =>
      exact ⟨trivial, fun _ _ => trivial⟩

/-! ### Messages -/

theorem within_sections {t : Terms} (e : Effect) (he : e.Within t) :
    Program.wp (Section.Within t) (SectionFinds t) (Proc.sections (N := N) e) (Finds t e) := by
  cases e
  case legacySubscribe => exact ⟨trivial, fun _ _ => ⟨trivial, fun _ _ => trivial⟩⟩
  case inflightCancel =>
    refine ⟨trivial, fun (found : Option Nat) _ => ?_⟩
    cases found with
    | none => trivial
    | some token => exact ⟨trivial, fun _ _ => trivial⟩
  all_goals exact ⟨he, fun r hr => hr⟩

/-- What a frame has to offer. -/
def Frame.Meets (d : VersionDispatcher N) (t : Frame → Terms) (f : Frame) : Prop :=
  ∀ msg, f = .message msg → FrameMeets d (t f) msg

theorem within_startFrame (d : VersionDispatcher N) (rfc3339 : Nat → String)
    {t : Frame → Terms} {f : Frame} (h : f.Meets d t) :
    Program.wp (Section.Within (t f)) (SectionFinds (t f)) (startFrame d rfc3339 f)
      fun _ => True := by
  by_cases hmsg : ∃ msg, f = .message msg
  · obtain ⟨msg, rfl⟩ := hmsg
    exact Program.wp_expand within_sections (within_serve (h msg rfl))
  · refine Program.wp_weaken (aside_startFrame d rfc3339 fun msg hf => hmsg ⟨msg, hf⟩) ?_ ?_
    · exact fun _ ha => ha.within
    · exact fun _ _ _ => trivial

/-! ## The store -/

/-- Every stored state is one of those `F` describes. -/
def Found (F : String → SessionState → Prop) (sessions : SessionStore) : Prop :=
  ∀ sid entry, sessions.inner.get sid = some entry → F sid entry.state

theorem found_get {F : String → SessionState → Prop} {sessions : SessionStore}
    (h : Found F sessions) (now : Nat) (sid : String) :
    Found F (sessions.get now sid).1 ∧
      ∀ state, (sessions.get now sid).2 = some state → F sid state := by
  unfold SessionStore.get
  cases hget : sessions.inner.get sid with
  | none => exact ⟨h, nofun⟩
  | some entry =>
      by_cases hexp : sessions.isExpired entry now = true
      · simp only [hexp, if_true]
        refine ⟨fun sid' entry' hget' => ?_, nofun⟩
        rw [Dict.get_remove] at hget'
        split at hget'
        · cases hget'
        · exact h sid' entry' hget'
      · simp only [hexp, Bool.false_eq_true, if_false]
        refine ⟨fun sid' entry' hget' => ?_, ?_⟩
        · rw [Dict.get_insert] at hget'
          split at hget'
          · rename_i hid
            cases hget'
            exact hid ▸ h sid entry hget
          · exact h sid' entry' hget'
        · rintro state ⟨⟩
          exact h sid entry hget

theorem found_insert {F : String → SessionState → Prop} {sessions : SessionStore}
    (h : Found F sessions) (now : Nat) (pick sid : String) {state : SessionState}
    (hstate : F sid state) : Found F (sessions.insert now pick sid state) := by
  intro sid' entry hget
  unfold SessionStore.insert at hget
  rw [Dict.get_insert] at hget
  split at hget
  · rename_i hid
    cases hget
    exact hid ▸ hstate
  · split at hget
    · rw [Dict.get_remove] at hget
      split at hget
      · cases hget
      · exact h sid' entry hget
    · exact h sid' entry hget

theorem found_setLogLevel {F : String → SessionState → Prop} {sessions : SessionStore}
    (hlevel : ∀ sid state level, F sid state → F sid { state with logLevel := some level })
    (h : Found F sessions) (now : Nat) (sid : String) (level : LogLevel) :
    Found F (sessions.setLogLevel now sid level).1 := by
  unfold SessionStore.setLogLevel
  cases hget : sessions.inner.get sid with
  | none => exact h
  | some entry =>
      intro sid' entry' hget'
      rw [Dict.get_insert] at hget'
      split at hget'
      · rename_i hid
        cases hget'
        exact hid ▸ hlevel sid entry.state level (h sid entry hget)
      · exact h sid' entry' hget'

theorem found_sessionsAfter {F : String → SessionState → Prop}
    (hlevel : ∀ sid state level, F sid state → F sid { state with logLevel := some level })
    {t : Terms} (hstores : ∀ sid state, t.stores sid state → F sid state) (c : Choice N)
    {s : Shared} {a : Section} (ha : a.Within t) (h : Found F s.sessions) :
    Found F (a.sessionsAfter c s) := by
  unfold Section.sessionsAfter
  split
  · exact (found_get h _ _).1
  · exact found_insert h _ _ _ (hstores _ _ ha)
  · exact found_setLogLevel hlevel h _ _ _
  · intro sid entry hget
    unfold SessionStore.sweepExpired at hget
    rw [Dict.get_retain] at hget
    exact h sid entry (Option.filter_eq_some_iff.mp hget).1
  · intro sid entry hget
    unfold SessionStore.remove at hget
    rw [Dict.get_remove] at hget
    split at hget
    · cases hget
    · exact h sid entry hget
  · exact h

/-! ## Runs -/

/-- The states found are as described, and every task keeps within its terms. -/
structure Sound (F : String → SessionState → Prop) (t : Frame → Terms) (P : Server N) : Prop where
  found : Found F P.shared.sessions
  threads : Threads (fun _ _ f p =>
    Program.wp (Section.Within (t f)) (SectionFinds (t f)) p fun _ => True) P

variable {d : VersionDispatcher N} {rfc3339 : Nat → String}
  {F : String → SessionState → Prop} {t : Frame → Terms}

theorem sectionFinds_of_answer {f : Frame} (hfinds : (t f).finds = F) {n : Nat} {c : Choice N}
    {s s' : Shared} {a : Section} {r : Reply N a} (h : Found F s.sessions)
    (hx : runSection n c s a = .answer r s') : SectionFinds (t f) a r := by
  cases a
  case effect e =>
    cases e
    case sessionGet sid =>
      cases hx
      intro state hstate
      rw [hfinds]
      exact (found_get h c.now sid).2 state hstate
    all_goals trivial
  all_goals trivial

theorem sound_step (hfinds : ∀ f, (t f).finds = F)
    (hstores : ∀ f sid state, (t f).stores sid state → F sid state)
    (hlevel : ∀ sid state level, F sid state → F sid { state with logLevel := some level })
    {P P' : Server N} {a : Act Frame (Choice N)} (h : (server d rfc3339).Step P a P')
    (hmeets : ∀ f, a = .spawn f → f.Meets d t) (hP : Sound F t P) : Sound F t P' := by
  obtain ⟨hfound, hthreads⟩ := hP
  constructor
  · apply shared_step (I := fun s => Found F s.sessions) h hfound
    · intro s b hI
      exact hI
    · intro n c e k r s _ hget hx
      obtain ⟨f, -, hwithin, -⟩ := hthreads n _ hget
      rw [(ran_of_answer hx).sessions]
      exact found_sessionsAfter hlevel (hstores f) c hwithin hfound
  · refine threads_step h hthreads ?_ ?_ ?_ ?_
    · intro f hf
      exact within_startFrame d rfc3339 (hmeets f hf)
    · intro s b n f p hJ
      exact hJ
    · rintro n f c e k r s _ hget _ ⟨-, hk⟩ hx
      exact hk r (sectionFinds_of_answer (hfinds f) hfound hx)
    · intro n c e k r s m f p _ _ _ _ _ _ hJ
      exact hJ

theorem sound_of_run (hfinds : ∀ f, (t f).finds = F)
    (hstores : ∀ f sid state, (t f).stores sid state → F sid state)
    (hlevel : ∀ sid state level, F sid state → F sid { state with logLevel := some level })
    {P₀ : Server N} {tr : List (Act Frame (Choice N) × Server N)} (hP₀ : Sound F t P₀)
    (hrun : Run (server d rfc3339).Step P₀ tr)
    (hmeets : ∀ x ∈ steps P₀ tr, ∀ f, x.2.1 = .spawn f → f.Meets d t) :
    ∀ P ∈ states P₀ tr, Sound F t P :=
  hrun.invariant_of_guard (G := fun _ a => ∀ f, a = .spawn f → f.Meets d t) hmeets hP₀
    fun _ _ _ h hmeets hP => sound_step hfinds hstores hlevel h hmeets hP

/-- **Within terms**: in a run whose frames meet theirs, every section a task
performs is within those of its frame. -/
theorem Sound.within {P : Server N} (h : Sound F t P) {n : Nat} {f : Frame} {a : Section}
    {k : Reply N a → Proc N Unit} (hget : P.threads.get n = some (.call a k))
    (hborn : P.born[n]? = some f) : a.Within (t f) := by
  obtain ⟨f', hf', hwithin, -⟩ := h.threads n _ hget
  rw [hborn] at hf'
  cases hf'
  exact hwithin

end TurboMcp.System
