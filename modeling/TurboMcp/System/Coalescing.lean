import TurboMcp.Lib.Courses
import TurboMcp.System.Streams

/-!
# Coalesced list changes

`schedule_list_changed` raises a flag for its kind; the first call spawns a
flush, which sleeps through its window, lowers the flag, and only then looks who
is to be told.  A call that finds the flag raised is absorbed: a flush still
sleeps, and looks later.
-/

namespace TurboMcp.System

open TurboMcp.Core TurboMcp.Lib TurboMcp.Server TurboMcp.ExtTasks TurboMcp.Service

variable {N : Type} {d : VersionDispatcher N} {rfc3339 : Nat → String}

/-! ## Flushes -/

/-- What `schedule_list_changed` spawns, from its window on. -/
def Proc.flush (kind : ListChangedKind) : Proc N Unit := do
  Proc.tell (.pendingClear kind)
  Proc.publishAll (.listChanged kind)

theorem scheduleListChanged_eq (kind : ListChangedKind) :
    (Proc.scheduleListChanged kind : Proc N Unit) =
      .call (.pendingSwap kind) fun (scheduled : Bool) =>
        if scheduled then .ret () else Proc.flush kind := rfl

theorem flush_eq (kind : ListChangedKind) :
    (Proc.flush kind : Proc N Unit) =
      .call (.pendingClear kind) fun _ => Proc.publishAll (.listChanged kind) := rfl

/-- Thread `n` is a flush in its coalescing window. -/
def Waits (P : Server N) (kind : ListChangedKind) (n : Nat) : Prop :=
  P.threads.get n = some (Proc.flush kind)

/-! ## Who handles the flags -/

/-- A section that neither raises nor lowers a flag. -/
def Section.Unflagged : Section → Prop
  | .pendingSwap _ | .pendingClear _ => False
  | _ => True

abbrev Unflagged {α : Type} (p : Proc N α) : Prop :=
  Program.wp Section.Unflagged (fun _ _ => True) p fun _ => True

/-- What a task may still have to do. -/
inductive FlagsIn : Proc N Unit → Prop
  | calling (kind : ListChangedKind) : FlagsIn (Proc.scheduleListChanged kind)
  | waiting (kind : ListChangedKind) : FlagsIn (Proc.flush kind)
  | unflagged {p : Proc N Unit} (h : Unflagged p) : FlagsIn p

theorem unflagged_publishAll (p : Publication) : Unflagged (Proc.publishAll (N := N) p) := by
  refine Program.wp_seq (Q := fun _ => True) ?_ fun _ _ => ?_
  · exact Proc.wp_publish trivial (fun _ => trivial) (fun _ _ => trivial) fun _ _ => trivial
  · exact Proc.wp_publishLegacy trivial (fun _ => trivial) fun _ => trivial

theorem unflagged_sections (e : Effect) : Unflagged (Proc.sections (N := N) e) := by
  cases e
  case legacySubscribe sid connection uri =>
    exact ⟨trivial, fun _ _ => ⟨trivial, fun _ _ => trivial⟩⟩
  case inflightCancel connection id =>
    refine ⟨trivial, fun (found : Option Nat) _ => ?_⟩
    cases found with
    | none => trivial
    | some token => exact ⟨trivial, fun _ _ => trivial⟩
  all_goals exact ⟨trivial, fun _ _ => trivial⟩

theorem unflagged_serve (d : VersionDispatcher N) (msg : JsonRpcMessage) :
    Unflagged ((serve d msg).expand Proc.sections) := by
  have himpl (e : Effect) (_ : True) : Program.wp Section.Unflagged (fun _ _ => True)
      (Proc.sections (N := N) e) fun _ => True := unflagged_sections e
  exact Program.wp_expand (C := fun _ => True) (A := fun _ _ => True) himpl
    (Program.wp_of_forall (fun _ => trivial) (fun _ => trivial) _)

/-- Only a list change handles a flag. -/
theorem start_flags (d : VersionDispatcher N) (rfc3339 : Nat → String) (f : Frame) :
    (∃ kind, startFrame d rfc3339 f = Proc.scheduleListChanged kind) ∨
      Unflagged (startFrame d rfc3339 f) := by
  have hpush (taskId : String) : Unflagged (Proc.pushStatus (N := N) rfc3339 taskId) :=
    Proc.wp_pushStatus trivial trivial (fun _ => trivial) (fun _ _ => trivial) fun _ => trivial
  cases f with
  | message msg => exact Or.inr (unflagged_serve d msg)
  | delete session => exact Or.inr ⟨trivial, fun _ _ => ⟨trivial, fun _ _ => trivial⟩⟩
  | listChanged kind => exact Or.inl ⟨kind, rfl⟩
  | resourceUpdated uri => exact Or.inr (unflagged_publishAll _)
  | closeSubscriptions =>
      refine Or.inr ⟨trivial, fun (keys : List SubscriptionKey) _ => ?_⟩
      exact Proc.wp_sendEach keys (fun _ => trivial) (fun _ => trivial) fun _ => trivial
  | createTask ttl poll => exact Or.inr ⟨trivial, fun _ _ => trivial⟩
  | obtainInput taskId key request =>
      refine Or.inr ⟨trivial, fun (rx : Option Channel) _ => ?_⟩
      cases rx with
      | none => trivial
      | some _ => exact hpush taskId
  | completeTask taskId outcome => exact Or.inr ⟨trivial, fun _ _ => hpush taskId⟩
  | getTask taskId => exact Or.inr ⟨trivial, fun _ _ => trivial⟩
  | cancelTask taskId =>
      refine Or.inr ⟨trivial, fun (known : Bool) _ => ?_⟩
      cases known with
      | false => trivial
      | true => exact hpush taskId
  | updateTask taskId responses =>
      refine Or.inr ⟨trivial, fun (changed : Option Bool) _ => ?_⟩
      show Program.wp _ _ (if changed = some true then _ else _) _
      split
      · exact hpush taskId
      · trivial
  | connect => exact Or.inr ⟨trivial, fun _ _ => trivial⟩
  | openStream session => exact Or.inr ⟨trivial, fun _ _ => trivial⟩
  | disconnect connection => exact Or.inr ⟨trivial, fun _ _ => trivial⟩
  | closeReceiver connection => exact Or.inr ⟨trivial, fun _ _ => trivial⟩

/-- A section on a flag says what is left of its task. -/
theorem FlagsIn.swap {kind : ListChangedKind} {k : Reply N (.pendingSwap kind) → Proc N Unit}
    (h : FlagsIn (.call (.pendingSwap kind) k)) :
    k = fun (scheduled : Bool) => if scheduled then .ret () else Proc.flush kind := by
  generalize hp : (Program.call (.pendingSwap kind) k : Proc N Unit) = p at h
  cases h with
  | calling kind' =>
      rw [scheduleListChanged_eq] at hp
      injection hp with hkind hk
      injection hkind with hkind
      subst hkind
      exact hk
  | waiting kind' => cases hp
  | unflagged h =>
      subst hp
      exact absurd h.1 id

theorem FlagsIn.clear {kind : ListChangedKind} {k : Reply N (.pendingClear kind) → Proc N Unit}
    (h : FlagsIn (.call (.pendingClear kind) k)) :
    k = fun _ => Proc.publishAll (.listChanged kind) := by
  generalize hp : (Program.call (.pendingClear kind) k : Proc N Unit) = p at h
  cases h with
  | calling kind' => cases hp
  | waiting kind' =>
      rw [flush_eq] at hp
      injection hp with hkind hk
      injection hkind with hkind
      subst hkind
      exact hk
  | unflagged h =>
      subst hp
      exact absurd h.1 id

/-- Any other section leaves a task that handles no flag. -/
theorem FlagsIn.other {a : Section} {k : Reply N a → Proc N Unit} (h : FlagsIn (.call a k))
    (ha : a.Unflagged) (r : Reply N a) : Unflagged (k r) := by
  generalize hp : (Program.call a k : Proc N Unit) = p at h
  cases h with
  | calling kind =>
      cases hp
      exact absurd ha id
  | waiting kind =>
      cases hp
      exact absurd ha id
  | unflagged h =>
      subst hp
      exact h.2 r trivial

theorem not_flush_of_unflagged {p : Proc N Unit} (h : Unflagged p) (kind : ListChangedKind) :
    p ≠ Proc.flush kind := by
  rintro rfl
  exact h.1

/-! ## What sections do to the flags -/

theorem pending_of_answer {n : Nat} {c : Choice N} {s s' : Shared} {a : Section} {r : Reply N a}
    (h : runSection n c s a = .answer r s') (ha : a.Unflagged) : s'.pending = s.pending := by
  cases a
  case effect e =>
    cases e
    case legacyTouch | legacyRemove | legacyUnsubscribe =>
      obtain ⟨-, h⟩ := withRoutes_eq_answer h
      cases h
      rfl
    case send | onSubscribe =>
      simp only [runSection, runEffect] at h
      split at h <;> cases h <;> rfl
    all_goals
      cases h
      rfl
  case insertUri sid uri =>
    obtain ⟨-, h⟩ := withRoutes_eq_answer h
    split at h <;> cases h
    rfl
  case legacyTargets p =>
    obtain ⟨-, h⟩ := withRoutes_eq_answer h
    cases h
    rfl
  case openStream session =>
    simp only [runSection] at h
    split at h <;> cases h <;> rfl
  case pendingSwap kind => exact absurd ha id
  case pendingClear kind => exact absurd ha id
  all_goals
    cases h
    rfl

theorem pending_of_panic {n : Nat} {c : Choice N} {s s' : Shared} {a : Section}
    (h : runSection n c s a = .panic s') : s'.pending = s.pending := by
  rw [eq_of_panic h]

/-! ## The invariant -/

/-- A flag is raised just when one flush of its kind waits. -/
structure Windows (P : Server N) : Prop where
  tasks : Threads (fun _ _ _ p => FlagsIn p) P
  nodup : P.shared.pending.Nodup
  raised : ∀ kind ∈ P.shared.pending, ∃ n, Waits P kind n
  waiting : ∀ kind n, Waits P kind n → kind ∈ P.shared.pending
  sole : ∀ kind n m, Waits P kind n → Waits P kind m → n = m

theorem windows_init (sessions : SessionStore) (taskCapacity : Nat) :
    Windows (Pool.init (Shared.init sessions taskCapacity) : Server N) where
  tasks := nofun
  nodup := List.nodup_nil
  raised := nofun
  waiting := nofun
  sole := nofun

/-- The flags and the waiting flushes are as they were. -/
theorem Windows.same {P P' : Server N} (h : Windows P)
    (htasks : Threads (fun _ _ _ p => FlagsIn p) P')
    (hpending : P'.shared.pending = P.shared.pending)
    (hwaits : ∀ kind n, Waits P' kind n ↔ Waits P kind n) : Windows P' where
  tasks := htasks
  nodup := by
    rw [hpending]
    exact h.nodup
  raised kind hkind := by
    rw [hpending] at hkind
    obtain ⟨n, hn⟩ := h.raised kind hkind
    exact ⟨n, (hwaits kind n).mpr hn⟩
  waiting kind n hn := by
    rw [hpending]
    exact h.waiting kind n ((hwaits kind n).mp hn)
  sole kind n m hn hm := h.sole kind n m ((hwaits kind n).mp hn) ((hwaits kind m).mp hm)

theorem FlagsIn.next {a : Section} {k : Reply N a → Proc N Unit} (h : FlagsIn (.call a k))
    (r : Reply N a) : FlagsIn (k r) := by
  cases a
  case pendingSwap kind =>
    rw [h.swap]
    have hbranch (scheduled : Bool) :
        FlagsIn (if scheduled then .ret () else Proc.flush kind : Proc N Unit) := by
      cases scheduled with
      | true => exact .unflagged trivial
      | false => exact .waiting kind
    exact hbranch r
  case pendingClear kind =>
    rw [h.clear]
    exact .unflagged (unflagged_publishAll _)
  all_goals exact .unflagged (h.other trivial r)

theorem flagsIn_step {P P' : Server N} {a : Act Frame (Choice N)}
    (h : (server d rfc3339).Step P a P') (hP : Threads (fun _ _ _ p => FlagsIn p) P) :
    Threads (fun _ _ _ p => FlagsIn p) P' := by
  refine threads_step h hP ?_ ?_ ?_ ?_
  · intro f _
    rcases start_flags d rfc3339 f with ⟨kind, hf⟩ | hf
    · rw [hf]
      exact .calling kind
    · exact .unflagged hf
  · intro s b n f p hJ
    exact hJ
  · intro n f c e k r s _ _ _ hJ _
    exact hJ.next r
  · intro n c e k r s m f p _ _ _ _ _ _ hJ
    exact hJ

/-- A task is no flush of the kind. -/
theorem FlagsIn.ne_flush {a : Section} {k : Reply N a → Proc N Unit} (h : FlagsIn (.call a k))
    (ha : a.Unflagged) (r : Reply N a) (kind : ListChangedKind) : k r ≠ Proc.flush kind :=
  not_flush_of_unflagged (h.other ha r) kind

theorem waits_resumed {P : Server N} {n : Nat} {s : Shared} {p : Proc N Unit}
    {kind : ListChangedKind} {m : Nat} :
    Waits (P.resumed n s p) kind m ↔ if n = m then p = Proc.flush kind else Waits P kind m := by
  unfold Waits
  rw [Pool.get_resumed]
  split
  · exact Option.some_inj
  · exact Iff.rfl

/-- A section that is not about flags leaves a task that waits for none. -/
theorem Windows.other {P : Server N} {n : Nat} {a : Section} {k : Reply N a → Proc N Unit}
    {c : Choice N} {r : Reply N a} {s : Shared} (h : Windows P)
    (htasks : Threads (fun _ _ _ p => FlagsIn p) (P.resumed n s (k r)))
    (hget : P.threads.get n = some (.call a k)) (hflags : FlagsIn (.call a k))
    (ha : a.Unflagged) (hx : runSection n c P.shared a = .answer r s) :
    Windows (P.resumed n s (k r)) := by
  refine h.same htasks (pending_of_answer hx ha) fun kind m => ?_
  rw [waits_resumed]
  split
  · rename_i hn
    subst hn
    refine iff_of_false (hflags.ne_flush ha r kind) fun hwaits => ?_
    rw [Waits, hget] at hwaits
    injection hwaits with hwaits
    rw [flush_eq] at hwaits
    injection hwaits with he _
    subst he
    exact ha
  · exact Iff.rfl

/-- A call that finds the flag raised leaves everything as it is; another starts
to wait. -/
theorem Windows.swap {P : Server N} {n : Nat} {kind : ListChangedKind}
    {k : Reply N (.pendingSwap kind) → Proc N Unit} {c : Choice N}
    {r : Reply N (.pendingSwap kind)} {s : Shared} (h : Windows P)
    (htasks : Threads (fun _ _ _ p => FlagsIn p) (P.resumed n s (k r)))
    (hget : P.threads.get n = some (.call (.pendingSwap kind) k))
    (hflags : FlagsIn (.call (.pendingSwap kind) k))
    (hx : runSection n c P.shared (.pendingSwap kind) = .answer r s) :
    Windows (P.resumed n s (k r)) := by
  have hcalling (kind' : ListChangedKind) : ¬ Waits P kind' n := by
    intro hwaits
    rw [Waits, hget] at hwaits
    cases hwaits
  rw [hflags.swap] at htasks ⊢
  cases hx
  by_cases hraised : kind ∈ P.shared.pending
  · have hcontains : P.shared.pending.contains kind = true := List.contains_iff_mem.mpr hraised
    refine h.same htasks (List.insert_of_mem hraised) fun kind' m => ?_
    rw [waits_resumed, hcontains]
    split
    · rename_i hn
      subst hn
      exact iff_of_false (fun h => by cases h) (hcalling kind')
    · exact Iff.rfl
  · have hcontains : P.shared.pending.contains kind = false :=
      Bool.eq_false_iff.mpr fun h => hraised (List.contains_iff_mem.mp h)
    have hpending : P.shared.pending.insert kind = kind :: P.shared.pending :=
      List.insert_of_not_mem hraised
    rw [hcontains] at htasks ⊢
    have hwaits (kind' : ListChangedKind) (m : Nat) :
        Waits (P.resumed n { P.shared with pending := P.shared.pending.insert kind }
          (Proc.flush kind)) kind' m ↔ if n = m then kind = kind' else Waits P kind' m := by
      rw [waits_resumed]
      split
      · refine ⟨fun heq => ?_, fun heq => by rw [heq]⟩
        rw [flush_eq, flush_eq] at heq
        injection heq with heq _
        injection heq
      · exact Iff.rfl
    refine ⟨htasks, ?_, fun kind' hkind' => ?_, fun kind' m hm => ?_, fun kind' m m' hm hm' => ?_⟩
    · show (P.shared.pending.insert kind).Nodup
      rw [hpending]
      exact List.nodup_cons.mpr ⟨hraised, h.nodup⟩
    · have hkind' : kind' ∈ P.shared.pending.insert kind := hkind'
      rw [hpending] at hkind'
      rcases List.mem_cons.mp hkind' with rfl | hkind'
      · exact ⟨n, (hwaits kind' n).mpr (by rw [if_pos rfl])⟩
      · obtain ⟨m, hm⟩ := h.raised kind' hkind'
        refine ⟨m, (hwaits kind' m).mpr ?_⟩
        rw [if_neg]
        · exact hm
        · rintro rfl
          exact hcalling kind' hm
    · show kind' ∈ P.shared.pending.insert kind
      rw [hpending]
      have hm := (hwaits kind' m).mp hm
      split at hm
      · rw [hm]
        exact List.mem_cons_self
      · exact List.mem_cons_of_mem _ (h.waiting kind' m hm)
    · have hm := (hwaits kind' m).mp hm
      have hm' := (hwaits kind' m').mp hm'
      split at hm <;> split at hm'
      · omega
      · rw [hm] at hraised
        exact absurd (h.waiting kind' m' hm') hraised
      · rw [hm'] at hraised
        exact absurd (h.waiting kind' m hm) hraised
      · exact h.sole kind' m m' hm hm'

/-- A flush whose window is over lowers its flag, and waits no longer. -/
theorem Windows.clear {P : Server N} {n : Nat} {kind : ListChangedKind}
    {k : Reply N (.pendingClear kind) → Proc N Unit} {c : Choice N}
    {r : Reply N (.pendingClear kind)} {s : Shared} (h : Windows P)
    (htasks : Threads (fun _ _ _ p => FlagsIn p) (P.resumed n s (k r)))
    (hget : P.threads.get n = some (.call (.pendingClear kind) k))
    (hflags : FlagsIn (.call (.pendingClear kind) k))
    (hx : runSection n c P.shared (.pendingClear kind) = .answer r s) :
    Windows (P.resumed n s (k r)) := by
  have hwaited : Waits P kind n := by
    rw [Waits, hget, flush_eq, hflags.clear]
  rw [hflags.clear] at htasks ⊢
  cases hx
  -- The flush goes on to publish and waits for no window; the others wait as before.
  have hwaits (kind' : ListChangedKind) (m : Nat) :
      Waits (P.resumed n { P.shared with pending := P.shared.pending.erase kind }
        (Proc.publishAll (.listChanged kind))) kind' m ↔ n ≠ m ∧ Waits P kind' m := by
    rw [waits_resumed]
    split
    · rename_i hn
      exact iff_of_false (not_flush_of_unflagged (unflagged_publishAll _) kind') (by tauto)
    · rename_i hn
      exact (and_iff_right hn).symm
  refine ⟨htasks, h.nodup.erase kind, fun kind' hkind' => ?_, fun kind' m hm₀ => ?_,
    fun kind' m m' hm hm' => ?_⟩
  · obtain ⟨hne, hmem⟩ := h.nodup.mem_erase_iff.mp hkind'
    obtain ⟨m, hm⟩ := h.raised kind' hmem
    refine ⟨m, (hwaits kind' m).mpr ⟨?_, hm⟩⟩
    rintro rfl
    rw [Waits, hwaited, flush_eq, flush_eq] at hm
    injection hm with hm
    injection hm with hm _
    injection hm with hm
    exact hne hm.symm
  · obtain ⟨hne, hm⟩ := (hwaits kind' m).mp hm₀
    refine h.nodup.mem_erase_iff.mpr ⟨?_, h.waiting kind' m hm⟩
    rintro rfl
    exact hne (h.sole kind' n m hwaited hm)
  · exact h.sole kind' m m' ((hwaits kind' m).mp hm).2 ((hwaits kind' m').mp hm').2

/-- **Step lemma**: a flag is raised with the flush it stands for, and lowered
when that flush's window is over. -/
theorem Windows.step {P P' : Server N} {a : Act Frame (Choice N)} (h : Windows P)
    (hstep : (server d rfc3339).Step P a P') : Windows P' := by
  have htasks := flagsIn_step hstep h.tasks
  have hnum := h.tasks.numbered
  cases hstep.stepped with
  | @spawn f =>
      refine h.same htasks rfl fun kind n => ?_
      unfold Waits
      rw [Pool.get_spawned]
      split
      · rename_i hn
        subst hn
        refine iff_of_false (fun heq => ?_) (fun heq => Nat.lt_irrefl _ (hnum _ _ heq))
        injection heq with heq
        change startFrame d rfc3339 f = _ at heq
        rcases start_flags d rfc3339 f with ⟨kind', hf⟩ | hf
        · rw [hf] at heq
          cases heq
        · exact not_flush_of_unflagged hf kind heq
      · exact Iff.rfl
  | @finish n c hget =>
      refine h.same htasks rfl fun kind m => ?_
      unfold Waits
      rw [Pool.get_ended]
      split
      · rename_i hn
        subst hn
        rw [hget]
        exact iff_of_false (fun h => by cases h) (fun h => by cases h)
      · exact Iff.rfl
  | @answer n c e k r s hget hx =>
      obtain ⟨f, _, hflags⟩ := h.tasks n _ hget
      -- Only the swap and the clear write a flag.
      cases e
      case pendingSwap kind => exact h.swap (c := c) htasks hget hflags hx
      case pendingClear kind => exact h.clear (c := c) htasks hget hflags hx
      all_goals exact h.other (c := c) htasks hget hflags trivial hx
  | @panic n c e k s hget hx =>
      refine h.same htasks (pending_of_panic hx) fun kind m => ?_
      unfold Waits
      rw [Pool.get_ended]
      split
      · rename_i hn
        subst hn
        rw [hget]
        refine iff_of_false (fun h => by cases h) (fun heq => ?_)
        injection heq with heq
        rw [flush_eq] at heq
        injection heq with he _
        subst he
        cases hx
      · exact Iff.rfl

/-- After a call of its kind, a flush waits. -/
theorem Windows.waits_after {P P' : Server N} {n : Nat} {c : Choice N} {kind : ListChangedKind}
    {k : Reply N (.pendingSwap kind) → Proc N Unit} (h : Windows P)
    (hstep : (server d rfc3339).Step P (.run n c) P')
    (hget : P.threads.get n = some (.call (.pendingSwap kind) k)) : ∃ m, Waits P' kind m := by
  refine (h.step hstep).raised kind ?_
  rw [hstep.resumed hget rfl]
  exact List.mem_insert_self

/-! ## What a delivery does -/

section

variable {run : Course (server d rfc3339).Step} {n : Nat} {connection session : String}
  {message : JsonRpcMessage}

/-- At `t` thread `n` enqueues the message on the connection's writer, unless its
receiving end is gone. -/
def SendsOn (run : Course (server d rfc3339).Step) (n : Nat) (connection : String)
    (message : JsonRpcMessage) (t : Nat) : Prop :=
  run.PerformedBy n (.effect (.send connection message)) t ∧
    (connection ∈ (run.state t).shared.closed ∨
      (run.state (t + 1)).shared.log =
        (run.state t).shared.log ++ [.sent n connection message])

/-- At `t` thread `n` looks for the connection's writer, and there is none. -/
def FindsGone (run : Course (server d rfc3339).Step) (n : Nat) (connection : String) (t : Nat) :
    Prop :=
  run.PerformedBy n (.effect (.writer connection)) t ∧
    Outbound.writer (run.state t).shared.writers connection = none

/-- At `t` thread `n` sends the message on the connection, or finds it gone. -/
def Reported (run : Course (server d rfc3339).Step) (n : Nat) (connection : String)
    (message : JsonRpcMessage) (t : Nat) : Prop :=
  SendsOn run n connection message t ∨ FindsGone run n connection t

/-- A legacy session is told on its `GET` stream, or else on its connection. -/
def ReportedLegacy (run : Course (server d rfc3339).Step) (n : Nat) (session connection : String)
    (message : JsonRpcMessage) (t : Nat) : Prop :=
  SendsOn run n (Outbound.sessionStreamId session) message t ∨
    FindsGone run n (Outbound.sessionStreamId session) t ∧
      (connection = "" ∨ ∃ u, t < u ∧ Reported run n connection message u)

variable {p₀ : Proc N Unit} (hnum : ∀ t, Machine.Numbered (run.state t))
  (hfair : run.FairTo (Program.LeftOf p₀))
include hnum hfair

theorem writer_answered {k : Bool → Proc N Unit} {t : Nat}
    (h : run.Left p₀ n t (.call (.effect (.writer connection)) k)) :
    ∃ u, t ≤ u ∧
      (FindsGone run n connection u ∧ run.Left p₀ n (u + 1) (k false) ∨
        run.Left p₀ n (u + 1) (k true)) := by
  obtain ⟨u, choice, r, hle, hperformed, hx, hnext⟩ :=
    h.answered hnum hfair fun choice s s' hx => by cases hx
  refine ⟨u, hle, ?_⟩
  have hr : (Outbound.writer (run.state u).shared.writers connection).isSome = r := by
    injection hx
  rw [← hr] at hnext
  cases hwriter : Outbound.writer (run.state u).shared.writers connection with
  | none =>
      rw [hwriter] at hnext
      exact .inl ⟨⟨hperformed, hwriter⟩, hnext⟩
  | some _ =>
      rw [hwriter] at hnext
      exact .inr hnext

theorem send_answered {k : Bool → Proc N Unit} {t : Nat}
    (h : run.Left p₀ n t (.call (.effect (.send connection message)) k)) :
    ∃ u sent, t ≤ u ∧ SendsOn run n connection message u ∧ run.Left p₀ n (u + 1) (k sent) := by
  have hsafe (choice : Choice N) (s s' : Shared) :
      runSection n choice s (.effect (.send connection message)) ≠ .panic s' := by
    intro hx
    rcases panicked hx with ⟨-, hroutes, -⟩ | ⟨-, ⟨_, _, hinsert, -⟩, -⟩
    · cases hroutes
    · cases hinsert
  obtain ⟨u, choice, sent, hle, hperformed, hx, hnext⟩ := h.answered hnum hfair hsafe
  refine ⟨u, sent, hle, ⟨hperformed, ?_⟩, hnext⟩
  have hran : Ran n choice _ _ (.effect (.send connection message)) :=
    ran_of_answer (N := N) (r := sent) hx
  have hlog := hran.log
  simp only [Section.events] at hlog
  split at hlog
  · exact .inl ‹_›
  · exact .inr hlog

theorem sendTo_answered {f : Bool → Proc N Unit} {t : Nat}
    (h : run.Left p₀ n t (Proc.sendTo connection message >>= f)) :
    ∃ u sent, t ≤ u ∧ Reported run n connection message u ∧ run.Left p₀ n (u + 1) (f sent) := by
  obtain ⟨u, hle, ⟨hgone, hnext⟩ | hnext⟩ := writer_answered hnum hfair h
  · exact ⟨u, false, hle, .inr hgone, hnext⟩
  · obtain ⟨v, sent, hle', hsends, hnext'⟩ := send_answered hnum hfair hnext
    exact ⟨v, sent, by omega, .inl hsends, hnext'⟩

/-- **Every target is told**, and the thread goes on. -/
theorem sendEach_answered {p : Publication} {f : Unit → Proc N Unit}
    {keys : List SubscriptionKey} {t : Nat}
    (h : run.Left p₀ n t (Proc.sendEach Prod.fst (fun key => p.notification key.2)
      Proc.unsubscribe keys >>= f)) :
    (∀ key ∈ keys, ∃ u, t ≤ u ∧ Reported run n key.1 (p.notification key.2) u) ∧
      ∃ u, t ≤ u ∧ run.Left p₀ n u (f ()) := by
  induction keys generalizing t with
  | nil => exact ⟨nofun, t, Nat.le_refl t, h⟩
  | cons key keys ih =>
      rw [Proc.sendEach, Program.bind_assoc] at h
      obtain ⟨u, sent, hle, htold, hnext⟩ := sendTo_answered hnum hfair h
      -- one that is gone is taken out first
      have hrest : ∃ v, u < v ∧ run.Left p₀ n v
          (Proc.sendEach Prod.fst (fun key => p.notification key.2)
            Proc.unsubscribe keys >>= f) := by
        cases sent with
        | true => exact ⟨u + 1, Nat.lt_succ_self u, hnext⟩
        | false =>
            obtain ⟨v, choice, r, hle', -, -, hnext'⟩ :=
              hnext.answered hnum hfair fun choice s s' hx => by cases hx
            exact ⟨v + 1, by omega, hnext'⟩
      obtain ⟨v, hlt, hleft⟩ := hrest
      obtain ⟨htargets, w, hle', hdone⟩ := ih hleft
      refine ⟨fun target htarget => ?_, w, by omega, hdone⟩
      rcases List.mem_cons.mp htarget with rfl | htarget
      · exact ⟨u, hle, htold⟩
      · obtain ⟨x, hx, htold'⟩ := htargets target htarget
        exact ⟨x, by omega, htold'⟩

theorem legacyWriter_answered {f : Option String → Proc N Unit} {t : Nat}
    (h : run.Left p₀ n t (Proc.legacyWriter session connection >>= f)) :
    ∃ u, t ≤ u ∧
      (run.Left p₀ n (u + 1) (f (some (Outbound.sessionStreamId session))) ∨
        FindsGone run n (Outbound.sessionStreamId session) u ∧
          (connection = "" ∧ run.Left p₀ n (u + 1) (f none) ∨
            ∃ v, u < v ∧
              (run.Left p₀ n (v + 1) (f (some connection)) ∨
                FindsGone run n connection v ∧ run.Left p₀ n (v + 1) (f none)))) := by
  obtain ⟨u, hle, ⟨hgone, hnext⟩ | hnext⟩ := writer_answered hnum hfair h
  · refine ⟨u, hle, .inr ⟨hgone, ?_⟩⟩
    by_cases hempty : connection = ""
    · rw [if_pos hempty] at hnext
      exact .inl ⟨hempty, hnext⟩
    · rw [if_neg hempty] at hnext
      obtain ⟨v, hlt, ⟨hgone', hnext'⟩ | hnext'⟩ := writer_answered hnum hfair hnext
      · exact .inr ⟨v, hlt, .inr ⟨hgone', hnext'⟩⟩
      · exact .inr ⟨v, hlt, .inl hnext'⟩
  · exact ⟨u, hle, .inl hnext⟩

/-- Every legacy session is told where it can be. -/
theorem sendLegacy_answered {routes : List (String × String)} {t : Nat}
    (h : run.Left p₀ n t (Proc.sendLegacy message routes)) :
    ∀ route ∈ routes, ∃ u, t ≤ u ∧ ReportedLegacy run n route.1 route.2 message u := by
  induction routes generalizing t with
  | nil => exact nofun
  | cons route routes ih =>
      obtain ⟨session, connection⟩ := route
      have hnow : ∃ u, t ≤ u ∧ ReportedLegacy run n session connection message u ∧
          ∃ v, u < v ∧ run.Left p₀ n v (Proc.sendLegacy message routes) := by
        obtain ⟨u, hle, hstream | ⟨hgone, ⟨hempty, hnext⟩ | ⟨v, hlt, hlive | ⟨hgone', hnext⟩⟩⟩⟩ :=
          legacyWriter_answered hnum hfair h
        · obtain ⟨v, sent, hle', hsends, hnext⟩ := send_answered hnum hfair hstream
          exact ⟨v, by omega, .inl hsends, v + 1, Nat.lt_succ_self v, hnext⟩
        · exact ⟨u, hle, .inr ⟨hgone, .inl hempty⟩, u + 1, Nat.lt_succ_self u, hnext⟩
        · obtain ⟨w, sent, hle', hsends, hnext⟩ := send_answered hnum hfair hlive
          exact ⟨u, hle, .inr ⟨hgone, .inr ⟨w, by omega, .inl hsends⟩⟩, w + 1, by omega, hnext⟩
        · exact ⟨u, hle, .inr ⟨hgone, .inr ⟨v, hlt, .inr hgone'⟩⟩, v + 1, by omega, hnext⟩
      obtain ⟨u, hle, htold, v, hlt, hnext⟩ := hnow
      intro target htarget
      rcases List.mem_cons.mp htarget with rfl | htarget
      · exact ⟨u, hle, htold⟩
      · obtain ⟨x, hx, htold'⟩ := ih hnext target htarget
        exact ⟨x, by omega, htold'⟩

end

/-! ## Every call is published -/

/-- At `t` thread `n` looks who is to be told of the list change: all registered
subscriptions that want its kind. It tells each of them. -/
structure Publishes (run : Course (server d rfc3339).Step) (kind : ListChangedKind) (n t : Nat)
    (keys : List SubscriptionKey) : Prop where
  looks : run.PerformedBy n (.targets (.listChanged kind)) t
  found : (run.state (t + 1)).threads.get n = some (do
    Proc.sendEach Prod.fst (fun key => (Publication.listChanged kind).notification key.2)
      Proc.unsubscribe keys
    Proc.publishLegacy (.listChanged kind))
  all : ∀ key, key ∈ keys ↔
    ∃ filter, (run.state t).shared.subscriptions.get key = some filter ∧ kind.wants filter = true
  told : ∀ key ∈ keys, ∃ u, t < u ∧
    Reported run n key.1 ((Publication.listChanged kind).notification key.2) u

/-- At `t` thread `n` looks up the legacy sessions: all that have a route, unless
another thread died with the lock. It tells each of them. -/
structure PublishesLegacy (run : Course (server d rfc3339).Step) (kind : ListChangedKind)
    (n t : Nat) : Prop where
  looks : run.PerformedBy n (.legacyTargets (.listChanged kind)) t
  told : (run.state t).shared.poisoned = false →
    ∀ session route, (run.state t).shared.routes.get session = some route →
      ∃ u, t < u ∧ ReportedLegacy run n session route.connection
        (Publication.listChanged kind).legacyNotification u

section

variable {run : Course (server d rfc3339).Step}

/-- A flush that waits publishes, its window over. -/
theorem publishes_of_waits (hnum : ∀ t, Machine.Numbered (run.state t)) {kind : ListChangedKind}
    (hfair : run.FairTo (Program.LeftOf (Proc.flush kind))) {t n : Nat}
    (hwaits : Waits (run.state t) kind n) :
    ∃ u keys, t ≤ u ∧ Publishes run kind n u keys ∧
      ∃ v, u < v ∧ PublishesLegacy run kind n v := by
  have hstart : run.Left (Proc.flush kind) n t
      (.call (.pendingClear kind) fun _ => Proc.publishAll (.listChanged kind)) :=
    ⟨hwaits, .start⟩
  obtain ⟨s, -, -, hle, -, -, hcleared⟩ :=
    hstart.answered hnum hfair fun choice s s' hx => by cases hx
  obtain ⟨u, choice, keys, hle', hlooks, hx, hfound⟩ :=
    hcleared.answered hnum hfair fun choice s s' hx => by cases hx
  have hkeys : (run.state u).shared.subscriptions.targets (.listChanged kind) = keys := by
    injection hx
  obtain ⟨htold, w, hle'', hlegacy⟩ := sendEach_answered hnum hfair hfound
  refine ⟨u, keys, by omega, ⟨hlooks, hfound.get, fun key => ?_, htold⟩, ?_⟩
  · rw [← hkeys]
    exact Subscriptions.mem_targets
  obtain ⟨v, hle₃, hlooks', hget⟩ := hlegacy.performs hnum hfair
  refine ⟨v, by omega, hlooks', fun hsound session route hroute => ?_⟩
  -- the lock is sound, so its holder answers
  obtain ⟨choice, hlabel⟩ := hlooks'.1
  have hx : runSection n choice (run.state v).shared (.legacyTargets (.listChanged kind)) =
      .answer ((run.state v).shared.routes.targets (.listChanged kind)) (run.state v).shared := by
    simp [runSection, withRoutes, hsound]
  have hnext := (run.moves v _ hlabel).resumed hget hx
  have hleft : run.Left (Proc.flush kind) n (v + 1)
      (Proc.sendLegacy (Publication.listChanged kind).legacyNotification
        ((run.state v).shared.routes.targets (.listChanged kind))) := by
    refine ⟨?_, .answered hlegacy.left _⟩
    rw [hnext, Pool.get_resumed, if_pos rfl]
    rfl
  exact sendLegacy_answered hnum hfair hleft (session, route.connection)
    (LegacyRoutes.mem_targets.mpr ⟨route, hroute, rfl, rfl⟩)

theorem windows_course {sessions : SessionStore} {taskCapacity : Nat}
    (hstart : run.state 0 = Pool.init (Shared.init sessions taskCapacity)) (t : Nat) :
    Windows (run.state t) := by
  refine run.invariant ?_ (fun _ _ _ hstep h => h.step hstep) t
  rw [hstart]
  exact windows_init sessions taskCapacity

end

/-- **No list change is lost**: on every course of the server no two flushes of a
kind wait at once, and where what is left of a flush gets its turns, every call is
followed by a publish of its kind.  It looks up who is to be told after the call,
and tells all of them, draft and legacy. -/
theorem list_changes_coalesced (d : VersionDispatcher N) (rfc3339 : Nat → String)
    (sessions : SessionStore) (taskCapacity : Nat) (run : Course (server d rfc3339).Step)
    (hstart : run.state 0 = Pool.init (Shared.init sessions taskCapacity)) :
    (∀ t kind n m, Waits (run.state t) kind n → Waits (run.state t) kind m → n = m) ∧
      ∀ t kind, run.Performs (.pendingSwap kind) t →
        run.FairTo (Program.LeftOf (Proc.flush kind)) →
          ∃ n u keys, t < u ∧ Publishes run kind n u keys ∧
            ∃ v, u < v ∧ PublishesLegacy run kind n v := by
  have hinv := windows_course hstart
  have hnum (t : Nat) : Machine.Numbered (run.state t) := (hinv t).tasks.numbered
  refine ⟨fun t kind n m hn hm => (hinv t).sole kind n m hn hm, ?_⟩
  rintro t kind ⟨n, k, ⟨c, hlabel⟩, hget⟩ hfair
  obtain ⟨m, hwaits⟩ := (hinv t).waits_after (run.moves t _ hlabel) hget
  obtain ⟨u, keys, hle, hpublishes⟩ := publishes_of_waits hnum hfair hwaits
  exact ⟨m, u, keys, by omega, hpublishes⟩

/-! ## A burst of two -/

/-- A subscription to list changes, and two calls in one window: the second is
absorbed. -/
def burst : List (Act Frame (Choice Unit)) :=
  [.spawn .connect, .run 0 (.declined "c"), .run 0 (.declined ""),
    .spawn (.message (.request (listenCall "c" 7 [] [("toolsListChanged", .bool true)])))] ++
  List.replicate 8 (.run 1 (.declined "")) ++
  [.spawn (.listChanged .tools), .run 2 (.declined ""), .spawn (.listChanged .tools),
    .run 3 (.declined ""), .run 3 (.declined "")] ++
  List.replicate 6 (.run 2 (.declined ""))

def idle : Server Unit := Pool.init (Shared.init (SessionStore.withCapacity 8) 8)

/-- The states of the burst. -/
def burstState (t : Nat) : Server Unit :=
  final idle ((trace (server taskServer fun _ => "").act idle burst).take t)

theorem subscribed_since {t : Nat} (ht : 15 < t) :
    ∃ filter, (burstState t).shared.subscriptions.get ("c", .number 7) = some filter ∧
      ListChangedKind.tools.wants filter = true := by
  have hwhile : ∀ u < 24, 15 < u →
      ((burstState u).shared.subscriptions.get ("c", .number 7)).any
        ListChangedKind.tools.wants = true := by
    decide +kernel
  have hany : ((burstState t).shared.subscriptions.get ("c", .number 7)).any
      ListChangedKind.tools.wants = true := by
    by_cases hend : t < 24
    · exact hwhile t hend ht
    · -- the burst is over
      have hover : burstState t = burstState 23 := by
        have hlength : (trace (server taskServer fun _ => "").act idle burst).length = 23 := rfl
        unfold burstState
        rw [List.take_of_length_le (by omega), List.take_of_length_le (by omega)]
      rw [hover]
      exact hwhile 23 (by decide) (by decide)
  exact (Option.any_eq_true ..).mp hany

/-- The second call of a burst is published, to the subscription. -/
theorem burst_published :
    ∃ run : Course (server taskServer fun _ => "").Step,
      run.Performs (.pendingSwap .tools) 15 ∧ ∃ n u keys, 15 < u ∧
        Publishes run .tools n u keys ∧ ("c", .number 7) ∈ keys := by
  have hchecked : checked (server taskServer fun _ => "").act
      (fun P a => ((server taskServer fun _ => "").step P a).isSome) idle burst = true := by
    decide +kernel
  have hrun := run_trace_of_checked (fun _ _ h => Machine.step_act h) hchecked
  have hkeys : (final idle (trace (server taskServer fun _ => "").act idle burst)
      ).threads.keys = [] := by
    decide +kernel
  let run := Course.ofRun idle _ hrun
  have hcall : run.Performs (.pendingSwap .tools) 15 := ⟨3, _, ⟨.declined "", rfl⟩, rfl⟩
  have hfair : run.FairTo (Program.LeftOf (Proc.flush .tools)) := by
    refine Course.fairTo_ofRun (fun t => (windows_course rfl t).tasks.numbered) fun n p hget => ?_
    have hkey := (Dict.mem_keys ..).mpr (Option.isSome_of_eq_some hget)
    rw [hkeys] at hkey
    cases hkey
  obtain ⟨n, u, keys, hlt, hpublishes, -⟩ := (list_changes_coalesced taskServer (fun _ => "")
    (SessionStore.withCapacity 8) 8 run rfl).2 15 .tools hcall hfair
  exact ⟨run, hcall, n, u, keys, hlt, hpublishes,
    (hpublishes.all _).mpr (subscribed_since hlt)⟩

end TurboMcp.System
