import Mathlib.Data.List.NodupEquivFin
import TurboMcp.System.Recording

/-!
# Graceful close

`close_all` drains the registry and answers what it drained, one after another:
each listen request at most once, and each whose connection is reachable exactly
once.  A request that has been acknowledged and is recorded only after the drain
is never answered.
-/

namespace TurboMcp.System

open TurboMcp.Core TurboMcp.Lib TurboMcp.Server TurboMcp.ExtTasks TurboMcp.Service

variable {N : Type} {d : VersionDispatcher N} {rfc3339 : Nat → String} {key : SubscriptionKey}
  {frames : Nat → Option Frame} {budget : Nat}

/-- How often a listen request has been answered. -/
def answers (log : List Event) (key : SubscriptionKey) : Nat :=
  (streamed log key).count (closeResponse key.2)

/-- The tasks for which `close_all` was called are one. -/
def ClosedOnce (frames : Nat → Option Frame) : Prop :=
  ∀ n m, frames n = some .closeSubscriptions → frames m = some .closeSubscriptions → n = m

/-! ## The closing task -/

/-- A section of a delivery. -/
def Section.Delivering : Section → Prop
  | .effect (.writer _) | .effect (.send _ _) => True
  | _ => False

/-- The task only delivers any more. -/
abbrev Delivers (p : Proc N Unit) : Prop :=
  Program.wp Section.Delivering (fun _ _ => True) p fun _ => True

theorem delivers_sendEach {T : Type} {connection : T → String} {message : T → JsonRpcMessage}
    (ts : List T) :
    Delivers (Proc.sendEach (N := N) connection message (fun _ => pure ()) ts) := by
  induction ts with
  | nil => trivial
  | cons t ts ih =>
      refine ⟨trivial, fun (live : Bool) _ => ?_⟩
      cases live with
      | false => exact ih
      | true =>
          refine ⟨trivial, fun (sent : Bool) _ => ?_⟩
          cases sent with
          | true => exact ih
          | false => exact ih

/-- Where a closing task stands: not begun, or answering what it drained, with
at most `budget` answers to the listen request in all. -/
inductive ClosingAt (key : SubscriptionKey) (budget : Nat) (log : List Event) (q : Known) :
    Proc N Unit → Prop
  | begun {k : Reply N .drain → Proc N Unit} (hk : ∀ keys, Delivers (k keys))
      (hlog : ¬ Drained log) (hq : q.drained = []) : ClosingAt key budget log q (.call .drain k)
  | answering {p : Proc N Unit} (hp : Delivers p) (hlog : Drained log)
      (hcount : q.drained.count key + answers log key ≤ budget) : ClosingAt key budget log q p

/-- What holds of every task: only a closing one answers. -/
structure Answering (key : SubscriptionKey) (budget : Nat) (log : List Event) (f : Frame)
    (q : Known) (p : Proc N Unit) : Prop where
  keeps : Keeps q p
  others : f ≠ .closeSubscriptions → q.drained = []
  closing : f = .closeSubscriptions → ClosingAt key budget log q p

/-! ## Answering -/

theorem mem_drained_of_maySend {q : Known} {connection : String} {m : JsonRpcMessage}
    {id : RequestId} (h : q.MaySend connection m) (hm : m = closeResponse id) :
    (connection, id) ∈ q.drained := by
  cases h with
  | acknowledgement id filters => cases hm
  | unstamped h => cases hm
  | notification h hid => cases hm
  | closeResponse h =>
      obtain rfl := closeResponse_injective hm
      exact h

theorem answers_of_answer {n : Nat} {c : Choice N} {s s' : Shared} {a : Section} {r : Reply N a}
    (h : runSection n c s a = .answer r s') (key : SubscriptionKey) :
    answers s'.log key =
      answers s.log key + (a.streams s key).count (closeResponse key.2) := by
  rw [answers, answers, streamed_of_answer h, List.count_append]

/-- **The budget**: an answer uses up one drained entry. -/
theorem count_drainedAfter_le {n : Nat} {c : Choice N} {s s' : Shared} {a : Section}
    {r : Reply N a} (h : runSection n c s a = .answer r s') {q : Known}
    (hallows : sectionAllows q a) (hdrain : a ≠ .drain) :
    (drainedAfter q.drained a r).count key + answers s'.log key ≤
      q.drained.count key + answers s.log key := by
  rw [answers_of_answer h]
  have hcount : (drainedAfter q.drained a r).count key +
      (a.streams s key).count (closeResponse key.2) ≤ q.drained.count key := by
    by_cases hm : closeResponse key.2 ∈ a.streams s key
    · obtain ⟨rfl, hid, hopen⟩ := mem_streams.mp hm
      have hmem := mem_drained_of_maySend hallows.2 rfl
      have hafter : drainedAfter q.drained (.effect (.send key.1 (closeResponse key.2))) r =
          q.drained.erase key :=
        drainedAfter_closeResponse (N := N) q.drained key.1 key.2 r
      rw [hafter, List.count_erase_self]
      have hpos : 0 < q.drained.count key := List.count_pos_iff.mpr hmem
      have hstreams : (Section.effect (.send key.1 (closeResponse key.2))).streams s key =
          [closeResponse key.2] := if_pos ⟨rfl, hid, hopen⟩
      rw [hstreams, List.count_singleton_self]
      omega
    · rw [List.count_eq_zero_of_not_mem hm, Nat.add_zero]
      unfold drainedAfter
      split
      · exact absurd rfl hdrain
      · exact List.Sublist.count_le _ List.eraseP_sublist
      · exact Nat.le_refl _
  omega

theorem drained_of_answer {n : Nat} {c : Choice N} {s s' : Shared} {a : Section} {r : Reply N a}
    (h : runSection n c s a = .answer r s') : Drained s'.log ↔ Drained s.log ∨ a = .drain := by
  rw [(ran_of_answer h).log]
  constructor
  · rintro ⟨m, hm⟩
    rcases List.mem_append.mp hm with hm | hm
    · exact Or.inl ⟨m, hm⟩
    · refine Or.inr ?_
      have hstatus {before after : DraftTaskStore} {taskId : String}
          (h : .drained m ∈ statusEvent before after taskId) : False := by
        unfold statusEvent at h
        split at h
        · cases h
        · split at h
          · cases h
          · rw [List.mem_singleton] at h
            cases h
      unfold Section.events at hm
      split at hm
      · rw [List.mem_singleton] at hm
        cases hm
      · rw [List.mem_singleton] at hm
        cases hm
      · split at hm
        · cases hm
        · rw [List.mem_singleton] at hm
          cases hm
      · rfl
      · exact absurd hm hstatus
      · exact absurd hm hstatus
      · cases hm
  · rintro (h | rfl)
    · exact h.append _
    · exact ⟨n, List.mem_append_right _ (List.mem_singleton_self _)⟩

/-! ## Within the budget -/

/-- What is answered stays within the budget. -/
structure Within (key : SubscriptionKey) (budget : Nat) (P : Server N) : Prop where
  tasks : Threads (fun s _ f p => ∃ q, Answering key budget s.log f q p) P
  count : answers P.shared.log key ≤ budget
  undrained : ¬ Drained P.shared.log → answers P.shared.log key = 0
  unborn : .closeSubscriptions ∉ P.born → ¬ Drained P.shared.log

theorem within_init (sessions : SessionStore) (taskCapacity budget : Nat) :
    Within key budget (Pool.init (Shared.init sessions taskCapacity) : Server N) := by
  refine ⟨nofun, Nat.zero_le _, fun _ => rfl, fun _ => ?_⟩
  rintro ⟨n, hn⟩
  cases hn

section

variable {n : Nat} {c : Choice N} {s s' : Shared} {a : Section} {r : Reply N a} {f : Frame}
  {q : Known} {e : Entitled}

variable (key) in
/-- A task other than a closing one answers nothing, and drains nothing. -/
theorem answers_of_other (h : runSection n c s a = .answer r s') (hallows : sectionAllows q a)
    (hrole : frameAllows f e a) (hf : f ≠ .closeSubscriptions) (hq : q.drained = []) :
    answers s'.log key = answers s.log key ∧ (Drained s'.log → Drained s.log) := by
  have hdrain : a ≠ .drain := by
    rintro rfl
    exact hf hrole.2
  constructor
  · rw [answers_of_answer h]
    rw [List.count_eq_zero_of_not_mem, Nat.add_zero]
    intro hm
    obtain ⟨rfl, -, -⟩ := mem_streams.mp hm
    have hmem := mem_drained_of_maySend hallows.2 rfl
    rw [hq] at hmem
    cases hmem
  · intro hdrained
    exact ((drained_of_answer h).mp hdrained).resolve_right hdrain

theorem drainedAfter_nil (hdrain : a ≠ .drain) : drainedAfter (N := N) [] a r = [] := by
  unfold drainedAfter
  split
  · exact absurd rfl hdrain
  · rfl
  · rfl

/-- **One section of a closing task** stays within the budget. -/
theorem closingAt_after {k : Reply N a → Proc N Unit} (h : runSection n c s a = .answer r s')
    (hallows : sectionAllows q a) (hclosing : ClosingAt key budget s.log q (.call a k))
    (hundrained : ¬ Drained s.log → answers s.log key = 0)
    (hbudget : ¬ Drained s.log → s.subscriptions.keys.count key ≤ budget) :
    ClosingAt key budget s'.log ((sectionProtocol N).after q a r) (k r) := by
  cases hclosing with
  | begun hk hlog hq =>
      refine .answering (hk r) ((drained_of_answer h).mpr (Or.inr rfl)) ?_
      rw [answers_of_answer h, hundrained hlog]
      cases h
      show (q.drained ++ s.subscriptions.keys).count key + _ ≤ budget
      rw [hq, List.nil_append]
      exact hbudget hlog
  | answering hp hlog hcount =>
      have hdrain : a ≠ .drain := by
        rintro rfl
        exact hp.1
      refine .answering (hp.2 r trivial) ((drained_of_answer h).mpr (Or.inl hlog)) ?_
      exact Nat.le_trans (count_drainedAfter_le h hallows hdrain) hcount

theorem ClosingAt.count_le {p : Proc N Unit} (h : ClosingAt key budget s.log q p)
    (hundrained : ¬ Drained s.log → answers s.log key = 0) : answers s.log key ≤ budget := by
  cases h with
  | begun hk hlog hq =>
      rw [hundrained hlog]
      exact Nat.zero_le _
  | answering hp hlog hcount => exact Nat.le_trans (Nat.le_add_left _ _) hcount

end

theorem begun_closeAll {log : List Event} (hlog : ¬ Drained log) :
    ClosingAt key budget log Known.none (Proc.closeAll (N := N)) :=
  .begun (fun keys => delivers_sendEach keys) hlog rfl

theorem ClosingAt.congr {log log' : List Event} {q : Known} {p : Proc N Unit}
    (h : ClosingAt key budget log q p) (hanswers : answers log' key = answers log key)
    (hdrained : Drained log' ↔ Drained log) : ClosingAt key budget log' q p := by
  cases h with
  | begun hk hlog hq => exact .begun hk (fun h => hlog (hdrained.mp h)) hq
  | answering hp hlog hcount =>
      rw [← hanswers] at hcount
      exact .answering hp (hdrained.mpr hlog) hcount

section

variable {P P' : Server N} {a : Act Frame (Choice N)}

/-- The closing task is born before anything is drained. -/
theorem not_drained_of_spawn (hG : Planned frames P (.spawn .closeSubscriptions : Act _ (Choice N)))
    (honce : ClosedOnce frames) (hP : Within key budget P) : ¬ Drained P.shared.log := by
  refine hP.unborn fun hmem => ?_
  obtain ⟨i, hi, hborn⟩ := List.mem_iff_getElem.mp hmem
  have hfirst := hG.planned i _ (List.getElem?_eq_some_iff.mpr ⟨hi, hborn⟩)
  have heq : i = P.next := honce i P.next hfirst (hG.spawned _ rfl)
  subst heq
  exact Nat.lt_irrefl _ hi

/-- **The other tasks** leave the closing one's account as it is. -/
theorem closingAt_of_other {n m : Nat} {c : Choice N} {e : Section} {k : Reply N e → Proc N Unit}
    {r : Reply N e} {s : Shared} {q : Known} {p : Proc N Unit} (hG : Planned frames P a)
    (honce : ClosedOnce frames) (hrole : InRole P) (hP : Within key budget P)
    (hget : P.threads.get n = some (.call e k)) (hx : runSection n c P.shared e = .answer r s)
    (hne : m ≠ n) (hm : P.born[m]? = some .closeSubscriptions)
    (h : ClosingAt key budget P.shared.log q p) : ClosingAt key budget s.log q p := by
  obtain ⟨f, hf, q', hq'⟩ := hP.tasks n _ hget
  obtain ⟨f', hf', e', hkeeps⟩ := hrole n _ hget
  rw [hf] at hf'
  cases hf'
  have hother : f ≠ .closeSubscriptions := by
    rintro rfl
    exact hne (honce m n (hG.planned m _ hm) (hG.planned n _ hf))
  obtain ⟨hanswers, hdrained⟩ :=
    answers_of_other key hx hq'.keeps.1 hkeeps.1 hother (hq'.others hother)
  refine h.congr hanswers ⟨hdrained, fun hold => ?_⟩
  exact (drained_of_answer hx).mpr (Or.inl hold)

/-- **One section** of any task stays within the budget. -/
theorem within_answer {n : Nat} {c : Choice N} {e : Section} {k : Reply N e → Proc N Unit}
    {r : Reply N e} {s : Shared} (hrole : InRole P) (hP : Within key budget P)
    (hbudget : ¬ Drained P.shared.log → P.shared.subscriptions.keys.count key ≤ budget)
    (hget : P.threads.get n = some (.call e k)) (hx : runSection n c P.shared e = .answer r s) :
    answers s.log key ≤ budget ∧ (¬ Drained s.log → answers s.log key = 0) := by
  obtain ⟨f, hf, q, hq⟩ := hP.tasks n _ hget
  by_cases hclose : f = .closeSubscriptions
  · have hclosing := closingAt_after hx hq.keeps.1 (hq.closing hclose) hP.undrained hbudget
    have hdrained : Drained s.log := by
      cases hq.closing hclose with
      | begun hk hlog hq => exact (drained_of_answer hx).mpr (Or.inr rfl)
      | answering hp hlog hcount => exact (drained_of_answer hx).mpr (Or.inl hlog)
    have hundrained : ¬ Drained s.log → answers s.log key = 0 := fun h => absurd hdrained h
    exact ⟨hclosing.count_le hundrained, hundrained⟩
  · obtain ⟨f', hf', e', hkeeps⟩ := hrole n _ hget
    rw [hf] at hf'
    cases hf'
    obtain ⟨hanswers, -⟩ :=
      answers_of_other key hx hq.keeps.1 hkeeps.1 hclose (hq.others hclose)
    rw [hanswers]
    refine ⟨hP.count, fun h => hP.undrained fun hold => h ?_⟩
    exact (drained_of_answer hx).mpr (Or.inl hold)

theorem within_step (h : (server d rfc3339).Step P a P') (hG : Planned frames P a)
    (honce : ClosedOnce frames) (hrole : InRole P)
    (hbudget : ¬ Drained P.shared.log → P.shared.subscriptions.keys.count key ≤ budget)
    (hP : Within key budget P) : Within key budget P' := by
  have hshared : answers P'.shared.log key ≤ budget ∧
      (¬ Drained P'.shared.log → answers P'.shared.log key = 0) := by
    refine shared_step h (I := fun s => answers s.log key ≤ budget ∧
      (¬ Drained s.log → answers s.log key = 0)) ⟨hP.count, hP.undrained⟩ ?_ ?_
    · intro s b hs
      exact hs
    · intro n c e k r s _ hget hx
      exact within_answer hrole hP hbudget hget hx
  refine ⟨?_, hshared.1, hshared.2, ?_⟩
  · refine threads_step h hP.tasks ?_ ?_ ?_ ?_
    · rintro f rfl
      refine ⟨Known.none, keeps_startFrame d rfc3339 f, fun _ => rfl, ?_⟩
      rintro rfl
      exact begun_closeAll (not_drained_of_spawn hG honce hP)
    · intro s b n f p hJ
      exact hJ
    · rintro n f c e k r s - hget hf ⟨q, hq⟩ hx
      refine ⟨_, hq.keeps.2 r, fun hclose => ?_, fun hclose => ?_⟩
      · obtain ⟨f', hf', e', hkeeps⟩ := hrole n _ hget
        rw [hf] at hf'
        cases hf'
        show drainedAfter q.drained e r = []
        rw [hq.others hclose]
        refine drainedAfter_nil ?_
        rintro rfl
        exact hclose hkeeps.1.2
      · exact closingAt_after hx hq.keeps.1 (hq.closing hclose) hP.undrained hbudget
    · rintro n c e k r s m f p - hget hx hne - hm ⟨q, hq⟩
      refine ⟨q, hq.keeps, hq.others, ?_⟩
      rintro rfl
      exact closingAt_of_other hG honce hrole hP hget hx hne hm (hq.closing rfl)
  · intro hborn hdrained
    have hborn' : .closeSubscriptions ∉ P.born := fun hmem =>
      hborn ((Machine.born_step h).subset hmem)
    refine hP.unborn hborn' ?_
    refine shared_step h (I := fun s => Drained s.log → Drained P.shared.log) id
      (fun s b hs => hs) ?_ hdrained
    intro n c e k r s _ hget hx hnew
    refine ((drained_of_answer hx).mp hnew).resolve_right ?_
    rintro rfl
    obtain ⟨f, hf, e', hkeeps⟩ := hrole n _ hget
    obtain rfl : f = .closeSubscriptions := hkeeps.1.2
    exact hborn' (List.mem_of_getElem? hf)

end

/-! ## Every drained request is answered -/

theorem answers_pos_step {P P' : Server N} {a : Act Frame (Choice N)}
    (h : (server d rfc3339).Step P a P') (hP : 0 < answers P.shared.log key) :
    0 < answers P'.shared.log key := by
  refine shared_step h (I := fun s => 0 < answers s.log key) hP (fun s b hs => hs) ?_
  intro n c e k r s _ _ hx
  rw [answers_of_answer hx]
  exact Nat.lt_of_lt_of_le hP (Nat.le_add_right _ _)

/-- The closing task `m` is to answer the listen request. -/
def Owing (key : SubscriptionKey) (m : Nat) (P : Server N) : Prop :=
  SomeThread (fun n p => n = m ∧ ∃ q, Keeps q p ∧ Delivers p ∧ q.due key) P

/-- **A section of the closing task** leaves a due answer due, or gives it. -/
theorem due_after {n : Nat} {c : Choice N} {s s' : Shared} {a : Section} {r : Reply N a}
    {q : Known} (h : runSection n c s a = .answer r s') (ha : Section.Delivering a)
    (hreach : s.Reachable key.1) (hdue : q.due key) :
    dueAfter q.due a r key ∨ 0 < answers s'.log key := by
  unfold Section.Delivering at ha
  split at ha
  · rename_i connection
    refine Or.inl ⟨hdue, ?_⟩
    rintro hlive rfl
    cases h
    rw [hreach.1] at hlive
    cases hlive
  · rename_i connection m
    by_cases hm : key.1 = connection ∧ m = closeResponse key.2
    · obtain ⟨rfl, rfl⟩ := hm
      refine Or.inr ?_
      rw [answers_of_answer h]
      refine Nat.lt_of_lt_of_le ?_ (Nat.le_add_left _ _)
      rw [List.count_pos_iff, mem_streams]
      exact ⟨rfl, forSubscription_closeResponse key.2, hreach.2⟩
    · exact Or.inl ⟨hdue, hm⟩
  · exact ha.elim

theorem owing_step {P P' : Server N} {a : Act Frame (Choice N)} {m : Nat}
    (h : (server d rfc3339).Step P a P') (hnum : Machine.Numbered P)
    (hreach : P.shared.Reachable key.1) (hP : Owing key m P) :
    Owing key m P' ∨ 0 < answers P'.shared.log key := by
  refine SomeThread.step h hnum hP ?_ ?_ ?_ fun n p _ hJ => Or.inl hJ
  · rintro n ⟨-, q, hkeeps, -, hdue⟩
    exact hkeeps.2 key hdue
  · rintro n c e k r s rfl hget ⟨rfl, q, hkeeps, hdelivers, hdue⟩ hx
    rcases due_after hx hdelivers.1 hreach hdue with hdue' | hpos
    · exact Or.inl ⟨rfl, _, hkeeps.2 r, hdelivers.2 r trivial, hdue'⟩
    · rw [Machine.Step.resumed h hget hx]
      exact Or.inr hpos
  · rintro n c e k s rfl hget ⟨rfl, q, -, hdelivers, -⟩ hx
    rcases panicked hx with ⟨-, hroutes, -⟩ | ⟨-, ⟨sid, uri, rfl, -⟩, -⟩
    · have hdelivering := hdelivers.1
      unfold Section.Delivering at hdelivering
      split at hdelivering
      · cases hroutes
      · cases hroutes
      · exact hdelivering.elim
    · exact hdelivers.1.elim

/-- The task that has drained the registry is to answer what it drained. -/
theorem owing_of_drain {P P₁ : Server N} {m : Nat} {c : Choice N}
    {k : Reply N .drain → Proc N Unit} (h : (server d rfc3339).Step P (.run m c) P₁)
    (hget : P.threads.get m = some (.call .drain k)) (hdelivers : ∀ keys, Delivers (k keys))
    (horderly : Orderly P) (hkey : key ∈ P.shared.subscriptions.keys) : Owing key m P₁ := by
  obtain ⟨q, hkeeps⟩ := horderly.keeps hget
  rw [Machine.Step.resumed h hget rfl]
  refine ⟨m, _, ?_, rfl, _, hkeeps.2 _, hdelivers _, Or.inr hkey⟩
  rw [Pool.get_resumed, if_pos rfl]
  rfl

/-! ## One run -/

/-- What the account rests on along a run. -/
structure Accounted (key : SubscriptionKey) (budget : Nat) (P : Server N) : Prop where
  within : Within key budget P
  inRole : InRole P
  orderly : Orderly P

theorem accounted_step {P P' : Server N} {a : Act Frame (Choice N)}
    (h : (server d rfc3339).Step P a P') (hG : Planned frames P a) (honce : ClosedOnce frames)
    (hbudget : ¬ Drained P.shared.log → P.shared.subscriptions.keys.count key ≤ budget)
    (hP : Accounted key budget P) : Accounted key budget P' :=
  ⟨within_step h hG honce hP.inRole hbudget hP.within, inRole_step h hP.inRole,
    orderly_step h hP.orderly⟩

/-- The registry holds a subscription once. -/
theorem count_keys_le_one (s : Shared) : s.subscriptions.keys.count key ≤ 1 :=
  List.nodup_iff_count_le_one.mp s.subscriptions.nodup key

/-- A task about to drain is the closing one, and the first to. -/
theorem begun_of_drain {P : Server N} {m : Nat} {k : Reply N .drain → Proc N Unit}
    (hP : Accounted key budget P) (hget : P.threads.get m = some (.call .drain k)) :
    ¬ Drained P.shared.log ∧ ∀ keys, Delivers (k keys) := by
  obtain ⟨f, hf, q, hq⟩ := hP.within.tasks m _ hget
  obtain ⟨f', hf', e, hkeeps⟩ := hP.inRole m _ hget
  rw [hf] at hf'
  cases hf'
  cases hq.closing hkeeps.1.2 with
  | begun hk hlog hq => exact ⟨hlog, hk⟩
  | answering hp hlog hcount => exact hp.1.elim

/-- Before the drain there is nothing to account for. -/
theorem Accounted.of_undrained {P : Server N} {budget' : Nat} (hP : Accounted key budget P)
    (hlog : ¬ Drained P.shared.log) : Accounted key budget' P := by
  refine ⟨⟨?_, ?_, hP.within.undrained, hP.within.unborn⟩, hP.inRole, hP.orderly⟩
  · intro n p hget
    obtain ⟨f, hf, q, hq⟩ := hP.within.tasks n p hget
    refine ⟨f, hf, q, hq.keeps, hq.others, fun hclose => ?_⟩
    cases hq.closing hclose with
    | begun hk _ hnone => exact .begun hk hlog hnone
    | answering hp hdrained hcount => exact absurd hdrained hlog
  · rw [hP.within.undrained hlog]
    exact Nat.zero_le _

theorem drained_step {P P' : Server N} {a : Act Frame (Choice N)}
    (h : (server d rfc3339).Step P a P') (hP : Drained P.shared.log) : Drained P'.shared.log := by
  refine shared_step h (I := fun s => Drained s.log) hP (fun s b hs => hs) ?_
  intro n c e k r s _ _ hx
  exact (drained_of_answer hx).mpr (Or.inl hP)

/-- **Never more than once**: a listen request that the drain missed is not
answered at all. -/
theorem answers_of_missed {P P₁ : Server N} {m : Nat} {c : Choice N}
    {k : Reply N .drain → Proc N Unit} {tr : List (Act Frame (Choice N) × Server N)}
    (h : (server d rfc3339).Step P (.run m c) P₁)
    (hget : P.threads.get m = some (.call .drain k)) (hrun : Run (server d rfc3339).Step P₁ tr)
    (hG : ∀ x ∈ (P, .run m c, P₁) :: steps P₁ tr, Planned frames x.1 x.2.1)
    (honce : ClosedOnce frames) (hP : Accounted key budget P)
    (hkey : key ∉ P.shared.subscriptions.keys) :
    ∀ P' ∈ states P₁ tr, answers P'.shared.log key = 0 := by
  obtain ⟨hlog, -⟩ := begun_of_drain hP hget
  rw [List.forall_mem_cons] at hG
  have hfirst : Accounted key 0 P₁ := by
    refine accounted_step h hG.1 honce (fun _ => ?_) (hP.of_undrained hlog)
    rw [List.count_eq_zero_of_not_mem hkey]
  have hdrained : Drained P₁.shared.log := by
    rw [Machine.Step.resumed h hget rfl]
    exact ⟨m, List.mem_append_right _ (List.mem_singleton_self _)⟩
  have hinv := hrun.invariant_of_guard (P := fun P => Accounted key 0 P ∧ Drained P.shared.log)
    hG.2 ⟨hfirst, hdrained⟩ fun P a P' h hG hP =>
      ⟨accounted_step h hG honce (fun hlog => absurd hP.2 hlog) hP.1, drained_step h hP.2⟩
  intro P' hP'
  exact Nat.le_zero.mp (hinv P' hP').1.within.count

/-- **At least once**: a listen request that the drain found is answered by the
time the closing task has ended. -/
theorem answers_of_drained {P P₁ : Server N} {m : Nat} {c : Choice N}
    {k : Reply N .drain → Proc N Unit} {tr : List (Act Frame (Choice N) × Server N)}
    (h : (server d rfc3339).Step P (.run m c) P₁)
    (hget : P.threads.get m = some (.call .drain k)) (hrun : Run (server d rfc3339).Step P₁ tr)
    (hP : Accounted key budget P) (hkey : key ∈ P.shared.subscriptions.keys)
    (hreach : ∀ P' ∈ states P₁ tr, P'.shared.Reachable key.1) :
    ∀ P' ∈ states P₁ tr, P'.threads.get m = none → 0 < answers P'.shared.log key := by
  obtain ⟨-, hdelivers⟩ := begun_of_drain hP hget
  have howing := owing_of_drain h hget hdelivers hP.orderly hkey
  have hinv : ∀ P ∈ states P₁ tr,
      Orderly P ∧ (Owing key m P ∨ 0 < answers P.shared.log key) := invariant_of_steps
    ⟨orderly_step h hP.orderly, Or.inl howing⟩ fun x hx hP => by
      have hstep : (server d rfc3339).Step x.1 x.2.1 x.2.2 := hrun x hx
      refine ⟨orderly_step hstep hP.1, ?_⟩
      rcases hP.2 with howing | hpos
      · exact owing_step hstep hP.1.numbered (hreach _ (source_mem_states hx)) howing
      · exact Or.inr (answers_pos_step hstep hpos)
  intro P' hP' hended
  refine (hinv P' hP').2.resolve_left ?_
  rintro ⟨n, p, hlive, rfl, -⟩
  rw [hended] at hlive
  cases hlive

/-- **Graceful close**: with one `close_all`, no listen request is ever answered
twice; and one that has been acknowledged when the registry is drained, is not
cancelled and stays reachable is answered by the time `close_all` has ended if
and only if its subscription is in the registry at the drain, not still to be
recorded. -/
theorem closed_gracefully (d : VersionDispatcher N) (rfc3339 : Nat → String)
    (sessions : SessionStore) (taskCapacity : Nat)
    {tr : List (Act Frame (Choice N) × Server N)}
    (hrun : Run (server d rfc3339).Step (Pool.init (Shared.init sessions taskCapacity)) tr)
    (honce : ClosedOnce fun n =>
      (final (Pool.init (Shared.init sessions taskCapacity)) tr).born[n]?) :
    (∀ P ∈ states (Pool.init (Shared.init sessions taskCapacity)) tr,
      ∀ key, answers P.shared.log key ≤ 1) ∧
    ∀ tr₁ m c P₁ tr₂, tr = tr₁ ++ (.run m c, P₁) :: tr₂ →
      (∃ k, (final (Pool.init (Shared.init sessions taskCapacity)) tr₁).threads.get m =
        some (.call .drain k)) →
      ∀ key,
        Acknowledged (final (Pool.init (Shared.init sessions taskCapacity)) tr₁).shared.log key →
        (∀ f ∈ (final (Pool.init (Shared.init sessions taskCapacity)) tr).born,
          f.role.cancels ≠ some key) →
        (∀ P ∈ states (Pool.init (Shared.init sessions taskCapacity)) tr,
          Acknowledged P.shared.log key → P.shared.Reachable key.1) →
        ∀ P ∈ states P₁ tr₂, P.threads.get m = none →
          (answers P.shared.log key = 1 ↔
            ¬ (key ∉ (final (Pool.init (Shared.init sessions taskCapacity)) tr₁
                  ).shared.subscriptions.keys ∧
                SomeThread (fun _ p => Recording key p)
                  (final (Pool.init (Shared.init sessions taskCapacity)) tr₁))) := by
  have hplanned := planned_of_run hrun
  have haccounted (key : SubscriptionKey) :
      ∀ P ∈ states (Pool.init (Shared.init sessions taskCapacity)) tr, Accounted key 1 P :=
    hrun.invariant_of_guard hplanned ⟨within_init sessions taskCapacity 1, nofun, nofun⟩
      fun P _ _ h hG hP => accounted_step h hG honce (fun _ => count_keys_le_one P.shared) hP
  refine ⟨fun P hP key => (haccounted key P hP).within.count, ?_⟩
  rintro tr₁ m c P₁ tr₂ rfl ⟨k, hget⟩ key hack huncancelled hreach P hP hended
  have hbefore : final (Pool.init (Shared.init sessions taskCapacity)) tr₁ ∈
      states (Pool.init (Shared.init sessions taskCapacity)) (tr₁ ++ (.run m c, P₁) :: tr₂) :=
    states_subset_append _ _ _ (final_mem_states _ _)
  have hafter := states_subset_append_cons
    (Pool.init (Shared.init sessions taskCapacity) : Server N) P₁ (.run m c) tr₁ tr₂
  obtain ⟨-, hrun₂⟩ := run_append.mp hrun
  obtain ⟨hstep, hrun₂⟩ := run_cons.mp hrun₂
  have hone := (haccounted key P (hafter hP)).within.count
  have hP₀ := haccounted key _ hbefore
  constructor
  · rintro hanswers ⟨hkey, -⟩
    have hzero := answers_of_missed hstep hget hrun₂ (fun x hx => hplanned x ?_) honce hP₀ hkey P hP
    · rw [hzero] at hanswers
      cases hanswers
    · rw [steps_append]
      exact List.mem_append_right _ hx
  · intro hkept
    have hunhindered := unhindered_of_run hrun huncancelled hreach _ hbefore
    have hkey : key ∈ (final (Pool.init (Shared.init sessions taskCapacity)) tr₁
        ).shared.subscriptions.keys := by
      by_contra hkey
      rcases hunhindered.kept with hdrained | hin
      · exact (begun_of_drain hP₀ hget).1 hdrained
      · exact hkept ⟨hkey, (hin hack).resolve_left hkey⟩
    have hacked := acknowledged_of_run (run_cons.mpr ⟨hstep, hrun₂⟩) hack
    have hpos := answers_of_drained hstep hget hrun₂ hP₀ hkey
      (fun P' hP' => hreach P' (hafter hP') (hacked P' (List.mem_cons_of_mem _ hP'))) P hP hended
    exact Nat.le_antisymm hone hpos

/-! ## A server that closes down -/

/-- The connection is reachable, or the request not acknowledged yet. -/
def reachable (key : SubscriptionKey) (P : Server N) : Bool :=
  !(streamed P.shared.log key).any isAcknowledgement ||
    (Outbound.writer P.shared.writers key.1).isSome && key.1 ∉ P.shared.closed

theorem reachable_of_check {key : SubscriptionKey} {P : Server N} (h : reachable key P = true) :
    Acknowledged P.shared.log key → P.shared.Reachable key.1 := by
  rintro ⟨m, hm, hack⟩
  unfold reachable at h
  rw [Bool.or_eq_true, Bool.and_eq_true, decide_eq_true_eq] at h
  refine h.resolve_left ?_
  rw [Bool.not_eq_true', Bool.eq_false_iff]
  exact fun hnone => hnone (List.any_eq_true.mpr ⟨m, hm, hack⟩)

theorem closedOnce_of_count {born : List Frame} (h : born.count .closeSubscriptions ≤ 1) :
    ClosedOnce fun n => born[n]? := by
  have hlt {n m : Nat} (hn : born[n]? = some .closeSubscriptions)
      (hm : born[m]? = some .closeSubscriptions) : ¬ n < m := by
    intro hnm
    obtain ⟨hn, hget⟩ := List.getElem?_eq_some_iff.mp hn
    obtain ⟨hm, hget'⟩ := List.getElem?_eq_some_iff.mp hm
    have htwice : born.Duplicate .closeSubscriptions :=
      List.duplicate_iff_exists_distinct_get.mpr
        ⟨⟨n, hn⟩, ⟨m, hm⟩, hnm, hget.symm, hget'.symm⟩
    have := List.duplicate_iff_two_le_count.mp htwice
    omega
  intro n m hn hm
  have := hlt hn hm
  have := hlt hm hn
  omega

/-- The task is about to drain the registry. -/
def drains (P : Server N) (n : Nat) : Bool :=
  match P.threads.get n with
  | some (.call .drain _) => true
  | _ => false

/-- What a run to `P` shows of a listen request: whether it was acknowledged,
how often it was answered, and whether nobody cancelled it, one `close_all` was
called and every task has ended. -/
def account (key : SubscriptionKey) (P : Server N) : Bool × Nat × Bool :=
  ((streamed P.shared.log key).any isAcknowledgement, answers P.shared.log key,
    P.born.all (fun f => f.role.cancels ≠ some key) &&
      P.born.count .closeSubscriptions = 1 && P.threads.keys.isEmpty)

/-- A task server at rest. -/
def atRest : Server Unit := Pool.init (Shared.init (SessionStore.withCapacity 8) 8)

/-- **A listener that is missed**: `close_all` runs between the acknowledgement
and the insertion, and the request is never answered. -/
theorem unrecorded_listener_missed :
    ∃ tr₁ tr₂ P P', Run (server taskServer fun _ => "").Step atRest tr₁ ∧ final atRest tr₁ = P ∧
      Run (server taskServer fun _ => "").Step P tr₂ ∧ final P tr₂ = P' ∧
      Acknowledged P.shared.log ("c", .number 7) ∧ .closeSubscriptions ∉ P.born ∧
      (∀ Q ∈ states P tr₂, Acknowledged Q.shared.log ("c", .number 7) → Q.shared.Reachable "c") ∧
      P'.born.count .closeSubscriptions = 1 ∧
      (∀ f ∈ P'.born, f.role.cancels ≠ some ("c", .number 7)) ∧
      P'.threads.keys = [] ∧ answers P'.shared.log ("c", .number 7) = 0 := by
  have hrun : ((reach (server taskServer fun _ => "").step atRest
      (listening [] ++ List.replicate 4 (.run 2 (.declined "")))).bind
        fun P => (reach (fun P a => if reachable ("c", .number 7) P then
            (server taskServer fun _ => "").step P a else none) P
          (.spawn .closeSubscriptions :: List.replicate 2 (.run 3 (.declined "")) ++
            List.replicate 4 (.run 2 (.declined "")))).map
          fun P' => ((account ("c", .number 7) P).1, P.born.contains .closeSubscriptions,
            reachable ("c", .number 7) P', account ("c", .number 7) P')) =
      some (true, false, true, true, 0, true) := by
    decide +kernel
  obtain ⟨P, hreach, hrun⟩ := Option.bind_eq_some_iff.mp hrun
  obtain ⟨P', hreach', hP⟩ := Option.map_eq_some_iff.mp hrun
  simp only [account, Prod.mk.injEq, Bool.and_eq_true, List.all_eq_true, decide_eq_true_eq,
    List.isEmpty_iff] at hP
  obtain ⟨hack, hborn, hend, -, hanswers, ⟨huncancelled, hcount⟩, hkeys⟩ := hP
  obtain ⟨tr₁, hrun₁, hfinal₁, -⟩ := exists_run_to hreach
  obtain ⟨tr₂, hrun₂, hfinal₂, hreachable⟩ := exists_run_of_guarded_reach
    (G := fun P _ => Acknowledged P.shared.log ("c", .number 7) → P.shared.Reachable "c")
    (fun P _ h => reachable_of_check h) hreach'
  refine ⟨tr₁, tr₂, P, P', hrun₁, hfinal₁, hrun₂, hfinal₂, ?_, ?_, ?_, hcount, huncancelled,
    hkeys, hanswers⟩
  · exact List.any_eq_true.mp hack
  · intro hmem
    rw [List.contains_iff_mem.mpr hmem] at hborn
    cases hborn
  · refine forall_states_of_steps hreachable ?_
    rw [hfinal₂]
    exact reachable_of_check hend

/-- A listener that has been recorded is answered once. -/
theorem recorded_listener_answered :
    ∃ tr P, Run (server taskServer fun _ => "").Step atRest tr ∧ final atRest tr = P ∧
      P.threads.keys = [] ∧ answers P.shared.log ("c", .number 7) = 1 := by
  have hrun : ((reach (fun P a => if reachable ("c", .number 7) P then
        (server taskServer fun _ => "").step P a else none) atRest
      (listening [] ++ List.replicate 8 (.run 2 (.declined "")) ++
        [.spawn .closeSubscriptions])).bind
        fun P => ((server taskServer fun _ => "").step P (.run 3 (.declined ""))).bind
          fun P₁ => (reach (fun P a => if reachable ("c", .number 7) P then
              (server taskServer fun _ => "").step P a else none) P₁
            (List.replicate 3 (.run 3 (.declined "")))).map
            fun P' => ((account ("c", .number 7) P).1, drains P 3,
              P.shared.subscriptions.keys.contains ("c", .number 7), reachable ("c", .number 7) P,
              reachable ("c", .number 7) P', (account ("c", .number 7) P').2.2)) =
      some (true, true, true, true, true, true) := by
    decide +kernel
  obtain ⟨P, hreach, hrun⟩ := Option.bind_eq_some_iff.mp hrun
  obtain ⟨P₁, hstep, hrun⟩ := Option.bind_eq_some_iff.mp hrun
  obtain ⟨P', hreach', hP⟩ := Option.map_eq_some_iff.mp hrun
  simp only [account, Prod.mk.injEq, Bool.and_eq_true, List.all_eq_true, decide_eq_true_eq,
    List.isEmpty_iff, List.contains_iff_mem] at hP
  obtain ⟨hack, hdrains, hkey, hbefore, hend, ⟨huncancelled, hcount⟩, hkeys⟩ := hP
  have hcheck (P : Server Unit) (a : Act Frame (Choice Unit))
      (h : reachable ("c", .number 7) P = true) :
      Acknowledged P.shared.log ("c", .number 7) → P.shared.Reachable "c" := reachable_of_check h
  obtain ⟨tr₁, hrun₁, rfl, hreach₁⟩ := exists_run_of_guarded_reach
    (G := fun P _ => Acknowledged P.shared.log ("c", .number 7) → P.shared.Reachable "c")
    hcheck hreach
  obtain ⟨tr₂, hrun₂, rfl, hreach₂⟩ := exists_run_of_guarded_reach
    (G := fun P _ => Acknowledged P.shared.log ("c", .number 7) → P.shared.Reachable "c")
    hcheck hreach'
  have hwhole : Run (server taskServer fun _ => "").Step atRest
      (tr₁ ++ (.run 3 (.declined ""), P₁) :: tr₂) :=
    run_append.mpr ⟨hrun₁, run_cons.mpr ⟨hstep, hrun₂⟩⟩
  have hfinal : final atRest (tr₁ ++ (.run 3 (.declined ""), P₁) :: tr₂) = final P₁ tr₂ :=
    final_append ..
  refine ⟨_, _, hwhole, hfinal, hkeys, ?_⟩
  refine ((closed_gracefully taskServer (fun _ => "") _ _ hwhole ?_).2 tr₁ 3 _ P₁ tr₂ rfl ?_
    ("c", .number 7) (List.any_eq_true.mp hack) ?_ ?_ _ (final_mem_states _ _) ?_).mpr
      fun h => h.1 hkey
  · refine closedOnce_of_count (Nat.le_of_eq ?_)
    rw [← hcount]
    exact congrArg (fun P : Server Unit => P.born.count Frame.closeSubscriptions) hfinal
  · unfold drains at hdrains
    split at hdrains
    · rename_i k hget
      exact ⟨k, hget⟩
    · cases hdrains
  · intro f hf
    refine huncancelled f ?_
    rw [← hfinal]
    exact hf
  · refine forall_states_of_steps ?_ ?_
    · rw [steps_append, List.forall_mem_append, steps_cons, List.forall_mem_cons]
      exact ⟨hreach₁, reachable_of_check hbefore, hreach₂⟩
    · rw [show final (Pool.init (Shared.init (SessionStore.withCapacity 8) 8) : Server Unit)
        (tr₁ ++ (.run 3 (.declined ""), P₁) :: tr₂) = final P₁ tr₂ from hfinal]
      exact reachable_of_check hend
  · cases hget : (final P₁ tr₂).threads.get 3 with
    | none => rfl
    | some p =>
        have hmem : 3 ∈ (final P₁ tr₂).threads.keys := by
          rw [Dict.mem_keys, hget]
          rfl
        rw [hkeys] at hmem
        cases hmem

end TurboMcp.System
