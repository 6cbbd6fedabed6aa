import TurboMcp.Core.Float
import TurboMcp.Core.JsonRpc
import TurboMcp.Server.Effect
import TurboMcp.Service.Outbound

/-!
# Progress reports

The clones of a `ProgressReporter` share one guard, which lets through only what is
greater than the last report.  A report takes the guard, lets it go, and only then
looks the request's writer up and enqueues its notification: between the two, other
reports can go both steps.
-/

namespace TurboMcp.Server

open TurboMcp.Core TurboMcp.Lib TurboMcp.Service

/-! ## Reports -/

/-- The arguments of a call of `report`. -/
structure Report where
  progress : F64
  total : Option F64
  message : Option String
  deriving DecidableEq

/-- `methods::notification::PROGRESS`. -/
def progressMethod : String := "notifications/progress"

def progressParams (token : Value) (r : Report) : Map :=
  record
    [("progressToken", some token),
      ("progress", some r.progress.toValue),
      ("total", r.total.map F64.toValue),
      ("message", r.message.map .string)]

def ProgressReporter.notification (reporter : ProgressReporter) (r : Report) : JsonRpcMessage :=
  .notification
    { method := progressMethod, params := some (.object (progressParams reporter.token r)) }

/-- The stream of the request: its own connection, or else the session's. -/
def ProgressReporter.requestWriter {Tx : Type} (reporter : ProgressReporter)
    (table : Outbound.Table Tx) : Option Tx :=
  (if reporter.connection = "" then none else Outbound.writer table reporter.connection).or
    (if reporter.session = "" then none
      else Outbound.writer table (Outbound.sessionStreamId reporter.session))

/-- The progress a notification shows, if it shows a number. -/
def progressOf (msg : JsonRpcMessage) : Option F64 :=
  match msg.params.bind (·.get "progress") with
  | some (.float bits) => some ⟨bits⟩
  | _ => none

@[simp] theorem progressOf_notification (reporter : ProgressReporter) (r : Report) :
    progressOf (reporter.notification r) =
      if r.progress.isFinite then some r.progress else none := by
  have hget : Map.get (progressParams reporter.token r) "progress" =
      some r.progress.toValue := by
    simp [progressParams]
  unfold progressOf
  show (match Map.get (progressParams reporter.token r) "progress" with
    | some (.float bits) => some (F64.mk bits)
    | _ => none) = _
  rw [hget, F64.toValue]
  cases r.progress.isFinite <;> rfl

/-! ## Calls of `report` -/

/-- A report that passed the guard, by its turn there. -/
structure Accepted where
  turn : Nat
  report : Report
  deriving DecidableEq

/-- A report's notification in the channel of a writer. -/
structure Enqueued (Tx : Type) where
  writer : Tx
  accepted : Accepted

structure Progress (Tx : Type) where
  /-- The guard: the last value reported. -/
  last : Option F64
  /-- How many reports passed it. -/
  turns : Nat
  /-- The calls that passed it and have not enqueued yet. -/
  unsent : List Accepted
  enqueued : List (Enqueued Tx)

inductive ProgressAct (Tx : Type)
  /-- A clone calls `report`; the guard is taken and let go. -/
  | report (r : Report)
  /-- A call finds the writers so, and its channel has room. -/
  | send (turn : Nat) (table : Outbound.Table Tx)
  /-- The channel closes under a call, or its future is dropped. -/
  | lose (turn : Nat)

namespace Progress

variable {Tx : Type}

def init : Progress Tx := ⟨none, 0, [], []⟩

/-- Past the guard, or dropped at it. -/
def guard (s : Progress Tx) (r : Report) : Progress Tx :=
  if s.last.any fun prev => r.progress.le prev then s
  else
    { s with last := some r.progress, turns := s.turns + 1,
             unsent := s.unsent ++ [⟨s.turns, r⟩] }

/-- The call of turn `turn` ends. -/
def done (s : Progress Tx) (turn : Nat) : Progress Tx :=
  { s with unsent := s.unsent.filter fun a => a.turn ≠ turn }

def step (reporter : ProgressReporter) (s : Progress Tx) :
    ProgressAct Tx → Option (Progress Tx)
  | .report r => some (s.guard r)
  | .send turn table =>
      (s.unsent.find? fun a => a.turn = turn).map fun a =>
        match reporter.requestWriter table with
        | none => s.done turn
        | some writer => { s.done turn with enqueued := s.enqueued ++ [⟨writer, a⟩] }
  | .lose turn => (s.unsent.find? fun a => a.turn = turn).map fun _ => s.done turn

/-- The reports enqueued on a writer, in order. -/
def reportsOn [DecidableEq Tx] (s : Progress Tx) (writer : Tx) : List Accepted :=
  (s.enqueued.filter fun e => e.writer = writer).map (·.accepted)

/-- The messages enqueued on a writer, in order. -/
def messagesOn [DecidableEq Tx] (reporter : ProgressReporter) (s : Progress Tx) (writer : Tx) :
    List JsonRpcMessage :=
  (s.reportsOn writer).map fun a => reporter.notification a.report

/-- The notifications on each writer show numbers that strictly increase. -/
def Increasing [DecidableEq Tx] (reporter : ProgressReporter) (s : Progress Tx) : Prop :=
  ∀ writer, ∃ xs : List F64,
    (s.messagesOn reporter writer).map progressOf = xs.map some ∧
      xs.Pairwise fun x y => x.lt y = true

/-- A number of JSON's is reported; a call enqueues before those that passed the guard
after it, on the same writer. -/
def InTurn (reporter : ProgressReporter) (s : Progress Tx) : ProgressAct Tx → Prop
  | .report r => r.progress.isFinite = true
  | .send turn table =>
      ∀ e ∈ s.enqueued, reporter.requestWriter table = some e.writer → e.accepted.turn < turn
  | .lose _ => True

/-! ### What a step does -/

variable {reporter : ProgressReporter} {s t : Progress Tx}

theorem step_cases {a : ProgressAct Tx} (h : s.step reporter a = some t) :
    (∃ r, a = .report r ∧ t = s.guard r) ∨
      (∃ c ∈ s.unsent, ∃ table writer, a = .send c.turn table ∧
        reporter.requestWriter table = some writer ∧
        t = { s.done c.turn with enqueued := s.enqueued ++ [⟨writer, c⟩] }) ∨
      ∃ turn, t = s.done turn := by
  cases a with
  | report r => exact .inl ⟨r, rfl, (Option.some.inj h).symm⟩
  | send turn table =>
      obtain ⟨c, hfind, ht⟩ := Option.map_eq_some_iff.mp h
      have hturn : c.turn = turn := by simpa using List.find?_some hfind
      subst hturn
      cases hwriter : reporter.requestWriter table with
      | none =>
          rw [hwriter] at ht
          exact .inr (.inr ⟨c.turn, ht.symm⟩)
      | some writer =>
          rw [hwriter] at ht
          exact .inr (.inl ⟨c, List.mem_of_find?_eq_some hfind, table, writer, rfl, hwriter,
            ht.symm⟩)
  | lose turn =>
      obtain ⟨c, -, ht⟩ := Option.map_eq_some_iff.mp h
      exact .inr (.inr ⟨turn, ht.symm⟩)

/-! ### In turn -/

/-- What the guard let through, sent or not. -/
def through (s : Progress Tx) : List Accepted := s.unsent ++ s.enqueued.map (·.accepted)

/-- The guard's order: the values grow with the turns, up to the last. -/
structure Ordered (s : Progress Tx) : Prop where
  finite : ∀ a ∈ s.through, a.report.progress.isFinite = true
  turn_lt : ∀ a ∈ s.through, a.turn < s.turns
  grows : ∀ a ∈ s.through, ∀ b ∈ s.through, a.turn < b.turn →
    a.report.progress.lt b.report.progress = true
  last : ∀ a ∈ s.through, ∃ l, s.last = some l ∧
    (a.report.progress = l ∨ a.report.progress.lt l = true)
  lastFinite : ∀ l ∈ s.last, l.isFinite = true

/-- The notifications on each writer come in the guard's order. -/
def SentInTurn [DecidableEq Tx] (s : Progress Tx) : Prop :=
  ∀ writer, (s.reportsOn writer).Pairwise fun a b => a.turn < b.turn

theorem through_done_subset (s : Progress Tx) (turn : Nat) :
    (s.done turn).through ⊆ s.through := by
  intro a ha
  rcases List.mem_append.mp ha with ha | ha
  · exact List.mem_append_left _ (List.mem_filter.mp ha).1
  · exact List.mem_append_right _ ha

/-- Sending adds nothing to what was let through. -/
theorem Ordered.mono (h : s.Ordered) (hsub : t.through ⊆ s.through) (hlast : t.last = s.last)
    (hturns : t.turns = s.turns) : t.Ordered where
  finite a ha := h.finite a (hsub ha)
  turn_lt a ha := hturns ▸ h.turn_lt a (hsub ha)
  grows a ha b hb := h.grows a (hsub ha) b (hsub hb)
  last a ha := hlast ▸ h.last a (hsub ha)
  lastFinite := hlast ▸ h.lastFinite

theorem mem_through_guard {r : Report} {a : Accepted}
    (h : a ∈ (s.guard r).through) : a ∈ s.through ∨ a = ⟨s.turns, r⟩ := by
  unfold guard at h
  split at h
  · exact .inl h
  · rcases List.mem_append.mp h with h | h
    · rcases List.mem_append.mp h with h | h
      · exact .inl (List.mem_append_left _ h)
      · exact .inr (List.mem_singleton.mp h)
    · exact .inl (List.mem_append_right _ h)

/-- The guard lets a number through only if it is greater than all before. -/
theorem Ordered.guard (h : s.Ordered) {r : Report} (hr : r.progress.isFinite = true) :
    (s.guard r).Ordered := by
  by_cases hdrop : s.last.any (fun prev => r.progress.le prev) = true
  · have hsame : s.guard r = s := if_pos hdrop
    rw [hsame]
    exact h
  · have hguard : s.guard r = { s with
        last := some r.progress, turns := s.turns + 1, unsent := s.unsent ++ [⟨s.turns, r⟩] } :=
      if_neg hdrop
    have hless : ∀ a ∈ s.through, a.report.progress.lt r.progress = true := by
      intro a ha
      obtain ⟨l, hl, hle⟩ := h.last a ha
      rw [hl] at hdrop
      have hlt : l.lt r.progress = true := by
        apply F64.lt_of_not_le hr (h.lastFinite l hl)
        simpa using hdrop
      rcases hle with heq | hle
      · rw [heq]
        exact hlt
      · exact F64.lt_trans hle hlt
    refine ⟨?_, ?_, ?_, ?_, ?_⟩
    · intro a ha
      rcases mem_through_guard ha with ha | rfl
      · exact h.finite a ha
      · exact hr
    · intro a ha
      show a.turn < (s.guard r).turns
      rw [hguard]
      rcases mem_through_guard ha with ha | rfl
      · exact Nat.lt_succ_of_lt (h.turn_lt a ha)
      · exact Nat.lt_succ_self _
    · intro a ha b hb hab
      rcases mem_through_guard ha with ha | rfl
      · rcases mem_through_guard hb with hb | rfl
        · exact h.grows a ha b hb hab
        · exact hless a ha
      · rcases mem_through_guard hb with hb | rfl
        · have hlt := h.turn_lt b hb
          simp only at hab
          omega
        · exact absurd hab (Nat.lt_irrefl _)
    · intro a ha
      refine ⟨r.progress, by rw [hguard], ?_⟩
      rcases mem_through_guard ha with ha | rfl
      · exact .inr (hless a ha)
      · exact .inl rfl
    · intro l hl
      rw [hguard] at hl
      obtain rfl := Option.some.inj hl
      exact hr

theorem ordered_step {a : ProgressAct Tx} (h : s.step reporter a = some t)
    (hturn : s.InTurn reporter a) (hs : s.Ordered) : t.Ordered := by
  rcases step_cases h with ⟨r, rfl, rfl⟩ | ⟨c, hc, table, writer, rfl, -, rfl⟩ | ⟨turn, rfl⟩
  · exact hs.guard hturn
  · refine hs.mono ?_ rfl rfl
    intro a ha
    rcases List.mem_append.mp ha with ha | ha
    · exact List.mem_append_left _ (List.mem_filter.mp ha).1
    · rw [List.map_append, List.mem_append] at ha
      rcases ha with ha | ha
      · exact List.mem_append_right _ ha
      · rw [List.map_singleton, List.mem_singleton] at ha
        subst ha
        exact List.mem_append_left _ hc
  · exact hs.mono (through_done_subset s turn) rfl rfl

section

variable [DecidableEq Tx]

theorem reportsOn_guard (s : Progress Tx) (r : Report) (writer : Tx) :
    (s.guard r).reportsOn writer = s.reportsOn writer := by
  unfold guard
  split <;> rfl

theorem mem_reportsOn {s : Progress Tx} {writer : Tx} {a : Accepted}
    (h : a ∈ s.reportsOn writer) : ∃ e ∈ s.enqueued, e.writer = writer ∧ e.accepted = a := by
  obtain ⟨e, he, rfl⟩ := List.mem_map.mp h
  rw [List.mem_filter, decide_eq_true_eq] at he
  exact ⟨e, he.1, he.2, rfl⟩

theorem sentInTurn_step {a : ProgressAct Tx} (h : s.step reporter a = some t)
    (hturn : s.InTurn reporter a) (hs : s.SentInTurn) : t.SentInTurn := by
  rcases step_cases h with ⟨r, rfl, rfl⟩ | ⟨c, hc, table, writer, rfl, hwriter, rfl⟩ | ⟨turn, rfl⟩
  · intro writer
    rw [reportsOn_guard]
    exact hs writer
  · intro writer'
    have hbefore := hs writer'
    unfold reportsOn at hbefore ⊢
    rw [List.filter_append, List.map_append, List.pairwise_append]
    refine ⟨hbefore, ?_, ?_⟩
    · by_cases hsame : writer = writer' <;> simp [hsame]
    · intro x hx y hy
      obtain ⟨e, he, hew, rfl⟩ := mem_reportsOn hx
      obtain ⟨e', he', rfl⟩ := List.mem_map.mp hy
      rw [List.mem_filter, List.mem_singleton, decide_eq_true_eq] at he'
      obtain ⟨rfl, hew'⟩ := he'
      refine hturn e he ?_
      rw [hwriter, hew]
      exact congrArg some hew'
  · exact hs

/-- In the guard's order, what is on a writer increases. -/
theorem increasing_of_ordered (h : s.Ordered) (hsent : s.SentInTurn) :
    s.Increasing reporter := by
  intro writer
  have hthrough : ∀ a ∈ s.reportsOn writer, a ∈ s.through := by
    intro a ha
    obtain ⟨e, he, -, rfl⟩ := mem_reportsOn ha
    exact List.mem_append_right _ (List.mem_map_of_mem he)
  refine ⟨(s.reportsOn writer).map fun a => a.report.progress, ?_, ?_⟩
  · rw [messagesOn, List.map_map, List.map_map]
    refine List.map_congr_left fun a ha => ?_
    show progressOf (reporter.notification a.report) = some a.report.progress
    rw [progressOf_notification, if_pos (h.finite a (hthrough a ha))]
  · rw [List.pairwise_map]
    refine (hsent writer).imp_of_mem ?_
    intro a b ha hb hab
    exact h.grows a (hthrough a ha) b (hthrough b hb) hab

/-- **Progress increases on the wire** along every run of any number of clones whose
reports are numbers and enqueued in the order in which they passed the guard. -/
theorem increasing_of_inTurn (reporter : ProgressReporter)
    {tr : List (ProgressAct Tx × Progress Tx)}
    (hrun : Run (fun s a t => s.step reporter a = some t) init tr)
    (hturn : ∀ x ∈ steps init tr, InTurn reporter x.1 x.2.1) :
    ∀ s ∈ states init tr, s.Increasing reporter := by
  have hinv : ∀ s ∈ states init tr, s.Ordered ∧ s.SentInTurn := by
    refine hrun.invariant_of_guard hturn ?_ ?_
    · refine ⟨⟨?_, ?_, ?_, ?_, ?_⟩, ?_⟩
      · exact fun a ha => absurd ha List.not_mem_nil
      · exact fun a ha => absurd ha List.not_mem_nil
      · exact fun a ha => absurd ha List.not_mem_nil
      · exact fun a ha => absurd ha List.not_mem_nil
      · intro l hl
        cases hl
      · exact fun writer => List.Pairwise.nil
    · intro s a t hstep hguard hs
      exact ⟨ordered_step hstep hguard hs.1, sentInTurn_step hstep hguard hs.2⟩
  intro s hs
  exact increasing_of_ordered (hinv s hs).1 (hinv s hs).2

end

/-! ### Two reports -/

def twoReporter : ProgressReporter := ⟨.string "t1", "conn-1", ""⟩

/-- The request's writer, under a number. -/
def oneWriter : Outbound.Table Nat := (Outbound.register Dict.empty "conn-1" 0).1

def report (n : Int) : Report := ⟨F64.ofInt n, none, none⟩

def twoStep (s : Progress Nat) (a : ProgressAct Nat) : Progress Nat :=
  (s.step twoReporter a).getD s

/-- One clone reports and enqueues, and then another. -/
def inTurnRun : List (ProgressAct Nat × Progress Nat) :=
  trace twoStep init
    [.report (report 1), .send 0 oneWriter, .report (report 2), .send 1 oneWriter]

/-- The second clone overtakes the first between the guard and the channel. -/
def overtakenRun : List (ProgressAct Nat × Progress Nat) :=
  trace twoStep init
    [.report (report 1), .report (report 2), .send 1 oneWriter, .send 0 oneWriter]

/-- Both reports go out, the smaller first. -/
theorem in_turn_increases :
    (final init inTurnRun).messagesOn twoReporter 0 =
        [twoReporter.notification (report 1), twoReporter.notification (report 2)] ∧
      (final init inTurnRun).Increasing twoReporter := by
  have hrun : Run (fun s a t => s.step twoReporter a = some t) init inTurnRun := by
    simp only [inTurnRun, trace, run_cons, run_nil, and_true]
    exact ⟨rfl, rfl, rfl, rfl⟩
  refine ⟨rfl, increasing_of_inTurn twoReporter hrun ?_ _ (final_mem_states _ _)⟩
  intro x hx
  simp only [inTurnRun, trace, steps_cons, steps_nil, List.mem_cons, List.not_mem_nil,
    or_false] at hx
  rcases hx with rfl | rfl | rfl | rfl
  · show (report 1).progress.isFinite = true
    decide
  · intro e he
    cases he
  · show (report 2).progress.isFinite = true
    decide
  · intro e he _
    obtain rfl := List.mem_singleton.mp he
    exact Nat.zero_lt_one

/-- **Overtaken**: both pass the guard, and the greater value is enqueued first. -/
theorem overtaken_decreases :
    Run (fun s a t => s.step twoReporter a = some t) init overtakenRun ∧
      (final init overtakenRun).messagesOn twoReporter 0 =
        [twoReporter.notification (report 2), twoReporter.notification (report 1)] ∧
      ¬ (final init overtakenRun).Increasing twoReporter := by
  have hrun : Run (fun s a t => s.step twoReporter a = some t) init overtakenRun := by
    simp only [overtakenRun, trace, run_cons, run_nil, and_true]
    exact ⟨rfl, rfl, rfl, rfl⟩
  have hmessages : (final init overtakenRun).messagesOn twoReporter 0 =
      [twoReporter.notification (report 2), twoReporter.notification (report 1)] := rfl
  refine ⟨hrun, hmessages, ?_⟩
  intro h
  obtain ⟨xs, hxs, hincreasing⟩ := h 0
  have hvalues : xs = [F64.ofInt 2, F64.ofInt 1] := by
    rw [hmessages] at hxs
    have hshown : [twoReporter.notification (report 2), twoReporter.notification (report 1)].map
        progressOf = [F64.ofInt 2, F64.ofInt 1].map some := by
      rw [List.map_cons, List.map_singleton, progressOf_notification, progressOf_notification,
        if_pos (by decide), if_pos (by decide)]
      rfl
    rw [hshown] at hxs
    exact ((List.map_inj_right fun _ _ h => Option.some.inj h).mp hxs).symm
  subst hvalues
  rw [List.pairwise_pair] at hincreasing
  exact absurd hincreasing (by decide)

end Progress

end TurboMcp.Server
