import Mathlib.Algebra.Ring.Int.Defs
import TurboMcp.Core.Error
import TurboMcp.Core.Meta
import TurboMcp.Lib.Cells
import TurboMcp.Lib.Runs

/-!
# Request metrics

A layer counts requests around a service: a future is made for each message, and
records its request as it completes or is dropped, whichever comes first.  The gauge
of requests in flight goes up before the inner service is called and down with the
record.  What the futures were asked to do is observed beside them; the instruments
have to add up to it.
-/

namespace TurboMcp.Telemetry

open TurboMcp.Core TurboMcp.Lib

/-! ## The layer -/

/-- The base labels: the method and the version. -/
structure Labels where
  method : String
  protocolVersion : String
  deriving DecidableEq

inductive Outcome
  | ok
  | error
  | cancelled
  deriving DecidableEq

/-- What is reported to an instrument. -/
inductive Measurement
  | requests (labels : Labels) (outcome : Outcome)
  | duration (labels : Labels) (outcome : Outcome) (elapsed : Nat)
  | inFlight (labels : Labels) (delta : Int)
  deriving DecidableEq

/-- The version of a request's own `_meta`, among four values. -/
def protocolVersionLabel (params : Option Value) : String :=
  match (Meta.entry Meta.keys.protocolVersion params).bind Value.asStr with
  | none => "unknown"
  | some version =>
      match ProtocolVersion.fromWire version with
      | .v2025_11_25 => "2025-11-25"
      | .draft => "2026-07-28"
      | _ => "other"

/-- Only requests are measured. -/
def baseLabels : JsonRpcMessage → Option Labels
  | .request r => some ⟨r.method, protocolVersionLabel r.params⟩
  | _ => none

abbrev CallResult := Except ProtocolError (Option JsonRpcMessage)

def outcomeOf : CallResult → Outcome
  | .error _ => .error
  | .ok (some (.response r)) => if r.error.isSome then .error else .ok
  | .ok _ => .ok

structure MetricsFuture where
  /-- `None` for what is unmeasured, and taken once recorded. -/
  labels : Option Labels
  start : Nat
  dropped : Bool

structure State where
  futures : List MetricsFuture
  /-- What the instruments have been told. -/
  meter : List Measurement

def State.initial : State := ⟨[], []⟩

inductive Label
  /-- `Service::call`; the inner call may panic before there is a future. -/
  | call (msg : JsonRpcMessage) (now : Nat) (panics : Bool)
  /-- The inner future is polled, and is perhaps ready. -/
  | poll (n : Nat) (ready : Option CallResult) (now : Nat)
  | drop (n : Nat) (now : Nat)

def record (base : Labels) (outcome : Outcome) (elapsed : Nat) : List Measurement :=
  [.requests base outcome, .duration base outcome elapsed, .inFlight base (-1)]

/-- Take the labels, if they are still there, and record the request. -/
def State.finish (s : State) (n : Nat) (future : MetricsFuture) (outcome : Outcome) (now : Nat)
    (dropped : Bool) : State where
  futures := s.futures.set n { future with labels := none, dropped }
  meter := s.meter ++ (future.labels.map fun base =>
    record base outcome (now - future.start)).getD []

def step (s : State) : Label → Option State
  | .call msg now panics =>
      some
        { futures :=
            if panics then s.futures
            else s.futures ++ [{ labels := baseLabels msg, start := now, dropped := false }]
          meter :=
            s.meter ++ ((baseLabels msg).map fun base => Measurement.inFlight base 1).toList }
  | .poll n ready now =>
      match s.futures[n]? with
      | none => none
      | some future =>
          if future.dropped then none
          else
            match ready with
            | none => some s
            | some result => some (s.finish n future (outcomeOf result) now false)
  | .drop n now =>
      match s.futures[n]? with
      | none => none
      | some future =>
          if future.dropped then none else some (s.finish n future .cancelled now true)

def Step (s : State) (a : Label) (t : State) : Prop := step s a = some t

/-! ## What happened -/

/-- One call, and how it ended first. -/
structure Seen where
  labels : Option Labels
  start : Nat
  ending : Option (Outcome × Nat)

structure Observed where
  calls : List Seen
  /-- The measured calls that panicked. -/
  panicked : List Labels

def Observed.nothing : Observed := ⟨[], []⟩

def Seen.endWith (seen : Seen) (outcome : Outcome) (now : Nat) : Seen :=
  { seen with ending := seen.ending.or (some (outcome, now)) }

def Observed.note (o : Observed) : Label → Observed
  | .call msg now panics =>
      if panics then { o with panicked := o.panicked ++ (baseLabels msg).toList }
      else { o with calls := o.calls ++ [⟨baseLabels msg, now, Option.none⟩] }
  | .poll n (some result) now =>
      { o with calls := o.calls.modify n (·.endWith (outcomeOf result) now) }
  | .poll _ none _ => o
  | .drop n now => { o with calls := o.calls.modify n (·.endWith .cancelled now) }

def observed (labels : List Label) : Observed := labels.foldl Observed.note Observed.nothing

/-- What a measured call that has ended is to be recorded with. -/
def Seen.reading (seen : Seen) : Option (Labels × Outcome × Nat) :=
  seen.labels.bind fun base => seen.ending.map fun e => (base, e.1, e.2 - seen.start)

/-- The labels of a measured call that has not. -/
def Seen.running (seen : Seen) : Option Labels := if seen.ending.isNone then seen.labels else none

/-! ## The instruments -/

def Measurement.asRequest : Measurement → Option (Labels × Outcome)
  | requests base outcome => some (base, outcome)
  | _ => none

def Measurement.asDuration : Measurement → Option (Labels × Outcome × Nat)
  | duration base outcome elapsed => some (base, outcome, elapsed)
  | _ => none

def Measurement.deltaOf (labels : Labels) : Measurement → Int
  | inFlight base delta => if base = labels then delta else 0
  | _ => 0

/-- The gauge of one set of labels. -/
def gauge (labels : Labels) (meter : List Measurement) : Int :=
  (meter.map (Measurement.deltaOf labels)).sum

variable {labels : Labels} {meter more : List Measurement}

theorem gauge_append : gauge labels (meter ++ more) = gauge labels meter + gauge labels more := by
  unfold gauge
  rw [List.map_append, List.sum_append]

theorem gauge_record (base : Labels) (outcome : Outcome) (elapsed : Nat) :
    gauge labels (record base outcome elapsed) = if base = labels then -1 else 0 := by
  simp [gauge, record, Measurement.deltaOf]

/-! ## What the instruments add up to -/

/-- A future still holds the labels of its call exactly until the call has ended. -/
def Matches (future : MetricsFuture) (seen : Seen) : Prop :=
  future.labels = seen.running ∧ future.start = seen.start

/-- The instruments add up to what happened. -/
structure AddsUp (o : Observed) (s : State) : Prop where
  futures : List.Forall₂ Matches s.futures o.calls
  durations : (s.meter.filterMap Measurement.asDuration).Perm (o.calls.filterMap Seen.reading)
  requests : s.meter.filterMap Measurement.asRequest =
    (s.meter.filterMap Measurement.asDuration).map fun r => (r.1, r.2.1)
  inFlight : ∀ labels, gauge labels s.meter =
    (o.calls.filterMap Seen.running).count labels + o.panicked.count labels

theorem addsUp_initial : AddsUp Observed.nothing State.initial :=
  ⟨.nil, .refl _, rfl, fun _ => rfl⟩

/-- A call that has ended already is not ended again. -/
theorem Seen.endWith_of_ended {seen : Seen} (h : seen.ending.isNone = false)
    (outcome : Outcome) (now : Nat) : seen.endWith outcome now = seen := by
  obtain ⟨labels, start, ending⟩ := seen
  cases ending with
  | none => cases h
  | some e => rfl

theorem Seen.reading_endWith {seen : Seen} (h : seen.ending = none) (outcome : Outcome)
    (now : Nat) : (seen.endWith outcome now).reading =
      seen.running.map fun base => (base, outcome, now - seen.start) := by
  unfold endWith reading running
  rw [h]
  cases seen.labels <;> rfl

theorem Seen.running_endWith (seen : Seen) (outcome : Outcome) (now : Nat) :
    (seen.endWith outcome now).running = none := by
  unfold endWith running
  cases seen.ending <;> rfl

theorem Seen.reading_of_running {seen : Seen} (h : seen.ending = none) : seen.reading = none := by
  unfold reading
  rw [h]
  cases seen.labels <;> rfl

theorem Seen.running_of_ended {seen : Seen} (h : seen.ending.isNone = false) :
    seen.running = none := by
  unfold running
  rw [h]
  rfl

/-- What one report adds up to. -/
theorem reports_record (base : Labels) (outcome : Outcome) (elapsed : Nat) :
    (record base outcome elapsed).filterMap Measurement.asDuration = [(base, outcome, elapsed)] ∧
      (record base outcome elapsed).filterMap Measurement.asRequest = [(base, outcome)] :=
  ⟨rfl, rfl⟩

/-- A call is observed before its future is made. -/
theorem AddsUp.call {o : Observed} {s t : State} (h : AddsUp o s) {msg : JsonRpcMessage}
    {now : Nat} {panics : Bool} (hstep : Step s (.call msg now panics) t) :
    AddsUp (o.note (.call msg now panics)) t := by
  obtain rfl := Option.some.inj hstep
  have hinFlight : ∀ labels : Labels,
      gauge labels ((baseLabels msg).map fun base => Measurement.inFlight base 1).toList =
        (baseLabels msg).toList.count labels := by
    intro labels
    cases baseLabels msg with
    | none => rfl
    | some base =>
        by_cases hbase : base = labels
        · simp [gauge, Measurement.deltaOf, hbase]
        · simp [gauge, Measurement.deltaOf, hbase]
  have hnothing : ((baseLabels msg).map fun base => Measurement.inFlight base 1).toList.filterMap
        Measurement.asDuration = [] ∧
      ((baseLabels msg).map fun base => Measurement.inFlight base 1).toList.filterMap
        Measurement.asRequest = [] := by
    cases baseLabels msg <;> exact ⟨rfl, rfl⟩
  cases panics with
  | true =>
      refine ⟨h.futures, ?_, ?_, fun labels => ?_⟩
      · rw [List.filterMap_append, hnothing.1, List.append_nil]
        exact h.durations
      · rw [List.filterMap_append, List.filterMap_append, hnothing.1, hnothing.2, List.append_nil,
          List.append_nil]
        exact h.requests
      · rw [gauge_append, h.inFlight labels, hinFlight labels]
        simp only [Observed.note, if_true, List.count_append]
        push_cast
        omega
  | false =>
      refine ⟨?_, ?_, ?_, fun labels => ?_⟩
      · exact List.rel_append h.futures (.cons ⟨rfl, rfl⟩ .nil)
      · rw [List.filterMap_append, hnothing.1, List.append_nil]
        simp only [Observed.note, Bool.false_eq_true, if_false, List.filterMap_append]
        rw [show List.filterMap Seen.reading [⟨baseLabels msg, now, none⟩] = [] by
          simp [Seen.reading], List.append_nil]
        exact h.durations
      · rw [List.filterMap_append, List.filterMap_append, hnothing.1, hnothing.2, List.append_nil,
          List.append_nil]
        exact h.requests
      · rw [gauge_append, h.inFlight labels, hinFlight labels]
        simp only [Observed.note, Bool.false_eq_true, if_false, List.filterMap_append,
          List.count_append]
        have hrunning : List.filterMap Seen.running [⟨baseLabels msg, now, none⟩] =
            (baseLabels msg).toList := by
          cases baseLabels msg <;> rfl
        rw [hrunning]
        push_cast
        omega

/-- A future ends, or is ended again, as its call is observed to. -/
theorem AddsUp.finish {o : Observed} {s : State} (h : AddsUp o s) {n : Nat}
    {future : MetricsFuture} (hget : s.futures[n]? = some future) (outcome : Outcome) (now : Nat)
    (dropped : Bool) :
    AddsUp { o with calls := o.calls.modify n (·.endWith outcome now) }
      (s.finish n future outcome now dropped) := by
  obtain ⟨hn, hfuture⟩ := List.getElem?_eq_some_iff.mp hget
  have hlength := h.futures.length_eq
  have hn' : n < o.calls.length := hlength ▸ hn
  have hseen : o.calls[n]? = some o.calls[n] := List.getElem?_eq_getElem hn'
  have hmatches : Matches future o.calls[n] := by
    rw [← hfuture]
    exact h.futures.get hn hn'
  have hmodify := modify_eq_of_getElem? hseen (·.endWith outcome now)
  generalize o.calls[n] = seen at hseen hmatches hmodify
  obtain ⟨hlabels, hstart⟩ := hmatches
  have hfutures : List.Forall₂ Matches (s.finish n future outcome now dropped).futures
      (o.calls.modify n (·.endWith outcome now)) := by
    rw [hmodify]
    exact forall₂_set h.futures n ⟨(seen.running_endWith outcome now).symm, hstart⟩
  rcases hended : seen.ending.isNone with _ | _
  · -- nothing is left to record
    have hsame : o.calls.modify n (·.endWith outcome now) = o.calls := by
      rw [hmodify, seen.endWith_of_ended hended, set_eq_of_getElem? hseen]
      exact (eq_of_getElem? hseen).symm
    have hnone : future.labels = none := hlabels.trans (seen.running_of_ended hended)
    have hmeter : (s.finish n future outcome now dropped).meter = s.meter := by
      simp [State.finish, hnone]
    rw [hsame] at hfutures ⊢
    refine ⟨hfutures, ?_, ?_, ?_⟩
    · rw [hmeter]
      exact h.durations
    · rw [hmeter]
      exact h.requests
    · rw [hmeter]
      exact h.inFlight
  · have hending : seen.ending = none := Option.isNone_iff_eq_none.mp hended
    have hreadings := perm_filterMap_set (f := Seen.reading) hseen (seen.endWith outcome now)
    have hrunnings := perm_filterMap_set (f := Seen.running) hseen (seen.endWith outcome now)
    rw [← hmodify, seen.reading_of_running hending, seen.reading_endWith hending, ← hlabels,
      ← hstart] at hreadings
    rw [← hmodify, seen.running_endWith, ← hlabels] at hrunnings
    cases hbase : future.labels with
    | none =>
        -- an unmeasured message ends unrecorded
        have hmeter : (s.finish n future outcome now dropped).meter = s.meter := by
          simp [State.finish, hbase]
        rw [hbase] at hreadings hrunnings
        simp only [Option.map_none, Option.toList_none, List.append_nil] at hreadings hrunnings
        refine ⟨hfutures, ?_, ?_, fun labels => ?_⟩
        · rw [hmeter]
          exact h.durations.trans hreadings.symm
        · rw [hmeter]
          exact h.requests
        · rw [hmeter, h.inFlight labels, hrunnings.count_eq labels]
    | some base =>
        have hmeter : (s.finish n future outcome now dropped).meter =
            s.meter ++ record base outcome (now - future.start) := by
          simp [State.finish, hbase]
        obtain ⟨hduration, hrequest⟩ := reports_record base outcome (now - future.start)
        rw [hbase] at hreadings hrunnings
        simp only [Option.map_some, Option.toList_some, Option.toList_none, List.append_nil]
          at hreadings hrunnings
        refine ⟨hfutures, ?_, ?_, fun labels => ?_⟩
        · rw [hmeter, List.filterMap_append, hduration]
          exact (h.durations.append_right _).trans hreadings.symm
        · rw [hmeter, List.filterMap_append, List.filterMap_append, hduration, hrequest, h.requests,
            List.map_append]
          rfl
        · rw [hmeter, gauge_append, gauge_record, h.inFlight labels, ← hrunnings.count_eq labels,
            List.count_append]
          by_cases hlabel : base = labels
          · subst hlabel
            simp
            omega
          · rw [if_neg hlabel, List.count_singleton, if_neg (by simpa using hlabel)]
            simp

theorem AddsUp.step {o : Observed} {s t : State} {a : Label} (h : AddsUp o s)
    (hstep : Step s a t) : AddsUp (o.note a) t := by
  cases a with
  | call msg now panics => exact h.call hstep
  | poll n ready now =>
      unfold Step Telemetry.step at hstep
      simp only at hstep
      split at hstep
      · cases hstep
      · rename_i future hget
        split at hstep
        · cases hstep
        · cases ready with
          | none =>
              cases hstep
              exact h
          | some result =>
              cases hstep
              exact h.finish hget (outcomeOf result) now false
  | drop n now =>
      unfold Step Telemetry.step at hstep
      simp only at hstep
      split at hstep
      · cases hstep
      · rename_i future hget
        split at hstep
        · cases hstep
        · cases hstep
          exact h.finish hget .cancelled now true

theorem addsUp_of_run {tr : List (Label × State)} {o : Observed} {s : State} (h : AddsUp o s)
    (hrun : Run Step s tr) :
    AddsUp ((tr.map Prod.fst).foldl Observed.note o) (final s tr) := by
  induction tr generalizing o s with
  | nil => exact h
  | cons x tr ih =>
      obtain ⟨a, t⟩ := x
      obtain ⟨hstep, hrun⟩ := run_cons.mp hrun
      exact ih (h.step hstep) hrun

/-! ## Every run -/

/-- **The instruments add up**: after every run of calls, polls and drops, each measured call
that has ended is recorded once, with its first ending and the time to it, and the gauge of
each set of labels is the number of calls under way, with those that panicked before there
was a future for them. -/
theorem metrics_exact {tr : List (Label × State)} (hrun : Run Step State.initial tr) :
    ((final State.initial tr).meter.filterMap Measurement.asDuration).Perm
        ((observed (tr.map Prod.fst)).calls.filterMap Seen.reading) ∧
      (final State.initial tr).meter.filterMap Measurement.asRequest =
        ((final State.initial tr).meter.filterMap Measurement.asDuration).map
          (fun r => (r.1, r.2.1)) ∧
      ∀ labels, gauge labels (final State.initial tr).meter =
        ((observed (tr.map Prod.fst)).calls.filterMap Seen.running).count labels +
          (observed (tr.map Prod.fst)).panicked.count labels := by
  have h := addsUp_of_run addsUp_initial hrun
  exact ⟨h.durations, h.requests, h.inFlight⟩

def listing : JsonRpcMessage :=
  .request { id := .number 1, method := "tools/list", params := none }

/-- One call is answered, and its future dropped after that; one is dropped on the way; one
panics. -/
def sampleLabels : List Label :=
  [.call listing 0 false, .call listing 1 false, .call listing 2 true,
    .poll 0 none 3, .poll 0 (some (.ok none)) 4, .drop 0 5, .drop 1 6]

def act (s : State) (a : Label) : State := (step s a).getD s

theorem metrics_exact_sample :
    ∃ tr, Run Step State.initial tr ∧
      (final State.initial tr).meter.filterMap Measurement.asDuration =
        [(⟨"tools/list", "unknown"⟩, .ok, 4), (⟨"tools/list", "unknown"⟩, .cancelled, 5)] ∧
      gauge ⟨"tools/list", "unknown"⟩ (final State.initial tr).meter = 1 ∧
      ((final State.initial tr).meter.filterMap Measurement.asDuration).Perm
        ((observed (tr.map Prod.fst)).calls.filterMap Seen.reading) := by
  have hchecked : checked act (fun s a => (step s a).isSome) State.initial sampleLabels = true := by
    decide +kernel
  have hrun : Run Step State.initial (trace act State.initial sampleLabels) := by
    refine run_trace_of_checked (fun s a hsome => ?_) hchecked
    obtain ⟨t, ht⟩ := Option.isSome_iff_exists.mp hsome
    show step s a = some ((step s a).getD s)
    rw [ht, Option.getD_some]
  exact ⟨_, hrun, by decide +kernel, by decide +kernel, (metrics_exact hrun).1⟩

end TurboMcp.Telemetry
