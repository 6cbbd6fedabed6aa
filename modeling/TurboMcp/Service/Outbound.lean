import TurboMcp.Lib.Dict
import TurboMcp.Lib.Runs

/-!
# The outbound writer table

`outbound.rs` maps a connection id to the sender of that connection's writer.
A registration lives as long as its `WriterGuard`; dropping the guard takes the
entry under its id out of the table, whichever registration put it there.

The abstract reading is the list of live registrations, newest first: a
message for `id` belongs to the newest live registration of `id`.  The table
agrees with it along a run exactly when no guard is dropped while another
registration of the same id is alive.
-/

namespace TurboMcp.Service.Outbound

open TurboMcp.Lib

variable {Tx : Type}

/-! ## The table -/

abbrev Table (Tx : Type) := Dict String Tx

/-- Unregisters its connection's writer when dropped. -/
structure WriterGuard where
  connectionId : String

/-- `Drop for WriterGuard`: removes by id, without looking at the sender. -/
def WriterGuard.drop (guard : WriterGuard) (table : Table Tx) : Table Tx :=
  table.remove guard.connectionId

/-- Make `tx` the writer for `connectionId`, replacing any previous one. -/
def register (table : Table Tx) (connectionId : String) (tx : Tx) :
    Table Tx × WriterGuard :=
  (table.insert connectionId tx, ⟨connectionId⟩)

def writer (table : Table Tx) (connectionId : String) : Option Tx :=
  table.get connectionId

/-- The table key of a legacy session's `GET` stream. -/
def sessionStreamId (sessionId : String) : String := "http-get-" ++ sessionId

theorem writer_register (table : Table Tx) (c : String) (tx : Tx) (id : String) :
    writer (register table c tx).1 id = if c = id then some tx else writer table id :=
  Dict.get_insert table c tx id

theorem writer_drop (guard : WriterGuard) (table : Table Tx) (id : String) :
    writer (guard.drop table) id =
      if guard.connectionId = id then none else writer table id :=
  Dict.get_remove table guard.connectionId id

/-! ## Runs of registrations and drops -/

/-- A registration whose guard is alive. -/
structure Registration (Tx : Type) where
  serial : Nat
  guard : WriterGuard
  tx : Tx

structure State (Tx : Type) where
  table : Table Tx
  /-- The live registrations, newest first. -/
  live : List (Registration Tx)
  /-- The serial number of the next registration. -/
  next : Nat

inductive Op (Tx : Type)
  | register (connectionId : String) (tx : Tx)
  | drop (serial : Nat)

def State.init : State Tx := ⟨Dict.empty, [], 0⟩

/-- A guard can be dropped once, at any time after its registration. -/
def step (st : State Tx) : Op Tx → Option (State Tx)
  | .register c tx =>
      let (table, guard) := register st.table c tx
      some ⟨table, ⟨st.next, guard, tx⟩ :: st.live, st.next + 1⟩
  | .drop n =>
      (st.live.find? (·.serial = n)).map fun r =>
        ⟨r.guard.drop st.table, st.live.filter (·.serial ≠ n), st.next⟩

def Step (st : State Tx) (op : Op Tx) (st' : State Tx) : Prop := step st op = some st'

/-- The newest live registration of `id`. -/
def latest (live : List (Registration Tx)) (id : String) : Option (Registration Tx) :=
  live.find? fun r => r.guard.connectionId = id

/-- The table sends every id to its newest live registration. -/
def RoutesToLatest (st : State Tx) : Prop :=
  ∀ id, writer st.table id = (latest st.live id).map (·.tx)

/-- A dropped guard is the only live one of its id. -/
def DropsSoleGuard (st : State Tx) : Op Tx → Prop
  | .register _ _ => True
  | .drop n => ∀ r ∈ st.live, r.serial = n → ∀ r' ∈ st.live,
      r'.guard.connectionId = r.guard.connectionId → r'.serial = n

/-- Serial numbers name live registrations. -/
def SerialsUnique (st : State Tx) : Prop :=
  (st.live.map (·.serial)).Nodup ∧ ∀ r ∈ st.live, r.serial < st.next

theorem step_cases {st st' : State Tx} {op : Op Tx} (h : Step st op st') :
    (∃ c tx, op = .register c tx ∧ st' = ⟨(register st.table c tx).1,
        ⟨st.next, ⟨c⟩, tx⟩ :: st.live, st.next + 1⟩) ∨
    (∃ r ∈ st.live, op = .drop r.serial ∧ st' = ⟨r.guard.drop st.table,
        st.live.filter (·.serial ≠ r.serial), st.next⟩) := by
  cases op with
  | register c tx =>
      simp only [Step, step, register, Option.some.injEq] at h
      exact Or.inl ⟨c, tx, rfl, h.symm⟩
  | drop n =>
      simp only [Step, step, Option.map_eq_some_iff] at h
      obtain ⟨r, hr, rfl⟩ := h
      have hn : r.serial = n := by simpa using List.find?_some hr
      subst hn
      exact Or.inr ⟨r, List.mem_of_find?_eq_some hr, rfl, rfl⟩

theorem serialsUnique_step {st st' : State Tx} {op : Op Tx} (h : Step st op st')
    (hu : SerialsUnique st) : SerialsUnique st' := by
  obtain ⟨hnd, hlt⟩ := hu
  rcases step_cases h with ⟨c, tx, -, rfl⟩ | ⟨r, -, -, rfl⟩
  · refine ⟨?_, ?_⟩
    · rw [List.map_cons, List.nodup_cons]
      refine ⟨?_, hnd⟩
      rw [List.mem_map]
      rintro ⟨r, hr, hs⟩
      exact absurd hs (Nat.ne_of_lt (hlt r hr))
    · intro r hr
      rw [List.mem_cons] at hr
      rcases hr with rfl | hr
      · exact Nat.lt_succ_self _
      · exact Nat.lt_succ_of_lt (hlt r hr)
  · refine ⟨hnd.sublist (List.filter_sublist.map _), ?_⟩
    intro r' hr'
    exact hlt r' (List.mem_of_mem_filter hr')

/-! ## Which registration is the newest -/

theorem latest_eq_none_iff (live : List (Registration Tx)) (id : String) :
    latest live id = none ↔ ∀ r ∈ live, r.guard.connectionId ≠ id := by
  simp [latest]

/-- Dropping a guard of another id leaves the newest of `id` alone. -/
theorem latest_filter_of_ne {live : List (Registration Tx)} {r : Registration Tx}
    (hnd : (live.map (·.serial)).Nodup) (hr : r ∈ live) {id : String}
    (hid : r.guard.connectionId ≠ id) :
    latest (live.filter (·.serial ≠ r.serial)) id = latest live id := by
  have hkeep : ∀ r' ∈ live, r'.guard.connectionId = id → r'.serial ≠ r.serial := by
    rintro r' hr' rfl hs
    exact hid (by rw [List.inj_on_of_nodup_map hnd hr' hr hs])
  rw [latest, latest, List.find?_filter]
  clear hnd hr
  induction live with
  | nil => rfl
  | cons x live ih =>
      have hx := hkeep x List.mem_cons_self
      have ih := ih fun r' hr' => hkeep r' (List.mem_cons_of_mem _ hr')
      by_cases hc : x.guard.connectionId = id
      · simp [hc, hx hc]
      · simpa [hc] using ih

/-- After a drop no registration of that id is left exactly when the dropped
guard was the only live one. -/
theorem latest_filter_eq_none_iff (live : List (Registration Tx))
    (r : Registration Tx) :
    latest (live.filter (·.serial ≠ r.serial)) r.guard.connectionId = none ↔
      ∀ r' ∈ live, r'.guard.connectionId = r.guard.connectionId →
        r'.serial = r.serial := by
  rw [latest_eq_none_iff]
  constructor
  · intro h r' hr' hid
    by_contra hs
    exact h r' (List.mem_filter.mpr ⟨hr', by simpa using hs⟩) hid
  · intro h r' hr' hid
    obtain ⟨hr', hs⟩ := List.mem_filter.mp hr'
    exact absurd (h r' hr' hid) (by simpa using hs)

theorem routesToLatest_register {st st' : State Tx} {c : String} {tx : Tx}
    (h : Step st (.register c tx) st') (hP : RoutesToLatest st) : RoutesToLatest st' := by
  simp only [Step, step, register, Option.some.injEq] at h
  subst h
  intro id
  have hw := writer_register st.table c tx id
  rw [register] at hw
  rw [hw]
  by_cases hc : c = id
  · simp [latest, hc]
  · simpa [latest, hc] using hP id

/-- One drop keeps the routing right exactly when it drops the sole live guard
of its id. -/
theorem routesToLatest_drop_iff {st st' : State Tx} {n : Nat}
    (h : Step st (.drop n) st') (hu : SerialsUnique st) (hP : RoutesToLatest st) :
    RoutesToLatest st' ↔ DropsSoleGuard st (.drop n) := by
  rcases step_cases h with ⟨c, tx, hop, -⟩ | ⟨r, hr, hop, rfl⟩
  · exact absurd hop (by simp)
  obtain rfl := Op.drop.inj hop
  have hsole : DropsSoleGuard st (.drop r.serial) ↔
      ∀ r' ∈ st.live, r'.guard.connectionId = r.guard.connectionId →
        r'.serial = r.serial := by
    constructor
    · intro hd
      exact hd r hr rfl
    · intro hd r₁ hr₁ hs
      rw [List.inj_on_of_nodup_map hu.1 hr₁ hr hs]
      exact hd
  rw [hsole, ← latest_filter_eq_none_iff]
  constructor
  · intro hP'
    have hid := hP' r.guard.connectionId
    rw [writer_drop, if_pos rfl] at hid
    exact Option.map_eq_none_iff.mp hid.symm
  · intro hnone id
    rw [writer_drop]
    by_cases hid : r.guard.connectionId = id
    · subst hid
      rw [if_pos rfl, hnone]
      rfl
    · rw [if_neg hid, latest_filter_of_ne hu.1 hr hid]
      exact hP id

/-! ## Whole runs -/

/-- **Routing along a run**: `writer` answers with the newest live registration
in every state of a run exactly when each guard the run drops is, at that
moment, the only live guard of its id. -/
theorem writer_eq_latest_iff (tr : List (Op Tx × State Tx))
    (hrun : Run Step State.init tr) :
    (∀ st ∈ states State.init tr, RoutesToLatest st) ↔
      ∀ x ∈ steps State.init tr, DropsSoleGuard x.1 x.2.1 := by
  refine hrun.forall_states_iff (I := SerialsUnique) (G := DropsSoleGuard)
    ⟨List.nodup_nil, by simp [State.init]⟩ (fun id => rfl)
    (fun st op st' h hu => serialsUnique_step h hu) ?_
  intro st op st' h hu hP
  cases op with
  | register c tx => exact iff_of_true (routesToLatest_register h hP) trivial
  | drop n => exact routesToLatest_drop_iff h hu hP

/-- The old stream of a session ends before the new one opens. -/
def reopen : List (Op Nat × State Nat) :=
  let id := sessionStreamId "s"
  let t₁ : State Nat := ⟨⟨[(id, 1)], by simp⟩, [⟨0, ⟨id⟩, 1⟩], 1⟩
  let t₂ : State Nat := ⟨⟨[], by simp⟩, [], 1⟩
  let t₃ : State Nat := ⟨⟨[(id, 2)], by simp⟩, [⟨1, ⟨id⟩, 2⟩], 2⟩
  [(.register id 1, t₁), (.drop 0, t₂), (.register id 2, t₃)]

theorem run_reopen : Run Step State.init reopen := by
  simp [reopen, Step, step, register, State.init, Dict.insert, Dict.empty,
    Entries.insert, WriterGuard.drop, Dict.remove, Dict.retain]

theorem writer_eq_latest_reopen : RoutesToLatest (final State.init reopen) := by
  refine (writer_eq_latest_iff reopen run_reopen).mpr ?_ _ (final_mem_states _ _)
  simp [reopen, DropsSoleGuard]

/-- The new stream opens (serial `1`) before the old one (serial `0`) ends. -/
def reconnect : List (Op Nat × State Nat) :=
  let id := sessionStreamId "s"
  let t₁ : State Nat := ⟨⟨[(id, 1)], by simp⟩, [⟨0, ⟨id⟩, 1⟩], 1⟩
  let t₂ : State Nat := ⟨⟨[(id, 2)], by simp⟩, [⟨1, ⟨id⟩, 2⟩, ⟨0, ⟨id⟩, 1⟩], 2⟩
  let t₃ : State Nat := ⟨⟨[], by simp⟩, [⟨1, ⟨id⟩, 2⟩], 2⟩
  [(.register id 1, t₁), (.register id 2, t₂), (.drop 0, t₃)]

theorem run_reconnect : Run Step State.init reconnect := by
  simp [reconnect, Step, step, register, State.init, Dict.insert, Dict.empty,
    Entries.insert, WriterGuard.drop, Dict.remove, Dict.retain]

/-- The stale guard takes the new stream's entry with it. -/
theorem stale_drop_unregisters :
    ∃ tr : List (Op Nat × State Nat), Run Step State.init tr ∧
      ∃ st ∈ states State.init tr,
        writer st.table (sessionStreamId "s") = none ∧
        (latest st.live (sessionStreamId "s")).map (·.tx) = some 2 := by
  refine ⟨reconnect, run_reconnect, _, final_mem_states _ _, ?_, ?_⟩ <;> rfl

end TurboMcp.Service.Outbound
