import TurboMcp.Lib.Dict
import TurboMcp.Server.Params

/-!
# The bundled session store

`SessionStore` keeps the legacy sessions, bounded by a capacity and optionally
by an idle timeout.  A session leaves it in four ways: it is removed, swept,
found expired by the `get` that looks it up, or evicted by an `insert` at
capacity.  The clock comes from outside, and so does the order in which the
hash table is iterated: `pick` names the entry that comes first among equals.
-/

namespace TurboMcp.Server

open TurboMcp.Core TurboMcp.Lib

structure SessionEntry where
  state : SessionState
  lastSeen : Nat

structure SessionStore where
  inner : Dict String SessionEntry
  capacity : Nat
  idleTimeout : Option Nat

namespace SessionStore

def defaultCapacity : Nat := 4096

def withCapacity (capacity : Nat) : SessionStore :=
  { inner := Dict.empty, capacity := max capacity 1, idleTimeout := none }

def withIdleTimeout (st : SessionStore) (timeout : Option Nat) : SessionStore :=
  { st with idleTimeout := timeout }

def isExpired (st : SessionStore) (entry : SessionEntry) (now : Nat) : Bool :=
  match st.idleTimeout with
  | none => false
  | some t => decide (t ≤ now - entry.lastSeen)

/-- No session was seen longer ago. -/
def isOldest (st : SessionStore) (entry : SessionEntry) : Bool :=
  st.inner.entries.all fun e => entry.lastSeen ≤ e.2.lastSeen

/-- The least recently seen session, `pick` where it is one of several. -/
def oldest (st : SessionStore) (pick : String) : Option String :=
  match st.inner.get pick with
  | some entry =>
      if st.isOldest entry then some pick
      else (st.inner.entries.find? fun e => st.isOldest e.2).map Prod.fst
  | none => (st.inner.entries.find? fun e => st.isOldest e.2).map Prod.fst

/-- The session an `insert` of `id` drops to make room. -/
def evicted (st : SessionStore) (pick id : String) : Option String :=
  if (st.inner.get id).isNone ∧ st.capacity ≤ st.inner.len then st.oldest pick else none

def insert (st : SessionStore) (now : Nat) (pick id : String) (state : SessionState) :
    SessionStore :=
  let inner := match st.evicted pick id with
    | some victim => st.inner.remove victim
    | none => st.inner
  { st with inner := inner.insert id { state, lastSeen := now } }

/-- Look a session up, refreshing it; an expired one is dropped on the spot. -/
def get (st : SessionStore) (now : Nat) (id : String) : SessionStore × Option SessionState :=
  match st.inner.get id with
  | none => (st, none)
  | some entry =>
      if st.isExpired entry now then ({ st with inner := st.inner.remove id }, none)
      else ({ st with inner := st.inner.insert id { entry with lastSeen := now } },
        some entry.state)

/-- The sessions past their idle timeout. -/
def expiredIds (st : SessionStore) (now : Nat) : List String :=
  (st.inner.entries.filter fun e => st.isExpired e.2 now).map Prod.fst

/-- Drop and return every session past its idle timeout. -/
def sweepExpired (st : SessionStore) (now : Nat) : SessionStore × List String :=
  ({ st with inner := st.inner.retain fun _ e => !st.isExpired e now }, st.expiredIds now)

def contains (st : SessionStore) (id : String) : Bool := (st.inner.get id).isSome

def setLogLevel (st : SessionStore) (now : Nat) (id : String) (level : LogLevel) :
    SessionStore × Bool :=
  match st.inner.get id with
  | none => (st, false)
  | some entry =>
      ({ st with
          inner := st.inner.insert id
            { state := { entry.state with logLevel := some level }, lastSeen := now } }, true)

def remove (st : SessionStore) (id : String) : SessionStore × Bool :=
  ({ st with inner := st.inner.remove id }, st.contains id)

/-! ## Which sessions are live

Each operation's effect on the set of live sessions. -/

theorem contains_insert (st : SessionStore) (now : Nat) (pick id : String)
    (state : SessionState) (id' : String) :
    (st.insert now pick id state).contains id' = true ↔
      id' = id ∨ st.contains id' = true ∧ st.evicted pick id ≠ some id' := by
  unfold contains insert
  rw [Dict.get_insert]
  by_cases hid : id = id'
  · simp [hid]
  · rw [if_neg hid]
    cases hv : st.evicted pick id with
    | none => simp [Ne.symm hid]
    | some victim =>
        simp only [Dict.get_remove]
        by_cases hvid : victim = id'
        · simp [hvid, Ne.symm hid]
        · simp [hvid, Ne.symm hid]

theorem contains_get (st : SessionStore) (now : Nat) (id id' : String) :
    (st.get now id).1.contains id' = true ↔
      st.contains id' = true ∧ ((st.get now id).2 = none → id' ≠ id) := by
  unfold get contains
  cases hget : st.inner.get id with
  | none =>
      simp only [true_implies]
      constructor
      · intro h
        refine ⟨h, ?_⟩
        rintro rfl
        rw [hget] at h
        exact absurd h (by simp)
      · exact And.left
  | some entry =>
      by_cases hexp : st.isExpired entry now = true
      · simp only [hexp, if_true, true_implies, Dict.get_remove]
        by_cases hid : id = id'
        · simp [hid]
        · simp [hid, Ne.symm hid]
      · simp only [hexp, Bool.false_eq_true, if_false, reduceCtorEq, false_implies, and_true,
          Dict.get_insert]
        by_cases hid : id = id'
        · subst hid
          simp [hget]
        · simp [hid]

theorem mem_expiredIds (st : SessionStore) (now : Nat) (id : String) :
    id ∈ st.expiredIds now ↔
      ∃ entry, st.inner.get id = some entry ∧ st.isExpired entry now = true := by
  unfold expiredIds
  rw [List.mem_map]
  constructor
  · rintro ⟨⟨id', entry⟩, hmem, rfl⟩
    rw [List.mem_filter] at hmem
    exact ⟨entry, (Dict.get_eq_some_iff ..).mpr hmem.1, hmem.2⟩
  · rintro ⟨entry, hget, hexp⟩
    exact ⟨(id, entry), List.mem_filter.mpr ⟨(Dict.get_eq_some_iff ..).mp hget, hexp⟩, rfl⟩

theorem contains_sweepExpired (st : SessionStore) (now : Nat) (id : String) :
    (st.sweepExpired now).1.contains id = true ↔
      st.contains id = true ∧ id ∉ (st.sweepExpired now).2 := by
  unfold sweepExpired contains
  rw [mem_expiredIds, Dict.get_retain]
  cases hget : st.inner.get id with
  | none => simp
  | some entry => cases hexp : st.isExpired entry now <;> simp [hexp]

theorem contains_setLogLevel (st : SessionStore) (now : Nat) (id : String) (level : LogLevel)
    (id' : String) :
    (st.setLogLevel now id level).1.contains id' = st.contains id' := by
  unfold setLogLevel contains
  cases hget : st.inner.get id with
  | none => rfl
  | some entry =>
      rw [Dict.get_insert]
      by_cases hid : id = id'
      · subst hid
        simp [hget]
      · simp [hid]

theorem contains_remove (st : SessionStore) (id id' : String) :
    (st.remove id).1.contains id' = true ↔ st.contains id' = true ∧ id' ≠ id := by
  unfold remove contains
  rw [Dict.get_remove]
  by_cases hid : id = id'
  · simp [hid]
  · simp [hid, Ne.symm hid]

end SessionStore

end TurboMcp.Server
