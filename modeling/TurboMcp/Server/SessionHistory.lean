import Mathlib.Data.List.Induction
import TurboMcp.Lib.Recency
import TurboMcp.Server.Session

/-!
# The session store over its operations

The store forgets its history; what it keeps of each session is when it was last
seen, and the state that came of what was inserted and set (`Tracks`).  Without
an idle timeout it is a bounded least-recently-used table (`bounded_lru`).  With
one, each operation decides for itself whether to look at it: a session that has
expired stays gone as long as none of those that do not look meets it
(`expiry_final_iff`).
-/

namespace TurboMcp.Server

open TurboMcp.Core TurboMcp.Lib

/-- An operation; `pick` is the entry the table's order puts up among equals. -/
inductive SessionOp
  | insert (pick id : String) (state : SessionState)
  | get (id : String)
  | setLogLevel (id : String) (level : LogLevel)
  | contains (id : String)
  | remove (id : String)
  | sweepExpired

namespace SessionOp

/-- The session an operation refreshes. -/
def refreshes : SessionOp → Option String
  | insert _ id _ => some id
  | get id => some id
  | setLogLevel id _ => some id
  | _ => none

end SessionOp

namespace SessionStore

/-- The store after an operation. -/
def after (st : SessionStore) (now : Nat) : SessionOp → SessionStore
  | .insert pick id state => st.insert now pick id state
  | .get id => (st.get now id).1
  | .setLogLevel id level => (st.setLogLevel now id level).1
  | .contains _ => st
  | .remove id => (st.remove id).1
  | .sweepExpired => (st.sweepExpired now).1

/-- The store after a history. -/
def replay (st : SessionStore) (h : List (Nat × SessionOp)) : SessionStore :=
  h.foldl (fun st e => st.after e.1 e.2) st

theorem replay_concat (st : SessionStore) (h : List (Nat × SessionOp)) (e : Nat × SessionOp) :
    st.replay (h ++ [e]) = (st.replay h).after e.1 e.2 := by
  unfold replay
  rw [List.foldl_append]
  rfl

/-- What the history made of a session: the last state inserted, with the last
log level set after it. -/
def lastState (h : List (Nat × SessionOp)) (id : String) : Option SessionState :=
  h.foldl
    (fun s e =>
      match e.2 with
      | .insert _ id' state => if id' = id then some state else s
      | .setLogLevel id' level =>
          if id' = id then s.map fun state => { state with logLevel := some level } else s
      | _ => s) none

theorem lastState_concat (h : List (Nat × SessionOp)) (e : Nat × SessionOp) (id : String) :
    lastState (h ++ [e]) id =
      match e.2 with
      | .insert _ id' state => if id' = id then some state else lastState h id
      | .setLogLevel id' level =>
          if id' = id then (lastState h id).map fun state => { state with logLevel := some level }
          else lastState h id
      | _ => lastState h id := by
  unfold lastState
  rw [List.foldl_append]
  rfl

variable {st : SessionStore} {now : Nat} {id : String}

/-! ## The oldest session -/

theorem isOldest_iff {entry : SessionEntry} :
    st.isOldest entry = true ↔
      ∀ id' entry', st.inner.get id' = some entry' → entry.lastSeen ≤ entry'.lastSeen := by
  unfold isOldest
  rw [List.all_eq_true]
  constructor
  · intro h id' entry' hget
    exact of_decide_eq_true (h (id', entry') ((Dict.get_eq_some_iff ..).mp hget))
  · intro h e he
    exact decide_eq_true (h e.1 e.2 ((Dict.get_eq_some_iff ..).mpr he))

/-- Of some entries one was seen no later than the others. -/
theorem exists_oldest {entries : List (String × SessionEntry)} (h : entries ≠ []) :
    ∃ e ∈ entries, ∀ e' ∈ entries, e.2.lastSeen ≤ e'.2.lastSeen := by
  induction entries with
  | nil => exact absurd rfl h
  | cons e entries ih =>
      rcases entries with _ | ⟨e₁, entries⟩
      · exact ⟨e, List.mem_cons_self, by simp⟩
      · obtain ⟨m, hm, hle⟩ := ih (List.cons_ne_nil _ _)
        rcases Nat.le_total e.2.lastSeen m.2.lastSeen with hem | hme
        · refine ⟨e, List.mem_cons_self, ?_⟩
          intro e' he'
          rcases List.mem_cons.mp he' with rfl | he'
          · exact Nat.le_refl _
          · exact Nat.le_trans hem (hle e' he')
        · refine ⟨m, List.mem_cons_of_mem _ hm, ?_⟩
          intro e' he'
          rcases List.mem_cons.mp he' with rfl | he'
          · exact hme
          · exact hle e' he'

/-- A table with sessions has an oldest one, and finds one. -/
theorem oldest_spec (h : 0 < st.inner.len) (pick : String) :
    ∃ victim entry, st.oldest pick = some victim ∧ st.inner.get victim = some entry ∧
      st.isOldest entry = true := by
  have hfind : ∃ victim entry,
      (st.inner.entries.find? fun e => st.isOldest e.2).map Prod.fst = some victim ∧
        st.inner.get victim = some entry ∧ st.isOldest entry = true := by
    obtain ⟨e, he, hle⟩ := exists_oldest (List.length_pos_iff.mp h)
    have holdest : st.isOldest e.2 = true := by
      unfold isOldest
      rw [List.all_eq_true]
      exact fun e' he' => decide_eq_true (hle e' he')
    cases hf : st.inner.entries.find? fun e => st.isOldest e.2 with
    | none => exact absurd holdest (by simpa using List.find?_eq_none.mp hf e he)
    | some e' =>
        have holdest' := List.find?_some hf
        refine ⟨e'.1, e'.2, rfl, ?_, holdest'⟩
        exact (Dict.get_eq_some_iff ..).mpr (List.mem_of_find?_eq_some hf)
  unfold oldest
  split
  · rename_i entry hget
    split
    · rename_i holdest
      exact ⟨pick, entry, rfl, hget, holdest⟩
    · exact hfind
  · exact hfind

theorem evicted_eq_none (h : ¬ (st.contains id = false ∧ st.capacity ≤ st.inner.len))
    (pick : String) : st.evicted pick id = none := by
  unfold evicted
  refine if_neg fun hfull => h ⟨?_, hfull.2⟩
  unfold contains
  rw [Option.isNone_iff_eq_none] at hfull
  rw [hfull.1]
  rfl

theorem evicted_of_full (hcapacity : 0 < st.capacity) (hnew : st.contains id = false)
    (hfull : st.capacity ≤ st.inner.len) (pick : String) :
    ∃ victim entry, st.evicted pick id = some victim ∧ st.inner.get victim = some entry ∧
      st.isOldest entry = true := by
  have hnone : (st.inner.get id).isNone := by
    unfold contains at hnew
    rw [Option.isNone_iff_eq_none, ← Option.not_isSome_iff_eq_none, hnew]
    simp
  obtain ⟨victim, entry, holdest, hspec⟩ := oldest_spec (Nat.lt_of_lt_of_le hcapacity hfull) pick
  exact ⟨victim, entry, (if_pos ⟨hnone, hfull⟩).trans holdest, hspec⟩

theorem isOldest_of_evicted {pick victim : String} {entry : SessionEntry}
    (hevicted : st.evicted pick id = some victim) (hget : st.inner.get victim = some entry) :
    st.isOldest entry = true := by
  have hmem := (Dict.get_eq_some_iff ..).mp hget
  have hpos : 0 < st.inner.len := List.length_pos_of_mem hmem
  obtain ⟨victim', entry', holdest, hget', hspec⟩ := oldest_spec hpos pick
  unfold evicted at hevicted
  split at hevicted
  · rw [holdest] at hevicted
    cases hevicted
    rw [hget'] at hget
    cases hget
    exact hspec
  · cases hevicted

/-! ## What an operation leaves -/

theorem get_insert (pick id' : String) (state : SessionState) :
    (st.insert now pick id state).inner.get id' =
      if id = id' then some { state, lastSeen := now }
      else if st.evicted pick id = some id' then none else st.inner.get id' := by
  unfold insert
  rw [Dict.get_insert]
  split
  · rfl
  · cases st.evicted pick id with
    | none => rfl
    | some victim =>
        simp only [Dict.get_remove, Option.some.injEq]

theorem get_get (id' : String) :
    (st.get now id).1.inner.get id' =
      if id = id' then
        ((st.inner.get id).filter fun entry => !st.isExpired entry now).map fun entry =>
          { entry with lastSeen := now }
      else st.inner.get id' := by
  unfold get
  cases hget : st.inner.get id with
  | none =>
      simp only
      split
      · rename_i heq
        rw [← heq, hget]
        rfl
      · rfl
  | some entry =>
      simp only
      cases hexpired : st.isExpired entry now with
      | true =>
          rw [if_pos rfl, Dict.get_remove, Option.filter_some, hexpired]
          rfl
      | false =>
          rw [if_neg (by simp), Dict.get_insert, Option.filter_some, hexpired]
          rfl

theorem get_setLogLevel (level : LogLevel) (id' : String) :
    (st.setLogLevel now id level).1.inner.get id' =
      if id = id' then
        (st.inner.get id).map fun entry =>
          { state := { entry.state with logLevel := some level }, lastSeen := now }
      else st.inner.get id' := by
  unfold setLogLevel
  cases hget : st.inner.get id with
  | none =>
      simp only
      split
      · rename_i heq
        rw [← heq, hget]
        rfl
      · rfl
  | some entry =>
      simp only
      rw [Dict.get_insert]
      rfl

theorem get_remove (id' : String) :
    (st.remove id).1.inner.get id' = if id = id' then none else st.inner.get id' :=
  Dict.get_remove st.inner id id'

theorem get_sweepExpired (id' : String) :
    (st.sweepExpired now).1.inner.get id' =
      (st.inner.get id').filter fun entry => !st.isExpired entry now :=
  Dict.get_retain st.inner _ id'

theorem after_settings (op : SessionOp) :
    (st.after now op).capacity = st.capacity ∧ (st.after now op).idleTimeout = st.idleTimeout := by
  cases op with
  | get id =>
      show (st.get now id).1.capacity = _ ∧ (st.get now id).1.idleTimeout = _
      unfold get
      split
      · exact ⟨rfl, rfl⟩
      · split
        · exact ⟨rfl, rfl⟩
        · exact ⟨rfl, rfl⟩
  | setLogLevel id level =>
      show (st.setLogLevel now id level).1.capacity = _ ∧
        (st.setLogLevel now id level).1.idleTimeout = _
      unfold setLogLevel
      split
      · exact ⟨rfl, rfl⟩
      · exact ⟨rfl, rfl⟩
  | _ => exact ⟨rfl, rfl⟩

/-- No operation takes the table over its capacity. -/
theorem len_after_le (hcapacity : 0 < st.capacity) (h : st.inner.len ≤ st.capacity)
    (op : SessionOp) : (st.after now op).inner.len ≤ st.capacity := by
  cases op with
  | insert pick id state =>
      show (Dict.insert _ id _).len ≤ st.capacity
      cases hget : st.inner.get id with
      | some entry =>
          have hcontains : st.contains id = true := by
            rw [contains, hget]
            rfl
          rw [evicted_eq_none (by simp [hcontains]) pick, Dict.len_insert_of_get hget]
          exact h
      | none =>
          have hnew : st.contains id = false := by
            rw [contains, hget]
            rfl
          by_cases hfull : st.capacity ≤ st.inner.len
          · obtain ⟨victim, entry, hvictim, hentry, -⟩ :=
              evicted_of_full hcapacity hnew hfull pick
            rw [hvictim]
            have hremoved := Dict.len_remove_of_get hentry
            have hinserted := Dict.len_insert_le (st.inner.remove victim) id
              { state, lastSeen := now }
            show (Dict.insert (st.inner.remove victim) id _).len ≤ st.capacity
            omega
          · rw [evicted_eq_none (fun hboth => hfull hboth.2) pick]
            have hinserted := Dict.len_insert_le st.inner id { state, lastSeen := now }
            show (Dict.insert st.inner id _).len ≤ st.capacity
            omega
  | get id =>
      show (st.get now id).1.inner.len ≤ st.capacity
      unfold get
      split
      · exact h
      · rename_i entry hget
        split
        · exact Nat.le_trans (Dict.len_retain_le ..) h
        · rw [Dict.len_insert_of_get hget]
          exact h
  | setLogLevel id level =>
      show (st.setLogLevel now id level).1.inner.len ≤ st.capacity
      unfold setLogLevel
      split
      · exact h
      · rename_i entry hget
        rw [Dict.len_insert_of_get hget]
        exact h
  | contains id => exact h
  | remove id => exact Nat.le_trans (Dict.len_retain_le ..) h
  | sweepExpired => exact Nat.le_trans (Dict.len_retain_le ..) h

/-! ## A least-recently-used table -/

/-- The table is what its history says: each session as last seen, with the
state that came of it. -/
structure Tracks (h : List (Nat × SessionOp)) (st : SessionStore) : Prop where
  capacity_pos : 0 < st.capacity
  bounded : st.inner.len ≤ st.capacity
  tracked : ∀ id entry, st.inner.get id = some entry →
    lastUse SessionOp.refreshes h id = some entry.lastSeen ∧ lastState h id = some entry.state

theorem tracks_withCapacity (capacity : Nat) : Tracks [] (withCapacity capacity) := by
  refine ⟨?_, Nat.zero_le _, ?_⟩
  · show 0 < max capacity 1
    omega
  · intro id entry hget
    cases hget

theorem isExpired_of_none (h : st.idleTimeout = none) (entry : SessionEntry) :
    st.isExpired entry now = false := by
  unfold isExpired
  rw [h]

/-- **Step lemma**: every operation keeps track. -/
theorem Tracks.after {h : List (Nat × SessionOp)} (hst : Tracks h st) (op : SessionOp) :
    Tracks (h ++ [(now, op)]) (st.after now op) := by
  have hcapacity : (st.after now op).capacity = st.capacity := (after_settings op).1
  refine ⟨?_, ?_, ?_⟩
  · rw [hcapacity]
    exact hst.capacity_pos
  · rw [hcapacity]
    exact len_after_le hst.capacity_pos hst.bounded op
  · intro id' entry hget
    rw [lastUse_concat, lastState_concat]
    cases op with
    | insert pick id state =>
        change (st.insert now pick id state).inner.get id' = some entry at hget
        rw [get_insert] at hget
        simp only [SessionOp.refreshes, Option.some.injEq]
        by_cases hid : id = id'
        · rw [if_pos hid] at hget ⊢
          cases hget
          exact ⟨rfl, if_pos hid⟩
        · rw [if_neg hid] at hget ⊢
          rw [if_neg hid]
          split at hget
          · cases hget
          · exact hst.tracked id' entry hget
    | get id =>
        change (st.get now id).1.inner.get id' = some entry at hget
        rw [get_get] at hget
        simp only [SessionOp.refreshes, Option.some.injEq]
        by_cases hid : id = id'
        · subst hid
          rw [if_pos rfl, Option.map_eq_some_iff] at hget
          obtain ⟨entry', hentry', rfl⟩ := hget
          rw [Option.filter_eq_some_iff] at hentry'
          exact ⟨if_pos rfl, (hst.tracked id entry' hentry'.1).2⟩
        · rw [if_neg hid] at hget ⊢
          exact hst.tracked id' entry hget
    | setLogLevel id level =>
        change (st.setLogLevel now id level).1.inner.get id' = some entry at hget
        rw [get_setLogLevel] at hget
        simp only [SessionOp.refreshes, Option.some.injEq]
        by_cases hid : id = id'
        · subst hid
          rw [if_pos rfl, Option.map_eq_some_iff] at hget
          obtain ⟨entry', hentry', rfl⟩ := hget
          rw [if_pos rfl, if_pos rfl, (hst.tracked id entry' hentry').2]
          exact ⟨rfl, rfl⟩
        · rw [if_neg hid] at hget ⊢
          rw [if_neg hid]
          exact hst.tracked id' entry hget
    | contains id => exact hst.tracked id' entry hget
    | remove id =>
        change (st.remove id).1.inner.get id' = some entry at hget
        rw [get_remove] at hget
        split at hget
        · cases hget
        · exact hst.tracked id' entry hget
    | sweepExpired =>
        change (st.sweepExpired now).1.inner.get id' = some entry at hget
        rw [get_sweepExpired, Option.filter_eq_some_iff] at hget
        exact hst.tracked id' entry hget.1

/-- **Run lemma**. -/
theorem tracks_replay (capacity : Nat) (h : List (Nat × SessionOp)) :
    Tracks h ((withCapacity capacity).replay h) ∧
      ((withCapacity capacity).replay h).idleTimeout = none ∧
      ((withCapacity capacity).replay h).capacity = max capacity 1 := by
  induction h using List.reverseRecOn with
  | nil => exact ⟨tracks_withCapacity capacity, rfl, rfl⟩
  | append_singleton h e ih =>
      obtain ⟨htracks, htimeout, hcapacity⟩ := ih
      rw [replay_concat]
      refine ⟨htracks.after e.2, ?_, ?_⟩
      · rw [(after_settings e.2).2, htimeout]
      · rw [(after_settings e.2).1, hcapacity]

section NoTimeout

variable {h : List (Nat × SessionOp)}

/-- An `insert` drops a session only for a new one at capacity, and then the one
that was used longest ago. -/
theorem Tracks.evicted_iff (hst : Tracks h st) (hclock : (h.map Prod.fst).Pairwise (· < ·))
    (hlive : st.contains id = true) (pick new : String) :
    st.evicted pick new = some id ↔
      st.contains new = false ∧ st.inner.len = st.capacity ∧
        ∀ other, st.contains other = true → other ≠ id →
          UsedBefore SessionOp.refreshes h id other := by
  obtain ⟨entry, hentry⟩ := Option.isSome_iff_exists.mp hlive
  have hbounded := hst.bounded
  constructor
  · intro hevicted
    by_cases hfull : st.contains new = false ∧ st.capacity ≤ st.inner.len
    · refine ⟨hfull.1, Nat.le_antisymm hbounded hfull.2, ?_⟩
      intro other hother hne
      obtain ⟨oentry, hoentry⟩ := Option.isSome_iff_exists.mp hother
      have hle : entry.lastSeen ≤ oentry.lastSeen :=
        isOldest_iff.mp (isOldest_of_evicted hevicted hentry) other oentry hoentry
      exact usedBefore_of_le hclock hne.symm (hst.tracked _ _ hentry).1
        (hst.tracked _ _ hoentry).1 hle
    · rw [evicted_eq_none hfull] at hevicted
      cases hevicted
  · rintro ⟨hnew, hlen, hbefore⟩
    obtain ⟨victim, ventry, hvictim, hventry, holdest⟩ :=
      evicted_of_full hst.capacity_pos hnew (Nat.le_of_eq hlen.symm) pick
    by_cases hne : victim = id
    · rw [hvictim, hne]
    · -- a session used before the oldest one
      have hcontains : st.contains victim = true := Option.isSome_iff_exists.mpr ⟨ventry, hventry⟩
      obtain ⟨t, t', ht, ht', hlt⟩ := hbefore victim hcontains hne
      have hle : ventry.lastSeen ≤ entry.lastSeen := isOldest_iff.mp holdest id entry hentry
      rw [(hst.tracked _ _ hentry).1] at ht
      rw [(hst.tracked _ _ hventry).1] at ht'
      cases ht
      cases ht'
      omega

theorem contains_eq_false_iff {st : SessionStore} :
    st.contains id = false ↔ ¬ st.contains id = true := by
  rw [Bool.not_eq_true]

/-- Without an idle timeout a live session goes when it is removed or evicted, in
no other way. -/
theorem contains_after_eq_false_iff (htimeout : st.idleTimeout = none)
    (hlive : st.contains id = true) (op : SessionOp) :
    (st.after now op).contains id = false ↔
      op = .remove id ∨
        ∃ pick new state, op = .insert pick new state ∧ new ≠ id ∧
          st.evicted pick new = some id := by
  obtain ⟨entry, hentry⟩ := Option.isSome_iff_exists.mp hlive
  have hnever : ∀ e, st.isExpired e now = false := isExpired_of_none htimeout
  rw [contains_eq_false_iff]
  cases op with
  | insert pick new state =>
      show ¬ (st.insert now pick new state).contains id = true ↔ _
      rw [contains_insert]
      simp only [hlive, true_and, SessionOp.insert.injEq, reduceCtorEq, false_or, not_or,
        not_not, and_assoc]
      constructor
      · rintro ⟨hne, hevicted⟩
        exact ⟨pick, new, state, rfl, rfl, rfl, Ne.symm hne, hevicted⟩
      · rintro ⟨_, _, _, rfl, rfl, rfl, hne, hevicted⟩
        exact ⟨Ne.symm hne, hevicted⟩
  | get other =>
      show ¬ (st.get now other).1.contains id = true ↔ _
      have hkept : (st.get now other).1.contains id = true := by
        unfold contains
        rw [get_get]
        split
        · rename_i heq
          rw [heq, hentry, Option.filter_some, hnever]
          rfl
        · exact hlive
      simp [hkept]
  | setLogLevel other level =>
      show ¬ (st.setLogLevel now other level).1.contains id = true ↔ _
      rw [contains_setLogLevel]
      simp [hlive]
  | contains other =>
      show ¬ st.contains id = true ↔ _
      simp [hlive]
  | remove other =>
      show ¬ (st.remove other).1.contains id = true ↔ _
      rw [contains_remove]
      simp [hlive, eq_comm]
  | sweepExpired =>
      show ¬ (st.sweepExpired now).1.contains id = true ↔ _
      have hkept : (st.sweepExpired now).1.contains id = true := by
        unfold contains
        rw [get_sweepExpired, hentry, Option.filter_some, hnever]
        rfl
      simp [hkept]

/-- A session that is not live comes by being inserted, in no other way. -/
theorem contains_after_iff_of_not_live (hnew : st.contains id = false) (op : SessionOp) :
    (st.after now op).contains id = true ↔ ∃ pick state, op = .insert pick id state := by
  cases op with
  | insert pick new state =>
      show (st.insert now pick new state).contains id = true ↔ _
      rw [contains_insert, hnew]
      constructor
      · rintro (rfl | ⟨hlive, -⟩)
        · exact ⟨pick, state, rfl⟩
        · cases hlive
      · rintro ⟨_, _, ⟨⟩⟩
        exact .inl rfl
  | get other =>
      show (st.get now other).1.contains id = true ↔ _
      rw [contains_get, hnew]
      simp
  | setLogLevel other level =>
      show (st.setLogLevel now other level).1.contains id = true ↔ _
      rw [contains_setLogLevel, hnew]
      simp
  | contains other =>
      show st.contains id = true ↔ _
      rw [hnew]
      simp
  | remove other =>
      show (st.remove other).1.contains id = true ↔ _
      rw [contains_remove, hnew]
      simp
  | sweepExpired =>
      show (st.sweepExpired now).1.contains id = true ↔ _
      rw [contains_sweepExpired, hnew]
      simp

/-- **A bounded least-recently-used table**: under a clock that moves on with
every operation, the table keeps to its capacity and to the states its history
made, what is inserted is in it with its state and nothing else comes, and a live
session goes when it is removed, or when a new one comes at capacity and it was
the one used longest ago. -/
theorem bounded_lru (capacity : Nat) (h : List (Nat × SessionOp))
    (hclock : (h.map Prod.fst).Pairwise (· < ·)) :
    ((withCapacity capacity).replay h).inner.len ≤ max capacity 1 ∧
      (∀ id entry, ((withCapacity capacity).replay h).inner.get id = some entry →
        lastState h id = some entry.state) ∧
      (∀ now pick id state,
        (((withCapacity capacity).replay h).after now (.insert pick id state)).inner.get id =
          some { state, lastSeen := now }) ∧
      (∀ now op id, ((withCapacity capacity).replay h).contains id = false →
        ((((withCapacity capacity).replay h).after now op).contains id = true ↔
          ∃ pick state, op = .insert pick id state)) ∧
      ∀ now op id, ((withCapacity capacity).replay h).contains id = true →
        ((((withCapacity capacity).replay h).after now op).contains id = false ↔
          op = .remove id ∨
            ∃ pick new state, op = .insert pick new state ∧
              ((withCapacity capacity).replay h).contains new = false ∧
              ((withCapacity capacity).replay h).inner.len = max capacity 1 ∧
              ∀ other, ((withCapacity capacity).replay h).contains other = true → other ≠ id →
                UsedBefore SessionOp.refreshes h id other) := by
  obtain ⟨htracks, htimeout, hcapacity⟩ := tracks_replay capacity h
  refine ⟨?_, ?_, ?_, ?_, ?_⟩
  · rw [← hcapacity]
    exact htracks.bounded
  · intro id entry hget
    exact (htracks.tracked id entry hget).2
  · intro now pick id state
    exact (get_insert ..).trans (if_pos rfl)
  · intro now op id hnew
    exact contains_after_iff_of_not_live hnew op
  · intro now op id hlive
    rw [contains_after_eq_false_iff htimeout hlive, ← hcapacity]
    apply or_congr_right
    constructor
    · rintro ⟨pick, new, state, rfl, -, hevicted⟩
      exact ⟨pick, new, state, rfl, (htracks.evicted_iff hclock hlive pick new).mp hevicted⟩
    · rintro ⟨pick, new, state, rfl, hspec⟩
      refine ⟨pick, new, state, rfl, ?_, (htracks.evicted_iff hclock hlive pick new).mpr hspec⟩
      -- a new session is not the live one
      rintro rfl
      rw [hlive] at hspec
      cases hspec.1

/-- A session as `initialize` records it. -/
def openedSession : SessionState where
  version := .v2025_11_25
  clientInfo := { name := "test-client", title := none, version := "1.0" }
  clientCapabilities := .object []
  logLevel := none

/-- Two sessions, the first of them looked up since. -/
def firstLookedUp : List (Nat × SessionOp) :=
  [(0, .insert "" "a" openedSession), (1, .insert "" "b" openedSession), (2, .get "a")]

/-- A third session takes the second one's place. -/
theorem second_gives_way :
    let st := ((withCapacity 2).replay firstLookedUp).after 3 (.insert "" "c" openedSession)
    st.contains "b" = false ∧ UsedBefore SessionOp.refreshes firstLookedUp "b" "a" ∧
      st.inner.get "c" = some { state := openedSession, lastSeen := 3 } ∧
        st.contains "a" = true := by
  intro st
  obtain ⟨-, -, hinserted, -, hgone⟩ := bounded_lru 2 firstLookedUp (by decide)
  have hb : st.contains "b" = false := by decide
  refine ⟨hb, ?_, hinserted 3 "" "c" openedSession, by decide⟩
  rcases (hgone 3 (.insert "" "c" openedSession) "b" (by decide)).mp hb with
    hremove | ⟨_, _, _, _, _, _, hbefore⟩
  · cases hremove
  · exact hbefore "a" (by decide) (by decide)

end NoTimeout

/-! ## Idle expiry -/

/-- The session has, at some moment up to `now`, gone unseen for the timeout, and
has not been inserted since. -/
def GoneIdle (timeout : Nat) (h : List (Nat × SessionOp)) (now : Nat) (id : String) : Prop :=
  ∃ before since moment seen, h = before ++ since ∧
    lastUse SessionOp.refreshes before id = some seen ∧ timeout ≤ moment - seen ∧
    moment ≤ now ∧ ∀ e ∈ since, moment ≤ e.1 ∧ ∀ pick state, e.2 ≠ .insert pick id state

/-- What an operation says of a session that has expired: nothing that shows it
alive; nor does the session, where it still takes up room, cost one that has not
expired its place. -/
structure TreatsAsGone (st : SessionStore) (now : Nat) (op : SessionOp) (id : String) : Prop where
  unseen : op = .get id → (st.get now id).2 = none
  absent : op = .contains id → st.contains id = false
  unset : ∀ level, op = .setLogLevel id level → (st.setLogLevel now id level).2 = false
  displaces : ∀ pick new state victim entry, op = .insert pick new state →
    st.contains id = true → st.evicted pick new = some victim →
    st.inner.get victim = some entry → st.isExpired entry now = true

/-- The operation asks `contains` or `set_log_level` about a session that is past
its timeout and still in the table. -/
def MeetsExpired (st : SessionStore) (now : Nat) (op : SessionOp) : Prop :=
  ∃ id entry, (op = .contains id ∨ ∃ level, op = .setLogLevel id level) ∧
    st.inner.get id = some entry ∧ st.isExpired entry now = true

/-- A property of each operation of a history, and of what came before it. -/
def Throughout (P : List (Nat × SessionOp) → Nat → SessionOp → Prop)
    (h : List (Nat × SessionOp)) : Prop :=
  ∀ before now op rest, h = before ++ (now, op) :: rest → P before now op

/-- The store with an idle timeout, after a history. -/
def timed (capacity timeout : Nat) (h : List (Nat × SessionOp)) : SessionStore :=
  ((withCapacity capacity).withIdleTimeout (some timeout)).replay h

section Expiry

variable {capacity timeout : Nat} {h : List (Nat × SessionOp)}

theorem timed_concat (e : Nat × SessionOp) :
    timed capacity timeout (h ++ [e]) = (timed capacity timeout h).after e.1 e.2 :=
  replay_concat ..

theorem tracks_timed (capacity timeout : Nat) (h : List (Nat × SessionOp)) :
    Tracks h (timed capacity timeout h) ∧
      (timed capacity timeout h).idleTimeout = some timeout := by
  induction h using List.reverseRecOn with
  | nil => exact ⟨⟨(tracks_withCapacity capacity).capacity_pos, Nat.zero_le _,
      (tracks_withCapacity capacity).tracked⟩, rfl⟩
  | append_singleton h e ih =>
      obtain ⟨htracks, htimeout⟩ := ih
      rw [timed_concat]
      refine ⟨htracks.after e.2, ?_⟩
      rw [(after_settings e.2).2, htimeout]

theorem isExpired_iff {entry : SessionEntry} (htimeout : st.idleTimeout = some timeout) :
    st.isExpired entry now = true ↔ timeout ≤ now - entry.lastSeen := by
  unfold isExpired
  rw [htimeout]
  exact decide_eq_true_iff

/-- **Step lemma**: an entry past its timeout stays as it is or goes, unless it is
inserted again or met by an operation that does not look at the timeout. -/
theorem expired_after {op : SessionOp} {entry : SessionEntry}
    (hmeets : ¬ MeetsExpired st now op) (hinsert : ∀ pick state, op ≠ .insert pick id state)
    (hexpired : ∀ e, st.inner.get id = some e → st.isExpired e now = true)
    (hget : (st.after now op).inner.get id = some entry) : st.inner.get id = some entry := by
  cases op with
  | insert pick new state =>
      change (st.insert now pick new state).inner.get id = some entry at hget
      rw [get_insert] at hget
      split at hget
      · rename_i heq
        exact absurd (heq ▸ rfl) (hinsert pick state)
      · split at hget
        · cases hget
        · exact hget
  | get other =>
      change (st.get now other).1.inner.get id = some entry at hget
      rw [get_get] at hget
      split at hget
      · rename_i heq
        subst heq
        -- an expired session is dropped
        rw [Option.map_eq_some_iff] at hget
        obtain ⟨e, he, -⟩ := hget
        rw [Option.filter_eq_some_iff, Bool.not_eq_true'] at he
        rw [hexpired e he.1] at he
        cases he.2
      · exact hget
  | setLogLevel other level =>
      change (st.setLogLevel now other level).1.inner.get id = some entry at hget
      rw [get_setLogLevel] at hget
      split at hget
      · rename_i heq
        subst heq
        rw [Option.map_eq_some_iff] at hget
        obtain ⟨e, he, -⟩ := hget
        exact absurd ⟨other, e, .inr ⟨level, rfl⟩, he, hexpired e he⟩ hmeets
      · exact hget
  | contains other => exact hget
  | remove other =>
      change (st.remove other).1.inner.get id = some entry at hget
      rw [get_remove] at hget
      split at hget
      · cases hget
      · exact hget
  | sweepExpired =>
      change (st.sweepExpired now).1.inner.get id = some entry at hget
      rw [get_sweepExpired, Option.filter_eq_some_iff] at hget
      exact hget.1

/-- **Run lemma**: what is left of a session that has expired is past its timeout,
as long as no operation has met one that is. -/
theorem expired_of_goneIdle (hmeets : Throughout
      (fun before now op => ¬ MeetsExpired (timed capacity timeout before) now op) h)
    (hgone : GoneIdle timeout h now id) {entry : SessionEntry}
    (hget : (timed capacity timeout h).inner.get id = some entry) :
    (timed capacity timeout h).isExpired entry now = true := by
  obtain ⟨before, since, moment, seen, rfl, hlast, hidle, hmoment, hsince⟩ := hgone
  rw [isExpired_iff (tracks_timed ..).2]
  -- the entry was last seen when the session was, before it expired
  suffices hseen : entry.lastSeen = seen by omega
  clear hmoment
  induction since using List.reverseRecOn generalizing entry with
  | nil =>
      rw [List.append_nil] at hget
      rw [((tracks_timed ..).1.tracked id entry hget).1] at hlast
      exact Option.some.inj hlast
  | append_singleton since e ih =>
      have hseen : ∀ entry', (timed capacity timeout (before ++ since)).inner.get id = some entry' →
          entry'.lastSeen = seen := by
        intro entry' hget'
        apply ih _ hget'
        · intro e' he'
          exact hsince e' (List.mem_append_left _ he')
        · intro before' now' op' rest heq
          apply hmeets before' now' op' (rest ++ [e])
          rw [← List.append_assoc, heq]
          simp
      have hlater := hsince e (List.mem_append_right _ List.mem_cons_self)
      rw [← List.append_assoc, timed_concat] at hget
      apply hseen
      apply expired_after _ hlater.2 _ hget
      · apply hmeets (before ++ since) e.1 e.2 []
        rw [← List.append_assoc]
      · intro entry' hentry'
        rw [isExpired_iff (tracks_timed ..).2, hseen entry' hentry']
        omega

/-- **Idle expiry is final but for two operations that do not look at it**: over any
history, every operation treats every session that has expired as gone if and
only if none is a `contains` or `set_log_level` of a session that is past its
timeout and has not been dropped yet. -/
theorem expiry_final_iff (capacity timeout : Nat) (h : List (Nat × SessionOp)) :
    Throughout (fun before now op => ∀ id, GoneIdle timeout before now id →
        TreatsAsGone (timed capacity timeout before) now op id) h ↔
      Throughout
        (fun before now op => ¬ MeetsExpired (timed capacity timeout before) now op) h := by
  constructor
  · rintro hfinal before now op rest rfl ⟨id, entry, hop, hget, hexpired⟩
    obtain ⟨htracks, htimeout⟩ := tracks_timed capacity timeout before
    -- The session that is met is itself one that has gone idle.
    have hgone : GoneIdle timeout before now id := by
      refine ⟨before, [], now, entry.lastSeen, (List.append_nil _).symm, ?_, ?_, Nat.le_refl _, ?_⟩
      · exact (htracks.tracked id entry hget).1
      · exact (isExpired_iff htimeout).mp hexpired
      · intro e he
        cases he
    have htreats := hfinal before now op rest rfl id hgone
    rcases hop with rfl | ⟨level, rfl⟩
    · have habsent := htreats.absent rfl
      unfold contains at habsent
      rw [hget] at habsent
      cases habsent
    · have hunset := htreats.unset level rfl
      unfold setLogLevel at hunset
      rw [hget] at hunset
      cases hunset
  · rintro hmeets before now op rest rfl id hgone
    have hearlier : Throughout
        (fun before now op => ¬ MeetsExpired (timed capacity timeout before) now op) before := by
      intro before' now' op' rest' heq
      apply hmeets before' now' op' (rest' ++ (now, op) :: rest)
      rw [heq]
      simp
    have hexpired : ∀ entry, (timed capacity timeout before).inner.get id = some entry →
        (timed capacity timeout before).isExpired entry now = true :=
      fun entry hget => expired_of_goneIdle hearlier hgone hget
    have hnow : ¬ MeetsExpired (timed capacity timeout before) now op :=
      hmeets before now op rest rfl
    have htimeout : (timed capacity timeout before).idleTimeout = some timeout :=
      (tracks_timed capacity timeout before).2
    generalize timed capacity timeout before = st at hexpired hnow htimeout
    refine ⟨?_, ?_, ?_, ?_⟩
    · rintro rfl
      unfold get
      cases hget : st.inner.get id with
      | none => rfl
      | some entry =>
          simp only [hexpired entry hget, if_true]
    · rintro rfl
      rw [contains_eq_false_iff]
      intro hcontains
      obtain ⟨entry, hget⟩ := Option.isSome_iff_exists.mp hcontains
      exact hnow ⟨id, entry, .inl rfl, hget, hexpired entry hget⟩
    · rintro level rfl
      unfold setLogLevel
      cases hget : st.inner.get id with
      | none => rfl
      | some entry => exact absurd ⟨id, entry, .inr ⟨level, rfl⟩, hget, hexpired entry hget⟩ hnow
    · rintro pick new state victim ventry rfl hlive hevicted hventry
      obtain ⟨entry, hget⟩ := Option.isSome_iff_exists.mp hlive
      -- what is dropped was seen no later than the expired session
      have hle : ventry.lastSeen ≤ entry.lastSeen :=
        isOldest_iff.mp (isOldest_of_evicted hevicted hventry) id entry hget
      have hidle := (isExpired_iff htimeout).mp (hexpired entry hget)
      rw [isExpired_iff htimeout]
      omega

/-- An expired session is asked for, given a log level, and looked up. -/
def metExpired : List (Nat × SessionOp) :=
  [(0, .insert "" "a" openedSession), (25, .contains "a"), (25, .setLogLevel "a" .debug),
    (26, .get "a")]

/-- It is reported present, and lives again. -/
theorem expired_session_lives_again :
    ¬ Throughout (fun before now op => ∀ id, GoneIdle 10 before now id →
        TreatsAsGone (timed 8 10 before) now op id) metExpired ∧
      ((timed 8 10 (metExpired.take 3)).get 26 "a").2.isSome = true := by
  refine ⟨?_, by decide⟩
  intro hfinal
  have hgone : GoneIdle 10 (metExpired.take 1) 25 "a" := by
    refine ⟨metExpired.take 1, [], 25, 0, rfl, by decide, by decide, Nat.le_refl _, ?_⟩
    intro e he
    cases he
  have habsent := (hfinal (metExpired.take 1) 25 (.contains "a") _ rfl "a" hgone).absent rfl
  exact absurd habsent (by decide)

end Expiry

end SessionStore

end TurboMcp.Server
