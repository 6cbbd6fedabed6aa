import Mathlib.Data.List.Perm.Subperm
import TurboMcp.Lib.Paging
import TurboMcp.Server.TaskIsolation

/-!
# Walking through the pages of a session's tasks

The cursor of `tasks/list` is an offset into the session's tasks, oldest first,
as they are when a page is asked for.  New tasks come at the end, so a walk
lists no task twice and keeps the order of creation.  A listed task that
expires before the walk is over moves the others up, and the next page starts
too late.
-/

namespace TurboMcp.Server

open TurboMcp.Core TurboMcp.Lib

/-! ## The cursor -/

/-- An offset is read back as it was written. -/
theorem parseUsize_toString {n : Nat} (h : n < 2 ^ 64) : parseUsize (toString n) = some n := by
  have hlist : (toString n).toList = Nat.toDigits 10 n := by
    rw [Nat.toString_eq_repr, Nat.toList_repr]
  have hdigit : ∀ c ∈ Nat.toDigits 10 n, c.isDigit = true :=
    fun c hc => Nat.isDigit_of_mem_toDigits (by decide) (by decide) hc
  -- a digit is no sign
  have hsign : ∀ rest, Nat.toDigits 10 n ≠ '+' :: rest := by
    intro rest heq
    have hplus := hdigit '+' (by rw [heq]; exact List.mem_cons_self)
    cases hplus
  have hvalue : (Nat.toDigits 10 n).foldl (fun n c => 10 * n + (c.toNat - '0'.toNat)) 0 = n := by
    rw [← Nat.ofDigitChars_eq_foldl]
    exact Nat.ofDigitChars_toDigits (by decide) (by decide)
  have hempty : (Nat.toDigits 10 n).isEmpty = false :=
    List.isEmpty_eq_false_iff.mpr Nat.toDigits_ne_nil
  unfold parseUsize
  rw [hlist]
  split
  · rename_i rest heq
    exact absurd heq (hsign rest)
  · dsimp only
    rw [hempty, List.all_eq_true.mpr hdigit, hvalue, if_pos h]
    rfl

namespace TaskStore

variable {st : TaskStore}

/-! ## The age of a task -/

theorem created_ended (e : TaskEntry) (nowWall : Nat) (r : TaskResult) :
    (ended e nowWall r).created = e.created := by
  rcases r with err | value
  · rfl
  · rfl

theorem created_complete {nowWall : Nat} {id : String} {r : TaskResult} {e e' : TaskEntry}
    (he : st.inner.get id = some e) (he' : (st.complete nowWall id r).inner.get id = some e') :
    e'.created = e.created := by
  by_cases hterm : e.status.isTerminal = true
  · rw [complete_of_terminal he hterm, he] at he'
    exact congrArg TaskEntry.created (Option.some.inj he'.symm)
  · rw [complete_of_get he (Bool.eq_false_iff.mpr hterm)] at he'
    rcases get_finish he' with hold | ⟨-, rfl⟩
    · rw [he] at hold
      exact congrArg TaskEntry.created (Option.some.inj hold.symm)
    · exact created_ended e nowWall r

theorem created_cancel {rfc3339 : Nat → String} {now nowWall : Nat} {session id : String}
    {e e' : TaskEntry} (he : st.inner.get id = some e)
    (he' : (st.cancel rfc3339 now nowWall session id).1.inner.get id = some e') :
    e'.created = e.created := by
  have hpurged (h : (st.purgeExpired now).inner.get id = some e') : e'.created = e.created := by
    have heq := (get_of_purged h).symm.trans he
    exact congrArg TaskEntry.created (Option.some.inj heq)
  rcases hown : (st.purgeExpired now).own session id with _ | e₁
  · unfold cancel at he'
    dsimp only at he'
    rw [hown] at he'
    exact hpurged he'
  · by_cases hterm : e₁.status.isTerminal = true
    · unfold cancel at he'
      dsimp only at he'
      rw [hown] at he'
      dsimp only at he'
      rw [if_pos hterm] at he'
      exact hpurged he'
    · rw [cancel_of_own hown (Bool.eq_false_iff.mpr hterm)] at he'
      rcases get_finish he' with hold | ⟨-, rfl⟩
      · exact hpurged hold
      · have heq := (get_of_purged (own_eq_some.mp hown).1).symm.trans he
        show e₁.created = e.created
        exact congrArg TaskEntry.created (Option.some.inj heq)

theorem created_create {rfc3339 : Nat → String} {now nowWall notify cancel : Nat}
    {session id : String} {ttl : Option Int} {e' : TaskEntry} (hnew : st.inner.get id = none)
    (he' : (st.create rfc3339 now nowWall id notify session ttl cancel).1.inner.get id =
      some e') : e'.created = now := by
  unfold create at he'
  dsimp only at he'
  split at he'
  · have hold := get_of_purged he'
    rw [hnew] at hold
    cases hold
  · unfold setEntry at he'
    dsimp only at he'
    rw [Dict.get_insert_self] at he'
    cases he'
    rfl

end TaskStore

namespace TaskRoom

open TaskStore

variable {rfc3339 : Nat → String} {s t : TaskRoom} {c : TaskCall} {session : String} {τ now : Nat}

theorem minted_cases (h : Step rfc3339 s c t) : t.minted = s.minted ∨
    ∃ ttl cancel id notify, c.act = .create ttl cancel id notify ∧ id ∉ s.minted ∧
      t.minted = id :: s.minted := by
  obtain ⟨hadm, rfl⟩ := h
  obtain ⟨now, nowWall, caller, act⟩ := c
  cases act with
  | create ttl cancel id notify => exact Or.inr ⟨ttl, cancel, id, notify, rfl, hadm.1, rfl⟩
  | resume w =>
      left
      unfold TaskRoom.act
      dsimp only
      split
      · rfl
      · rfl
  | _ => exact Or.inl rfl

/-- `a` was created no later than `b`, as far as both are stored. -/
def Older (s : TaskRoom) (a b : String) : Prop :=
  ∀ e e', s.store.inner.get a = some e → s.store.inner.get b = some e' → e.created ≤ e'.created

/-- The tasks that were stored were minted, in the order of their instants. -/
structure Aged (s : TaskRoom) (τ : Nat) : Prop where
  nodup : s.minted.Nodup
  minted : ∀ id e, s.store.inner.get id = some e → id ∈ s.minted
  past : ∀ id e, s.store.inner.get id = some e → e.created ≤ τ
  ordered : s.minted.Pairwise fun a b => s.Older b a

theorem aged_initial (capacity : Nat) : (initial capacity).Aged 0 where
  nodup := List.nodup_nil
  minted := by
    intro id e he
    cases he
  past := by
    intro id e he
    cases he
  ordered := List.Pairwise.nil

/-- A task keeps the instant of its creation, and a new one gets the call's. -/
theorem created_cases (h : Step rfc3339 s c t) (hs : s.Aged τ) {id : String} {e' : TaskEntry}
    (he' : t.store.inner.get id = some e') :
    (∃ e, s.store.inner.get id = some e ∧ e'.created = e.created) ∨
      (id ∉ s.minted ∧ e'.created = c.now) := by
  rcases entry_cases h he' with hsame | ⟨hnew, hmint, -⟩ | ⟨e, r, he, -, -, hact⟩
  · exact Or.inl ⟨e', hsame, rfl⟩
  · right
    refine ⟨hnew, ?_⟩
    rcases minted_cases h with hsame | ⟨ttl, cancel, id', notify, hact, -, hminted⟩
    · rw [hsame] at hmint
      exact absurd hmint hnew
    · rw [hminted, List.mem_cons] at hmint
      obtain rfl := hmint.resolve_right hnew
      have hnone : s.store.inner.get id = none :=
        Option.eq_none_iff_forall_not_mem.mpr fun e he => hnew (hs.minted id e he)
      obtain ⟨-, rfl⟩ := h
      unfold TaskRoom.act at he'
      rw [hact] at he'
      exact created_create hnone he'
  · left
    refine ⟨e, he, ?_⟩
    obtain ⟨-, rfl⟩ := h
    unfold TaskRoom.act at he'
    rcases hact with hact | ⟨hact, -⟩
    · rw [hact] at he'
      exact created_complete he he'
    · rw [hact] at he'
      exact created_cancel he he'

theorem aged_step (h : Step rfc3339 s c t) (hs : s.Aged τ) (hτ : τ ≤ c.now) : t.Aged c.now where
  nodup := by
    rcases minted_cases h with hsame | ⟨_, _, id, _, -, hnew, hminted⟩
    · rw [hsame]
      exact hs.nodup
    · rw [hminted]
      exact List.nodup_cons.mpr ⟨hnew, hs.nodup⟩
  minted := by
    intro id e' he'
    rcases entry_cases h he' with hsame | ⟨-, hmint, -⟩ | ⟨e, _, he, -⟩
    · exact minted_mono h (hs.minted id e' hsame)
    · exact hmint
    · exact minted_mono h (hs.minted id e he)
  past := by
    intro id e' he'
    rcases created_cases h hs he' with ⟨e, he, hcreated⟩ | ⟨-, hcreated⟩
    · rw [hcreated]
      exact Nat.le_trans (hs.past id e he) hτ
    · exact Nat.le_of_eq hcreated
  ordered := by
    -- what was minted before is as old as it was
    have hold : s.minted.Pairwise fun a b => t.Older b a := by
      refine hs.ordered.imp_of_mem ?_
      intro a b ha hb hab e' e he' he
      rcases created_cases h hs he with ⟨e₁, he₁, hcreated⟩ | ⟨hnew, -⟩
      · rcases created_cases h hs he' with ⟨e₂, he₂, hcreated'⟩ | ⟨hnew, -⟩
        · rw [hcreated, hcreated']
          exact hab e₂ e₁ he₂ he₁
        · exact absurd hb hnew
      · exact absurd ha hnew
    rcases minted_cases h with hsame | ⟨_, _, id, _, -, hnew, hminted⟩
    · rw [hsame]
      exact hold
    · rw [hminted, List.pairwise_cons]
      refine ⟨?_, hold⟩
      intro b hb e' e he' he
      -- the new task is created at the call's instant, the others before it
      have hnow : e.created = c.now := by
        rcases created_cases h hs he with ⟨e₁, he₁, -⟩ | ⟨-, hcreated⟩
        · exact absurd (hs.minted id e₁ he₁) hnew
        · exact hcreated
      rcases created_cases h hs he' with ⟨e₂, he₂, hcreated'⟩ | ⟨hnew', -⟩
      · rw [hnow, hcreated']
        exact Nat.le_trans (hs.past b e₂ he₂) hτ
      · exact absurd hb hnew'

/-! ## The listing -/

/-- Whether the session is shown the task. -/
def visible (session : String) (now : Nat) (s : TaskRoom) (id : String) : Bool :=
  ((s.store.purgeExpired now).own session id).isSome

theorem visible_iff {id : String} : s.visible session now id = true ↔
    ∃ e, s.store.inner.get id = some e ∧ e.sessionId = session ∧ e.expired now = false := by
  unfold visible
  rw [Option.isSome_iff_exists]
  refine exists_congr fun e => ?_
  rw [own_eq_some, get_purged_iff, and_assoc, and_comm (a := e.expired now = false)]

/-- A task that was minted and has gone does not come back. -/
theorem visible_of_step (h : Step rfc3339 s c t) {now' : Nat} (hle : now ≤ now') {id : String}
    (hmint : id ∈ s.minted) (hvisible : t.visible session now' id = true) :
    s.visible session now id = true := by
  obtain ⟨e', he', hsession, hexpired⟩ := visible_iff.mp hvisible
  obtain ⟨e, he, -, hsame, hsameExpired⟩ := entry_of_minted h hmint he'
  refine visible_iff.mpr ⟨e, he, hsame.symm.trans hsession, ?_⟩
  rw [hsameExpired] at hexpired
  exact TaskEntry.unexpired_mono hle hexpired

theorem visible_later {now' : Nat} (hle : now ≤ now') {id : String}
    (hvisible : s.visible session now' id = true) : s.visible session now id = true := by
  obtain ⟨e, he, hsession, hexpired⟩ := visible_iff.mp hvisible
  exact visible_iff.mpr ⟨e, he, hsession, TaskEntry.unexpired_mono hle hexpired⟩

/-- **The listing**: the session's tasks in the order they were minted, where no
two of them share an instant. -/
theorem listed_ids (hs : s.Aged τ) (hspaced : Spaced session now s) {order : List String}
    (horder : order.Perm (s.store.purgeExpired now).inner.keys) :
    ((s.store.purgeExpired now).listed session order).map Prod.fst =
      s.minted.reverse.filter (s.visible session now) := by
  have hmem {p : String × TaskEntry} : p ∈ (s.store.purgeExpired now).listed session order ↔
      (s.store.purgeExpired now).own session p.1 = some p.2 := by
    unfold listed
    rw [List.mem_insertionSort, mem_listing, horder.mem_iff, Dict.mem_keys]
    refine and_iff_right_of_imp fun hown => ?_
    rw [(own_eq_some.mp hown).1]
    rfl
  have hown {id : String} (hid : id ∈ s.minted.reverse.filter (s.visible session now)) :
      ∃ e, (s.store.purgeExpired now).own session id = some e :=
    Option.isSome_iff_exists.mp (List.mem_filter.mp hid).2
  have hstored {id : String} {e : TaskEntry}
      (h : (s.store.purgeExpired now).own session id = some e) :
      s.store.inner.get id = some e := get_of_purged (own_eq_some.mp h).1
  have hperm : (((s.store.purgeExpired now).listed session order).map Prod.fst).Perm
      (s.minted.reverse.filter (s.visible session now)) := by
    have hnodup : ((s.store.purgeExpired now).listed session order).Nodup := by
      unfold listed
      rw [(List.perm_insertionSort _ _).nodup_iff]
      exact nodup_listing (horder.nodup_iff.mpr (s.store.purgeExpired now).inner.nodup)
    have hids : (((s.store.purgeExpired now).listed session order).map Prod.fst).Nodup := by
      refine hnodup.map_on ?_
      intro p hp q hq heq
      have hp' := hmem.mp hp
      rw [heq] at hp'
      exact Prod.ext heq (Option.some.inj (hp'.symm.trans (hmem.mp hq)))
    rw [List.perm_ext_iff_of_nodup hids ((List.nodup_reverse.mpr hs.nodup).filter _)]
    intro id
    rw [List.mem_map, List.mem_filter, List.mem_reverse]
    constructor
    · rintro ⟨p, hp, rfl⟩
      have hp := hmem.mp hp
      exact ⟨hs.minted p.1 p.2 (hstored hp), Option.isSome_iff_exists.mpr ⟨p.2, hp⟩⟩
    · rintro ⟨-, hvisible⟩
      obtain ⟨e, he⟩ := Option.isSome_iff_exists.mp hvisible
      exact ⟨(id, e), hmem.mpr he, rfl⟩
  have hlisted : (((s.store.purgeExpired now).listed session order).map Prod.fst).Pairwise
      s.Older := by
    rw [List.pairwise_map]
    refine (listed_pairwise _ session order).imp_of_mem ?_
    intro p q hp hq hle e e' he he'
    rw [hstored (hmem.mp hp)] at he
    rw [hstored (hmem.mp hq)] at he'
    cases he
    cases he'
    exact hle
  have hminted : (s.minted.reverse.filter (s.visible session now)).Pairwise s.Older := by
    refine List.Pairwise.filter _ ?_
    rw [List.pairwise_reverse]
    exact hs.ordered
  -- both are in the order of the instants, and these tell the tasks apart
  refine hperm.eq_of_pairwise ?_ hlisted hminted
  intro a b ha hb hab hba
  obtain ⟨e, he⟩ := hown (hperm.mem_iff.mp ha)
  obtain ⟨e', he'⟩ := hown hb
  exact hspaced a e b e' he he' (Nat.le_antisymm (hab e e' (hstored he) (hstored he'))
    (hba e' e (hstored he') (hstored he)))

/-! ## The store's capacity -/

theorem capacity_step (h : Step rfc3339 s c t) : t.store.capacity = s.store.capacity := by
  obtain ⟨-, rfl⟩ := h
  obtain ⟨now, nowWall, caller, act⟩ := c
  cases act with
  | create ttl cancel id notify =>
      unfold TaskRoom.act TaskStore.create
      dsimp only
      split <;> rfl
  | complete id r =>
      show (s.store.complete nowWall id r).capacity = _
      rcases complete_cases s.store nowWall id r with hsame | ⟨_, _, -, -, hst⟩
      · rw [hsame]
      · rw [hst]
        rfl
  | cancel id =>
      show (s.store.cancel rfc3339 now nowWall caller id).1.capacity = _
      rcases cancel_cases s.store rfc3339 now nowWall caller id with hsame | ⟨_, _, -, -, hst⟩
      · rw [hsame]
        rfl
      · rw [hst]
        rfl
  | get id =>
      show (s.store.get rfc3339 now caller id).1.capacity = _
      rw [get_fst]
      rfl
  | list cursor pageSize order =>
      show (s.store.list rfc3339 now order caller cursor pageSize).1.capacity = _
      unfold TaskStore.list
      split <;> rfl
  | wait w id => rfl
  | resume w =>
      unfold TaskRoom.act
      dsimp only
      split
      · rfl
      · rename_i waiter _
        show (s.store.resume now w waiter).1.capacity = _
        unfold TaskStore.resume TaskStore.check
        dsimp only
        repeat' split
        all_goals rfl
  | abandon w =>
      show (s.unsubscribed w).capacity = _
      unfold unsubscribed
      split <;> rfl

theorem len_le_of_keys {m m' : Dict String TaskEntry} (h : ∀ id ∈ m'.keys, id ∈ m.keys) :
    m'.len ≤ m.len := by
  rw [Dict.len_eq_length_keys, Dict.len_eq_length_keys]
  exact (List.Nodup.subperm m'.nodup h).length_le

/-- A full store takes no task in. -/
theorem len_step (h : Step rfc3339 s c t) (hs : s.store.inner.len ≤ s.store.capacity) :
    t.store.inner.len ≤ s.store.capacity := by
  rcases minted_cases h with hsame | ⟨ttl, cancel, id, notify, hact, -, -⟩
  · refine Nat.le_trans (len_le_of_keys ?_) hs
    intro id hid
    rw [Dict.mem_keys, Option.isSome_iff_exists] at hid ⊢
    obtain ⟨e', he'⟩ := hid
    rcases entry_cases h he' with hold | ⟨hnew, hmint, -⟩ | ⟨e, _, he, -⟩
    · exact ⟨e', hold⟩
    · rw [hsame] at hmint
      exact absurd hmint hnew
    · exact ⟨e, he⟩
  · obtain ⟨-, rfl⟩ := h
    have hpurged : (s.store.purgeExpired c.now).inner.len ≤ s.store.inner.len :=
      Dict.len_retain_le ..
    unfold TaskRoom.act
    rw [hact]
    unfold TaskStore.create
    dsimp only
    split
    · exact Nat.le_trans hpurged hs
    · rename_i hfull
      exact Nat.le_trans (Dict.len_insert_le ..) (Nat.lt_of_not_le hfull)

end TaskRoom

/-! ## A walk -/

/-- A walk through the pages, and the store it is about. -/
structure TaskWalk where
  room : TaskRoom
  pages : List (List TaskSnapshot)
  /-- The cursor of the next request, until a page comes without one. -/
  next : Option (Option String)

inductive WalkCall
  /-- The walk's next request. -/
  | page (now : Nat) (order : List String)
  | other (c : TaskCall)
  deriving DecidableEq

def WalkCall.now : WalkCall → Nat
  | page now _ => now
  | other c => c.now

namespace TaskWalk

open TaskStore TaskRoom

def initial (capacity : Nat) : TaskWalk :=
  { room := .initial capacity, pages := [], next := some none }

/-- The ids on the pages, in their order. -/
def shown (w : TaskWalk) : List String := w.pages.flatten.map (·.taskId)

/-- The request for a page. -/
def request (session : String) (pageSize now : Nat) (order : List String)
    (cursor : Option String) : TaskCall :=
  ⟨now, now, session, .list cursor pageSize order⟩

/-- The walk goes on with the page's cursor; where it is refused it is over. -/
def turn (w : TaskWalk) : TaskRoom × TaskReply → TaskWalk
  | (room, .page (.ok (page, next))) =>
      { room, pages := w.pages ++ [page], next := next.map some }
  | (room, _) => { w with room, next := none }

def act (rfc3339 : Nat → String) (session : String) (pageSize : Nat) (w : TaskWalk) :
    WalkCall → TaskWalk
  | .other c => { w with room := (w.room.act rfc3339 c).1 }
  | .page now order =>
      match w.next with
      | none => w
      | some cursor => w.turn (w.room.act rfc3339 (request session pageSize now order cursor))

/-- A page is asked for as long as there is a cursor. -/
def Admissible (w : TaskWalk) : WalkCall → Prop
  | .other c => w.room.Admissible c
  | .page now order => w.next ≠ none ∧ order.Perm (w.room.store.purgeExpired now).inner.keys

instance (w : TaskWalk) (c : WalkCall) : Decidable (w.Admissible c) :=
  match c with
  | .other c => inferInstanceAs (Decidable (w.room.Admissible c))
  | .page _ _ => inferInstanceAs (Decidable (_ ∧ _))

def Step (rfc3339 : Nat → String) (session : String) (pageSize : Nat) (w : TaskWalk)
    (c : WalkCall) (w' : TaskWalk) : Prop :=
  w.Admissible c ∧ w.act rfc3339 session pageSize c = w'

variable {rfc3339 : Nat → String} {session : String} {pageSize now τ : Nat} {w w' : TaskWalk}
  {c : WalkCall} {order : List String} {id : String}

/-- What the clock says a page request may find: no two of the session's tasks
share an instant. -/
def Apart (session : String) (w : TaskWalk) : WalkCall → Prop
  | .page now _ => Spaced session now w.room
  | .other _ => True

/-- A page is asked for while everything on the earlier pages is still there. -/
def KeepsShown (session : String) (w : TaskWalk) : WalkCall → Prop
  | .page now _ => ∀ id ∈ w.shown, w.room.visible session now id = true
  | .other _ => True

/-- The task is there whenever a page is asked for. -/
def LiveAt (session id : String) (w : TaskWalk) : WalkCall → Prop
  | .page now _ => w.room.visible session now id = true
  | .other _ => True

/-! ### A request for a page -/

/-- The offset a cursor stands for. -/
def cursorOffset : Option String → Option Nat
  | none => some 0
  | some c => parseUsize c

theorem list_of_offset {st : TaskStore} {cursor : Option String} {offset : Nat}
    (h : cursorOffset cursor = some offset) :
    st.list rfc3339 now order session cursor pageSize = (st.purgeExpired now,
      .ok (TaskStore.page rfc3339 ((st.purgeExpired now).listed session order) offset
        pageSize)) := by
  unfold TaskStore.list
  rcases cursor with _ | c
  · cases h
    rfl
  · replace h : parseUsize c = some offset := h
    dsimp only
    rw [h]

/-- What the reply to a page request holds, and where the walk goes on. -/
theorem page_step (hstep : Step rfc3339 session pageSize w (.page now order) w')
    (haged : w.room.Aged τ) (hspaced : Spaced session now w.room)
    (hcursor : ∀ cursor, w.next = some cursor → cursorOffset cursor = some w.shown.length) :
    (∃ c, c.now = now ∧ TaskRoom.Step rfc3339 w.room c w'.room) ∧
    w'.shown = w.shown ++
      nextPage (w.room.visible session now) w.room.minted.reverse w.shown pageSize ∧
    w'.next =
      if w'.shown.length < (w.room.minted.reverse.filter (w.room.visible session now)).length then
        some (some (toString w'.shown.length))
      else none := by
  obtain ⟨⟨hgoing, horder⟩, rfl⟩ := hstep
  obtain ⟨cursor, hnext⟩ := Option.ne_none_iff_exists'.mp hgoing
  have hlisted := listed_ids haged hspaced horder
  have hreply : w.room.act rfc3339 (request session pageSize now order cursor) =
      ({ w.room with store := w.room.store.purgeExpired now },
        .page (.ok (TaskStore.page rfc3339 ((w.room.store.purgeExpired now).listed session order)
          w.shown.length pageSize))) := by
    unfold TaskRoom.act request
    dsimp only
    rw [list_of_offset (hcursor cursor hnext)]
  have hact : w.act rfc3339 session pageSize (.page now order) =
      w.turn (w.room.act rfc3339 (request session pageSize now order cursor)) := by
    unfold TaskWalk.act
    dsimp only
    rw [hnext]
  generalize (w.room.store.purgeExpired now).listed session order = all at hlisted hreply
  rw [hact]
  refine ⟨⟨request session pageSize now order cursor, rfl, horder, ?_⟩, ?_⟩
  · rw [hreply]
    rfl
  · rw [hreply]
    -- the ids on the page
    have hids : (((all.drop w.shown.length).take pageSize).map fun p =>
        p.2.snapshot rfc3339 p.1).map (·.taskId) =
        nextPage (w.room.visible session now) w.room.minted.reverse w.shown pageSize := by
      unfold nextPage
      rw [← hlisted, List.map_map, ← List.map_drop, ← List.map_take]
      rfl
    have hshown : (w.turn ({ w.room with store := w.room.store.purgeExpired now },
        .page (.ok (TaskStore.page rfc3339 all w.shown.length pageSize)))).shown = w.shown ++
          nextPage (w.room.visible session now) w.room.minted.reverse w.shown pageSize := by
      rw [← hids]
      show ((w.pages ++ [_]).flatten.map _) = _
      rw [List.flatten_append, List.map_append, List.flatten_singleton]
      rfl
    refine ⟨hshown, ?_⟩
    rw [hshown, List.length_append, ← hids, ← hlisted]
    show Option.map some (TaskStore.page rfc3339 all w.shown.length pageSize).2 = _
    unfold TaskStore.page
    simp only [List.length_map]
    split
    · rfl
    · rfl

/-! ### Along a run -/

/-- What holds of a walk at the time of the last call. -/
structure Walking (session : String) (capacity : Nat) (w : TaskWalk) (τ : Nat) : Prop where
  aged : w.room.Aged τ
  cap : w.room.store.capacity = capacity
  len : w.room.store.inner.len ≤ capacity
  cursor : ∀ cursor, w.next = some cursor → cursorOffset cursor = some w.shown.length
  reached : Reached (w.room.visible session τ) w.room.minted.reverse w.shown

/-- The order of the tasks grows at its end, and what is shown of it goes. -/
theorem minted_append {s t : TaskRoom} {c : TaskCall} (h : TaskRoom.Step rfc3339 s c t) :
    ∃ new, t.minted.reverse = s.minted.reverse ++ new := by
  rcases minted_cases h with hsame | ⟨_, _, id, _, -, -, hminted⟩
  · exact ⟨[], by rw [hsame, List.append_nil]⟩
  · exact ⟨[id], by rw [hminted, List.reverse_cons]⟩

theorem walking_initial (session : String) (capacity : Nat) :
    Walking session capacity (initial capacity) 0 where
  aged := aged_initial capacity
  cap := rfl
  len := Nat.zero_le capacity
  cursor := by
    rintro _ ⟨⟩
    rfl
  reached := reached_nil _ _

theorem visible_shrinks {s t : TaskRoom} {c : TaskCall} (h : TaskRoom.Step rfc3339 s c t)
    {now' : Nat} (hle : now ≤ now') : ∀ id ∈ s.minted.reverse,
      t.visible session now' id = true → s.visible session now id = true := by
  intro id hid hvisible
  exact visible_of_step h hle (List.mem_reverse.mp hid) hvisible

/-- The tasks that are listed are stored. -/
theorem length_visible_le (session : String) (now : Nat) (haged : w.room.Aged τ) :
    (w.room.minted.reverse.filter (w.room.visible session now)).length ≤
      w.room.store.inner.len := by
  rw [Dict.len_eq_length_keys]
  refine (List.Nodup.subperm ((List.nodup_reverse.mpr haged.nodup).filter _) ?_).length_le
  intro id hid
  obtain ⟨e, he, -⟩ := visible_iff.mp (List.mem_filter.mp hid).2
  rw [Dict.mem_keys, he]
  rfl

theorem walking_step {capacity : Nat} (hcap : capacity < 2 ^ 64)
    (hstep : Step rfc3339 session pageSize w c w') (hw : Walking session capacity w τ)
    (hτ : τ ≤ c.now) (hapart : Apart session w c) : Walking session capacity w' c.now := by
  cases c with
  | other c =>
      obtain ⟨hadm, rfl⟩ := hstep
      have hroom : TaskRoom.Step rfc3339 w.room c (w.room.act rfc3339 c).1 := ⟨hadm, rfl⟩
      obtain ⟨new, hnew⟩ := minted_append hroom
      have hlen := hw.len
      rw [← hw.cap] at hlen
      exact
        { aged := aged_step hroom hw.aged hτ
          cap := (capacity_step hroom).trans hw.cap
          len := by
            rw [← hw.cap]
            exact len_step hroom hlen
          cursor := hw.cursor
          reached := by
            show Reached _ (w.room.act rfc3339 c).1.minted.reverse w.shown
            rw [hnew]
            exact hw.reached.later (visible_shrinks hroom hτ) new }
  | page now order =>
      obtain ⟨⟨c, rfl, hroom⟩, hshown, hnext⟩ := page_step hstep hw.aged hapart hw.cursor
      obtain ⟨new, hnew⟩ := minted_append hroom
      have hlen := hw.len
      rw [← hw.cap] at hlen
      refine ⟨aged_step hroom hw.aged hτ, (capacity_step hroom).trans hw.cap, ?_, ?_, ?_⟩
      · rw [← hw.cap]
        exact len_step hroom hlen
      · intro cursor hcursor
        rw [hnext] at hcursor
        split at hcursor
        · rename_i hmore
          obtain rfl := Option.some.inj hcursor
          refine parseUsize_toString ?_
          have hle := length_visible_le session c.now hw.aged
          have hlen := hw.len
          omega
        · cases hcursor
      · rw [hshown, hnew]
        refine Reached.later ?_ (visible_shrinks hroom (Nat.le_refl _)) new
        refine Reached.page ?_ pageSize
        have hlater := hw.reached.later (fun id _ hvisible => visible_later hτ hvisible) []
        rw [List.append_nil] at hlater
        exact hlater

/-- The walk goes on and has passed nothing over, or is over and has shown `id`. -/
def Attends (session id : String) (w : TaskWalk) (τ : Nat) : Prop :=
  (w.next ≠ none → CaughtUp (w.room.visible session τ) w.room.minted.reverse w.shown) ∧
    (w.next = none → id ∈ w.shown)

theorem attends_initial (session id : String) (capacity : Nat) :
    Attends session id (initial capacity) 0 :=
  ⟨fun _ => caughtUp_nil _ _, nofun⟩

theorem attends_step {capacity : Nat} (hstep : Step rfc3339 session pageSize w c w')
    (hw : Walking session capacity w τ) (h : Attends session id w τ) (hτ : τ ≤ c.now)
    (hapart : Apart session w c) (hkeeps : KeepsShown session w c) (hlive : LiveAt session id w c) :
    Attends session id w' c.now := by
  cases c with
  | other c =>
      obtain ⟨hadm, rfl⟩ := hstep
      have hroom : TaskRoom.Step rfc3339 w.room c (w.room.act rfc3339 c).1 := ⟨hadm, rfl⟩
      obtain ⟨new, hnew⟩ := minted_append hroom
      refine ⟨fun hgoing => ?_, h.2⟩
      show CaughtUp _ (w.room.act rfc3339 c).1.minted.reverse w.shown
      rw [hnew]
      exact (h.1 hgoing).later (visible_shrinks hroom hτ) new
  | page now order =>
      obtain ⟨⟨c, rfl, hroom⟩, hshown, hnext⟩ := page_step hstep hw.aged hapart hw.cursor
      obtain ⟨new, hnew⟩ := minted_append hroom
      -- everything shown is visible, so nothing has moved
      have hcaught : CaughtUp (w.room.visible session c.now) w.room.minted.reverse w.shown := by
        have hlater := (h.1 hstep.1.1).later (fun id _ hvisible => visible_later hτ hvisible) []
        rw [List.append_nil] at hlater
        exact hlater
      have hpage := hcaught.page hkeeps pageSize
      rw [← hshown] at hpage
      constructor
      · intro _
        rw [hnew]
        exact hpage.later (visible_shrinks hroom (Nat.le_refl _)) new
      · intro hover
        rw [hnext] at hover
        split at hover
        · cases hover
        · rename_i hend
          have hvisible : ∀ id' ∈ w'.shown, w.room.visible session c.now id' = true := by
            intro id' hid'
            rw [hshown, List.mem_append] at hid'
            rcases hid' with hid' | hid'
            · exact hkeeps id' hid'
            · exact (List.mem_filter.mp (List.mem_of_mem_drop (List.mem_of_mem_take hid'))).2
          obtain ⟨e, he, -⟩ := visible_iff.mp hlive
          exact hpage.all hvisible (Nat.le_of_not_lt hend) id
            (List.mem_reverse.mpr (hw.aged.minted id e he)) hlive

/-- **The pages of a walk**: whatever happens between the requests, no task is
listed twice, and the tasks come in the order of their creation.  As long as
nothing that was listed has gone by the next request, a task that is there at
every request is listed once. -/
theorem walked (rfc3339 : Nat → String) (session : String) (pageSize capacity : Nat)
    (hcap : capacity < 2 ^ 64) (tr : List (WalkCall × TaskWalk))
    (hrun : Run (Step rfc3339 session pageSize) (initial capacity) tr)
    (hclock : Clocked WalkCall.now tr)
    (hapart : ∀ x ∈ steps (initial capacity) tr, Apart session x.1 x.2.1) :
    (∀ w ∈ states (initial capacity) tr,
      w.shown.Sublist w.room.minted.reverse ∧ ∀ id, w.shown.count id ≤ 1) ∧
    ((∀ x ∈ steps (initial capacity) tr, KeepsShown session x.1 x.2.1) →
      (final (initial capacity) tr).next = none →
      ∀ id, (∀ x ∈ steps (initial capacity) tr, LiveAt session id x.1 x.2.1) →
        (final (initial capacity) tr).shown.count id = 1) := by
  have hwalking : ∀ w ∈ states (initial capacity) tr, ∃ τ, Walking session capacity w τ :=
    clocked_invariant hclock (fun _ _ => Nat.zero_le _) (walking_initial session capacity)
      fun x hx τ hτ hw => walking_step hcap (hrun x hx) hw hτ (hapart x hx)
  have honce : ∀ w ∈ states (initial capacity) tr,
      w.shown.Sublist w.room.minted.reverse ∧ ∀ id, w.shown.count id ≤ 1 := by
    intro w hw
    obtain ⟨τ, hwalk⟩ := hwalking w hw
    have hsub := hwalk.reached.sublist
    exact ⟨hsub, List.nodup_iff_count_le_one.mp
      (hsub.nodup (List.nodup_reverse.mpr hwalk.aged.nodup))⟩
  refine ⟨honce, ?_⟩
  intro hkeeps hover id hlive
  have hattends : ∀ w ∈ states (initial capacity) tr, ∃ τ,
      Walking session capacity w τ ∧ Attends session id w τ :=
    clocked_invariant hclock (fun _ _ => Nat.zero_le _)
      ⟨walking_initial session capacity, attends_initial session id capacity⟩
      fun x hx τ hτ hw => ⟨walking_step hcap (hrun x hx) hw.1 hτ (hapart x hx),
        attends_step (hrun x hx) hw.1 hw.2 hτ (hapart x hx) (hkeeps x hx) (hlive x hx)⟩
  obtain ⟨τ, -, hshown⟩ := hattends _ (final_mem_states _ tr)
  have hone := (honce _ (final_mem_states _ tr)).2 id
  have hpos : 0 < (final (initial capacity) tr).shown.count id :=
    List.count_pos_iff.mpr (hshown.2 hover)
  omega

instance (session : String) (w : TaskWalk) (c : WalkCall) : Decidable (KeepsShown session w c) :=
  match c with
  | .page now _ => inferInstanceAs (Decidable (∀ id ∈ w.shown, w.room.visible session now id = true))
  | .other _ => inferInstanceAs (Decidable True)

instance (session id : String) (w : TaskWalk) (c : WalkCall) : Decidable (LiveAt session id w c) :=
  match c with
  | .page now _ => inferInstanceAs (Decidable (w.room.visible session now id = true))
  | .other _ => inferInstanceAs (Decidable True)

/-- The walk on a list of calls, a task a page. -/
def walkOf (calls : List WalkCall) : List (WalkCall × TaskWalk) :=
  trace (act (fun _ => "") "s" 1) (initial 4) calls

/-- A walk of the session `s` in which `id` is there at every request. -/
def Sees (id : String) (w : TaskWalk) (c : WalkCall) (w' : TaskWalk) : Prop :=
  Step (fun _ => "") "s" 1 w c w' ∧ LiveAt "s" id w c

theorem sees_walkOf {id : String} {calls : List WalkCall}
    (h : checked (act (fun _ => "") "s" 1) (fun w c => w.Admissible c ∧ LiveAt "s" id w c)
      (initial 4) calls = true) : Run (Sees id) (initial 4) (walkOf calls) := by
  refine run_trace_of_checked ?_ h
  intro w c hc
  obtain ⟨hadm, hlive⟩ := of_decide_eq_true hc
  exact ⟨⟨hadm, rfl⟩, hlive⟩

def createAt (now : Nat) (ttl : Option Int) (id : String) (notify : Nat) : WalkCall :=
  .other ⟨now, now, "s", .create ttl notify id notify⟩

/-- Whether no two stored tasks share an instant. -/
def spacedEntries (s : TaskRoom) : Bool :=
  s.store.inner.entries.all fun p => s.store.inner.entries.all fun q =>
    p.2.created ≠ q.2.created || p.1 = q.1

theorem spaced_of_entries {s : TaskRoom} (h : spacedEntries s = true) (session : String)
    (now : Nat) : Spaced session now s := by
  intro id e id' e' he he' heq
  have hmem {id : String} {e : TaskEntry}
      (h : (s.store.purgeExpired now).own session id = some e) :
      (id, e) ∈ s.store.inner.entries :=
    (Dict.get_eq_some_iff ..).mp (get_of_purged (own_eq_some.mp h).1)
  unfold spacedEntries at h
  have hpair := List.all_eq_true.mp (List.all_eq_true.mp h _ (hmem he)) _ (hmem he')
  rw [Bool.or_eq_true, decide_eq_true_eq, decide_eq_true_eq] at hpair
  exact hpair.resolve_left (not_not_intro heq)

def calmCalls : List WalkCall :=
  [createAt 0 none "a" 1, createAt 1 none "b" 2, .page 2 ["b", "a"], createAt 3 none "c" 3,
    .page 4 ["a", "b", "c"], .page 5 ["c", "a", "b"]]

theorem walked_calm : (final (initial 4) (walkOf calmCalls)).shown.count "b" = 1 ∧
    (final (initial 4) (walkOf calmCalls)).shown = ["a", "b", "c"] := by
  have hrun : Run (fun w c w' => Sees "b" w c w' ∧ Apart "s" w c ∧ KeepsShown "s" w c) (initial 4)
      (walkOf calmCalls) := by
    have hchecked : checked (act (fun _ => "") "s" 1) (fun w c => w.Admissible c ∧
        LiveAt "s" "b" w c ∧ KeepsShown "s" w c ∧ spacedEntries w.room = true) (initial 4)
        calmCalls = true := by decide
    refine run_trace_of_checked ?_ hchecked
    intro w c hc
    obtain ⟨hadm, hlive, hkeeps, hspaced⟩ := of_decide_eq_true hc
    refine ⟨⟨⟨hadm, rfl⟩, hlive⟩, ?_, hkeeps⟩
    cases c with
    | page now order => exact spaced_of_entries hspaced "s" now
    | other c => trivial
  refine ⟨(walked (fun _ => "") "s" 1 4 (by decide) (walkOf calmCalls)
    (fun x hx => (hrun x hx).1.1) (by unfold Clocked; decide) fun x hx => (hrun x hx).2.1).2
    (fun x hx => (hrun x hx).2.2) (by decide) "b" fun x hx => (hrun x hx).1.2, by decide⟩

/-- Where the walk goes wrong: a listed task expires and the next one is passed
over; and two tasks of one instant change places when the table grows, so that
one is listed twice and the other never. -/
theorem passed_over :
    (let calls : List WalkCall := [createAt 0 (some 1) "a" 1, createAt 1 none "b" 2,
      .page 2 ["a", "b"], .page 2000000 ["b"]]
    Run (Sees "b") (initial 4) (walkOf calls) ∧ Clocked WalkCall.now (walkOf calls) ∧
      (final (initial 4) (walkOf calls)).next = none ∧
      (final (initial 4) (walkOf calls)).shown = ["a"]) ∧
    (let calls : List WalkCall := [createAt 0 none "a" 1, createAt 0 none "b" 2,
      .page 1 ["a", "b"], createAt 2 none "c" 3, .page 3 ["c", "b", "a"], .page 4 ["c", "b", "a"]]
    Run (Sees "b") (initial 4) (walkOf calls) ∧ Clocked WalkCall.now (walkOf calls) ∧
      (final (initial 4) (walkOf calls)).next = none ∧
      (final (initial 4) (walkOf calls)).shown = ["a", "a", "c"]) := by
  refine ⟨⟨sees_walkOf (by decide), ?_, by decide, by decide⟩,
    sees_walkOf (by decide), ?_, by decide, by decide⟩
  · unfold Clocked
    decide
  · unfold Clocked
    decide

end TaskWalk

end TurboMcp.Server
