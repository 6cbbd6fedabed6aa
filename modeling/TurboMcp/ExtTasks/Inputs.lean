import TurboMcp.Core.Error
import TurboMcp.ExtTasks.Lifecycle

/-!
# Input requests and their answers

A handler publishes an input request and awaits its channel; a `tasks/update`
of the client sends down the channel of each key that is outstanding.  Keys are
unique over the life of a task and a key leaves the table with the one value
sent for it, so what a handler obtains is what the client sent for its request.
-/

namespace TurboMcp.ExtTasks

open TurboMcp.Core TurboMcp.Lib DraftTaskStore

/-! ## Choosing a key -/

/-- **The loop ends**: after at most as many retries as keys were issued it
finds a key that was not. -/
theorem uniquify_terminates (used : List String) (key : String) :
    ∃ n ≤ used.length, uniquify used key = candidateKey key n ∧
      candidateKey key n ∉ used ∧ ∀ i < n, candidateKey key i ∈ used := by
  obtain ⟨n, hn, heq, htaken⟩ := exists_firstFresh (candidateKey key) used used.length 0
  rw [Nat.zero_add] at heq
  refine ⟨n, hn, heq, ?_, ?_⟩
  · rw [← heq]
    exact uniquify_not_mem used key
  · intro i hi
    have hi := htaken i hi
    rwa [Nat.zero_add] at hi

/-! ## One update -/

namespace Inputs

variable {i : Inputs}

/-- A channel waits under one key only. -/
def Injective (i : Inputs) : Prop :=
  ∀ key key' rx, i.waiters.get key = some rx → i.waiters.get key' = some rx → key = key'

/-- What the responses of an update have done to the inputs `i` so far. -/
structure Delivered (i : Inputs) (responses : Map) (acc : Inputs × List (Channel × Value)) :
    Prop where
  used : acc.1.used = i.used
  waiters : ∀ key rx, acc.1.waiters.get key = some rx → i.waiters.get key = some rx
  answered : ∀ d ∈ acc.2, ∃ key, i.waiters.get key = some d.1 ∧ key ∈ i.outstanding.keys ∧
    (key, d.2) ∈ responses ∧ acc.1.waiters.get key = none
  outstanding : ∀ key ∈ acc.1.outstanding.keys, key ∈ i.outstanding.keys
  once : (acc.2.map Prod.fst).Nodup

theorem delivered_nil (i : Inputs) (responses : Map) : i.Delivered responses (i, []) :=
  ⟨rfl, fun _ _ h => h, nofun, fun _ h => h, List.nodup_nil⟩

theorem deliverOne_of_outstanding {inputs : Inputs} {sent : List (Channel × Value)} {key : String}
    {value : Value} {rx : Channel} (hkey : key ∈ inputs.outstanding.keys)
    (hrx : inputs.waiters.get key = some rx) :
    deliverOne (inputs, sent) (key, value) =
      ({ inputs with waiters := inputs.waiters.remove key
                     outstanding := inputs.outstanding.remove key }, sent ++ [(rx, value)]) := by
  simp only [deliverOne, (Dict.mem_keys ..).mp hkey, if_true, hrx]

theorem deliverOne_of_not_outstanding {inputs : Inputs} {sent : List (Channel × Value)}
    {key : String} {value : Value} (hkey : key ∉ inputs.outstanding.keys) :
    deliverOne (inputs, sent) (key, value) = (inputs, sent) := by
  rw [Dict.mem_keys] at hkey
  simp only [deliverOne, hkey]
  rfl

theorem Delivered.deliverOne {responses : Map} {acc : Inputs × List (Channel × Value)}
    (hinj : i.Injective) (h : i.Delivered responses acc) {response : String × Value}
    (hmem : response ∈ responses) : i.Delivered responses (deliverOne acc response) := by
  obtain ⟨inputs, sent⟩ := acc
  obtain ⟨key, value⟩ := response
  by_cases hkey : key ∈ inputs.outstanding.keys
  · rcases hrx : inputs.waiters.get key with _ | rx
    · -- an outstanding key without a waiter is left alone
      have hsame : DraftTaskStore.deliverOne (inputs, sent) (key, value) = (inputs, sent) := by
        simp only [DraftTaskStore.deliverOne, (Dict.mem_keys ..).mp hkey, if_true, hrx]
      rw [hsame]
      exact h
    · rw [deliverOne_of_outstanding hkey hrx]
      have hnew : ∀ d ∈ sent, d.1 ≠ rx := by
        rintro d hd rfl
        obtain ⟨key', hkey', -, -, hgone⟩ := h.answered d hd
        obtain rfl := hinj key key' d.1 (h.waiters key d.1 hrx) hkey'
        cases hgone.symm.trans hrx
      refine ⟨h.used, ?_, ?_, ?_, ?_⟩
      · intro key' rx' hget
        rw [Dict.get_remove] at hget
        split at hget
        · cases hget
        · exact h.waiters key' rx' hget
      · intro d hd
        rcases List.mem_append.mp hd with hd | hd
        · obtain ⟨key', hkey', hout, hresp, hgone⟩ := h.answered d hd
          refine ⟨key', hkey', hout, hresp, ?_⟩
          rw [Dict.get_remove, hgone]
          split
          · rfl
          · rfl
        · obtain rfl := List.mem_singleton.mp hd
          refine ⟨key, h.waiters key rx hrx, h.outstanding key hkey, hmem, ?_⟩
          rw [Dict.get_remove, if_pos rfl]
      · intro key' hkey'
        rw [Dict.mem_keys_remove] at hkey'
        exact h.outstanding key' hkey'.2
      · rw [List.map_append, List.map_cons, List.map_nil]
        refine h.once.append (List.nodup_singleton rx) ?_
        intro x hx hrx
        obtain rfl := List.mem_singleton.mp hrx
        obtain ⟨d, hd, rfl⟩ := List.mem_map.mp hx
        exact hnew d hd rfl
  · rw [deliverOne_of_not_outstanding hkey]
    exact h

theorem delivered_foldl (hinj : i.Injective) (responses : Map) :
    i.Delivered responses (responses.foldl deliverOne (i, [])) := by
  have hfold : ∀ (rest : Map) (acc : Inputs × List (Channel × Value)), rest ⊆ responses →
      i.Delivered responses acc → i.Delivered responses (rest.foldl deliverOne acc) := by
    intro rest
    induction rest with
    | nil => exact fun _ _ h => h
    | cons response rest ih =>
        intro acc hsub h
        rw [List.cons_subset] at hsub
        exact ih _ hsub.2 (h.deliverOne hinj hsub.1)
  exact hfold responses _ (List.Subset.refl _) (delivered_nil i responses)

/-- Responses under keys that are not outstanding have no part in an update. -/
theorem foldl_filter_outstanding (i : Inputs) (responses : Map) :
    responses.foldl deliverOne (i, []) =
      (responses.filter fun r => r.1 ∈ i.outstanding.keys).foldl deliverOne (i, []) := by
  have hfold : ∀ (responses : Map) (acc : Inputs × List (Channel × Value)),
      (∀ key ∈ acc.1.outstanding.keys, key ∈ i.outstanding.keys) →
      responses.foldl deliverOne acc =
        (responses.filter fun r => r.1 ∈ i.outstanding.keys).foldl deliverOne acc := by
    intro responses
    induction responses with
    | nil => exact fun _ _ => rfl
    | cons response responses ih =>
        intro acc hsub
        rw [List.filter_cons]
        split
        · rw [List.foldl_cons, List.foldl_cons]
          exact ih _ fun key hkey => hsub key (mem_keys_of_deliverOne hkey)
        · rename_i hout
          have hkey : response.1 ∉ acc.1.outstanding.keys :=
            fun hkey => hout (decide_eq_true (hsub _ hkey))
          have hsame : deliverOne acc response = acc := deliverOne_of_not_outstanding hkey
          rw [List.foldl_cons, hsame]
          exact ih acc hsub
  exact hfold responses _ fun _ h => h

end Inputs

/-! ## One task -/

namespace Entry

variable {e : Entry} {c : Call}

/-- What an update sends down the channels of a task. -/
def sends (e : Entry) (c : Call) : List (Channel × Value) :=
  match c.op with
  | .deliverInputs _ responses => (responses.foldl deliverOne (e.inputs, [])).2
  | _ => []

theorem publish_inputs (e : Entry) (nowWall : Nat) (key : String) (request : Value)
    (rx : Channel) : (e.publish nowWall key request rx).inputs =
      { used := e.inputs.used.insert (uniquify e.inputs.used key)
        outstanding := e.inputs.outstanding.insert (uniquify e.inputs.used key) request
        waiters := e.inputs.waiters.insert (uniquify e.inputs.used key) rx } := by
  unfold publish
  dsimp only
  split
  · rfl
  · rfl

theorem deliver_inputs (e : Entry) (nowWall : Nat) (responses : Map) :
    (e.deliver nowWall responses).inputs = (responses.foldl deliverOne (e.inputs, [])).1 := by
  unfold deliver
  dsimp only
  split
  · rfl
  · rfl

theorem finish_inputs (e : Entry) (nowWall : Nat) (outcome : TaskOutcome) :
    (e.finish nowWall outcome).inputs = e.inputs := by
  rcases outcome with result | error
  · rfl
  · rfl

/-- **Inversion**: what a call does to the inputs of a task. -/
theorem after_inputs (e : Entry) (c : Call) :
    (e.after c).inputs = e.inputs ∧ e.sends c = [] ∨
    (∃ id key request rx, c.op = .publishInput id key request rx ∧ e.status.isTerminal = false ∧
      (e.after c).inputs =
        { used := e.inputs.used.insert (uniquify e.inputs.used key)
          outstanding := e.inputs.outstanding.insert (uniquify e.inputs.used key) request
          waiters := e.inputs.waiters.insert (uniquify e.inputs.used key) rx }) ∨
    (∃ id responses, c.op = .deliverInputs id responses ∧
      (e.after c).inputs = (responses.foldl deliverOne (e.inputs, [])).1) ∨
    e.sends c = [] ∧ (e.after c).inputs =
      { e.inputs with waiters := Dict.empty, outstanding := Dict.empty } := by
  unfold after sends
  rcases c with ⟨now, nowWall, op⟩
  cases op with
  | create | get => exact Or.inl ⟨rfl, rfl⟩
  | publishInput id key request rx =>
      by_cases hterm : e.status.isTerminal = true
      · refine Or.inl ⟨?_, rfl⟩
        simp only [hterm, if_true]
      · refine Or.inr (Or.inl ⟨id, key, request, rx, rfl, Bool.eq_false_iff.mpr hterm, ?_⟩)
        simp only [hterm]
        exact publish_inputs e nowWall key request rx
  | deliverInputs id responses =>
      exact Or.inr (Or.inr (Or.inl ⟨id, responses, rfl, deliver_inputs e nowWall responses⟩))
  | complete id outcome =>
      refine Or.inl ⟨?_, rfl⟩
      dsimp only
      split
      · rfl
      · exact finish_inputs e nowWall outcome
  | cancel id =>
      by_cases hterm : e.status.isTerminal = true
      · refine Or.inl ⟨?_, rfl⟩
        simp only [hterm, if_true]
      · refine Or.inr (Or.inr (Or.inr ⟨rfl, ?_⟩))
        simp only [hterm]
        rfl

/-- Outstanding requests and waiters stand under the same, issued, keys, and a
task that awaits input has one. -/
structure Waiting (e : Entry) : Prop where
  aligned : e.inputs.Aligned
  pending : e.status = .inputRequired → e.inputs.Pending

theorem waiting_fresh (now nowWall : Nat) (ttlMs poll : Option Int) (cancel : Token) :
    (fresh now nowWall ttlMs poll cancel).Waiting :=
  ⟨Inputs.aligned_empty [], nofun⟩

theorem Waiting.after (h : e.Waiting) (c : Call) : (e.after c).Waiting := by
  constructor
  · rcases after_inputs e c with ⟨heq, -⟩ | ⟨id, key, request, rx, -, -, heq⟩ |
      ⟨id, responses, -, heq⟩ | ⟨-, heq⟩
    · rw [heq]
      exact h.aligned
    · rw [heq]
      exact h.aligned.publish _ request rx
    · rw [heq]
      exact h.aligned.deliver [] responses
    · rw [heq]
      exact Inputs.aligned_empty _
  · rcases c with ⟨now, nowWall, op⟩
    unfold Entry.after
    cases op with
    | create | get => exact h.pending
    | publishInput id key request rx =>
        dsimp only
        split
        · exact h.pending
        · intro _
          refine ⟨uniquify e.inputs.used key, ?_⟩
          rw [publish_inputs, Dict.mem_keys_insert]
          exact Or.inl rfl
    | deliverInputs id responses =>
        dsimp only [deliver]
        split
        · exact nofun
        · rename_i hdrained
          intro hstatus
          rw [Inputs.pending_iff_not_isEmpty, ← Bool.not_eq_true]
          exact fun hempty => hdrained ⟨hstatus, hempty⟩
    | complete id outcome =>
        dsimp only
        split
        · exact h.pending
        · rcases outcome with result | error
          · exact nofun
          · exact nofun
    | cancel id =>
        dsimp only
        split
        · exact h.pending
        · exact nofun

/-- An update of keys that are not outstanding leaves the task as it is. -/
theorem Waiting.deliver_ignored (h : e.Waiting) (nowWall : Nat) {responses : Map}
    (hnone : ∀ r ∈ responses, r.1 ∉ e.inputs.outstanding.keys) :
    e.deliver nowWall responses = e ∧ responses.foldl deliverOne (e.inputs, []) = (e.inputs, []) := by
  have hfold : responses.foldl deliverOne (e.inputs, []) = (e.inputs, []) := by
    have hfilter : (responses.filter fun r => r.1 ∈ e.inputs.outstanding.keys) = [] := by
      rw [List.filter_eq_nil_iff]
      intro r hr
      simpa using hnone r hr
    rw [Inputs.foldl_filter_outstanding, hfilter]
    rfl
  refine ⟨?_, hfold⟩
  unfold deliver
  rw [hfold]
  refine if_neg ?_
  rintro ⟨hstatus, hempty⟩
  have hpending := (Inputs.pending_iff_not_isEmpty _).mp (h.pending hstatus)
  rw [hpending] at hempty
  cases hempty

end Entry

/-! ## The store -/

namespace DraftTaskStore

variable {st : DraftTaskStore} {c : Call}

/-- What a call sends, it sends to the task it names. -/
theorem apply_sent (st : DraftTaskStore) (c : Call) :
    (st.apply c).sent =
      st.sent ++ (((st.purgedBy c).inner.get c.task).map (·.sends c)).getD [] := by
  obtain ⟨now, nowWall, op⟩ := c
  have hnil {α : Type} (o : Option α) :
      (o.map fun _ => ([] : List (Channel × Value))).getD [] = [] := by
    rcases o with _ | a
    · rfl
    · rfl
  cases op <;> simp only [Entry.sends, hnil, List.append_nil] <;>
    simp only [apply, create, publishInput, deliverInputs, complete, cancel, get, purgedBy,
      Call.task]
  case create =>
    split
    · rfl
    · rfl
  case get => rfl
  case complete =>
    rcases st.inner.get _ with _ | e
    · rfl
    · dsimp only
      split
      · rfl
      · rfl
  case deliverInputs id responses =>
    rcases (st.purgeExpired now).inner.get id with _ | e
    · exact (List.append_nil _).symm
    · dsimp only
      split
      · rfl
      · rfl
  all_goals
    rcases (st.purgeExpired now).inner.get _ with _ | e
    · rfl
    · dsimp only
      split
      · rfl
      · rfl

theorem mem_publicationOf {p : InputPublication} : p ∈ st.publicationOf c ↔
    ∃ id key request rx e, c.op = .publishInput id key request rx ∧
      (st.purgedBy c).inner.get id = some e ∧ e.status.isTerminal = false ∧
      p = ⟨id, uniquify e.inputs.used key, rx⟩ := by
  obtain ⟨now, nowWall, op⟩ := c
  constructor
  · intro h
    cases op with
    | publishInput id key request rx =>
        simp only [publicationOf] at h
        split at h
        · cases h
        · rename_i e hget
          split at h
          · cases h
          · rename_i hterm
            exact ⟨id, key, request, rx, e, rfl, hget, Bool.eq_false_iff.mpr hterm,
              (Option.some.inj h).symm⟩
    | _ => cases h
  · rintro ⟨id, key, request, rx, e, hop, hget, hlive, rfl⟩
    cases hop
    have hget : (st.purgeExpired now).inner.get id = some e := hget
    simp only [publicationOf, hget, hlive]
    rfl

end DraftTaskStore

/-! ## Whole runs -/

namespace Timeline

/-- What the store knows of the requests published so far. -/
structure Tracked (s : Timeline) : Prop where
  sound : s.Sound
  waiting : ∀ id e, s.store.inner.get id = some e → e.Waiting
  /-- The keys of a task stay taken as long as it lives. -/
  used : ∀ p ∈ s.published, ∀ e, s.store.inner.get p.task = some e → p.key ∈ e.inputs.used
  /-- A waiter is that of a published request, and was sent nothing yet. -/
  waits : ∀ id e, s.store.inner.get id = some e → ∀ key rx, e.inputs.waiters.get key = some rx →
    ⟨id, key, rx⟩ ∈ s.published ∧ rx ∉ s.store.sent.map Prod.fst
  minted : ∀ p ∈ s.published, p.task ∈ s.minted
  keys : (s.published.map fun p => (p.task, p.key)).Nodup
  channels : (s.published.map InputPublication.channel).Nodup
  sent : ∀ rx ∈ s.store.sent.map Prod.fst, rx ∈ s.published.map InputPublication.channel
  once : (s.store.sent.map Prod.fst).Nodup

theorem tracked_initial (capacity : Nat) : (initial capacity).Tracked :=
  ⟨sound_initial capacity, nofun, nofun, nofun, nofun, List.nodup_nil, List.nodup_nil, nofun,
    List.nodup_nil⟩

variable {s t : Timeline} {c : Call}

theorem Tracked.eq_of_channel (hs : s.Tracked) {p q : InputPublication} (hp : p ∈ s.published)
    (hq : q ∈ s.published) (heq : p.channel = q.channel) : p = q :=
  List.inj_on_of_nodup_map hs.channels hp hq heq

theorem Tracked.injective (hs : s.Tracked) {id : String} {e : Entry}
    (he : s.store.inner.get id = some e) : e.inputs.Injective := by
  intro key key' rx hkey hkey'
  have hp := (hs.waits id e he key rx hkey).1
  have hq := (hs.waits id e he key' rx hkey').1
  cases hs.eq_of_channel hp hq rfl
  rfl

/-- A value that a call sends is one of its update, under the key of a request
that is outstanding, and answers that request. -/
theorem Tracked.sends (hs : s.Tracked) {e : Entry}
    (he : (s.store.purgedBy c).inner.get c.task = some e) {d : Channel × Value}
    (hd : d ∈ e.sends c) :
    ∃ key responses, c.op = .deliverInputs c.task responses ∧ (key, d.2) ∈ responses ∧
      key ∈ e.inputs.outstanding.keys ∧ e.inputs.waiters.get key = some d.1 ∧
      (e.after c).inputs.waiters.get key = none := by
  have hinj := hs.injective (get_of_purgedBy he)
  obtain ⟨now, nowWall, op⟩ := c
  cases op with
  | deliverInputs id responses =>
      have hdel := Inputs.delivered_foldl hinj responses
      obtain ⟨key, hwaits, hout, hresp, hgone⟩ := hdel.answered d hd
      refine ⟨key, responses, rfl, hresp, hout, hwaits, ?_⟩
      show ((e.deliver nowWall responses).inputs.waiters.get key) = none
      rw [Entry.deliver_inputs]
      exact hgone
  | _ => cases hd

theorem sent_step (h : Step s c t) : t.store.sent =
    s.store.sent ++ (((s.store.purgedBy c).inner.get c.task).map (·.sends c)).getD [] := by
  rw [h.store, apply_sent]

/-- What is sent in a step. -/
theorem sent_of_step (h : Step s c t) {d : Channel × Value}
    (hd : d ∈ t.store.sent) : d ∈ s.store.sent ∨
      ∃ e, (s.store.purgedBy c).inner.get c.task = some e ∧ d ∈ e.sends c := by
  rw [sent_step h, List.mem_append] at hd
  refine hd.imp_right fun hd => ?_
  rcases he : (s.store.purgedBy c).inner.get c.task with _ | e
  · rw [he] at hd
    cases hd
  · rw [he] at hd
    exact ⟨e, rfl, hd⟩

theorem published_mono (h : Step s c t) : s.published ⊆ t.published := by
  rw [h.published]
  exact List.subset_append_left _ _

theorem waiting_step (h : Step s c t) (hs : s.Tracked) {id : String} {e' : Entry}
    (he' : t.store.inner.get id = some e') : e'.Waiting := by
  rcases get_step h he' with ⟨-, -, ttlMs, poll, cancel, rfl⟩ | ⟨e, he, rfl⟩
  · exact Entry.waiting_fresh ..
  · have hwaiting := hs.waiting id e (get_of_purgedBy he)
    split
    · exact hwaiting.after c
    · exact hwaiting

/-- The keys a task has used stay used. -/
theorem Tracked.used_subset (hs : s.Tracked) {id : String} {e : Entry}
    (he : s.store.inner.get id = some e) (c : Call) : e.inputs.used ⊆ (e.after c).inputs.used := by
  intro key hkey
  rcases e.after_inputs c with ⟨heq, -⟩ | ⟨id, key', request, rx, -, -, heq⟩ |
    ⟨id, responses, -, heq⟩ | ⟨-, heq⟩
  · rwa [heq]
  · rw [heq]
    exact List.mem_insert_of_mem hkey
  · rw [heq, (Inputs.delivered_foldl (hs.injective he) responses).used]
    exact hkey
  · rwa [heq]

theorem used_step (h : Step s c t) (hs : s.Tracked) {p : InputPublication} (hp : p ∈ t.published)
    {e' : Entry} (he' : t.store.inner.get p.task = some e') : p.key ∈ e'.inputs.used := by
  rw [h.published, List.mem_append, Option.mem_toList] at hp
  rcases hp with hp | hp
  · rcases get_step h he' with ⟨hnew, -⟩ | ⟨e, he, rfl⟩
    · exact absurd (hs.minted p hp) hnew
    · have he := get_of_purgedBy he
      have hused := hs.used p hp e he
      split
      · exact hs.used_subset he c hused
      · exact hused
  · obtain ⟨id, key, request, rx, e, hop, he, hlive, rfl⟩ := mem_publicationOf.mp hp
    rcases get_step h he' with ⟨hnew, -⟩ | ⟨e₀, he₀, rfl⟩
    · exact absurd (hs.sound.minted id e (get_of_purgedBy he)) hnew
    · obtain rfl : e₀ = e := Option.some.inj (he₀.symm.trans he)
      have htask : c.task = id := by
        unfold Call.task
        rw [hop]
      rw [if_pos htask]
      unfold Entry.after
      rw [hop]
      dsimp only
      rw [hlive, if_neg Bool.false_ne_true, Entry.publish_inputs]
      exact List.mem_insert_self

/-- A channel some task awaits is sent nothing in a step after which it is
still awaited. -/
theorem waits_step (h : Step s c t) (hs : s.Tracked) {id : String} {e' : Entry}
    (he' : t.store.inner.get id = some e') {key : String} {rx : Channel}
    (hkey : e'.inputs.waiters.get key = some rx) :
    ⟨id, key, rx⟩ ∈ t.published ∧ rx ∉ t.store.sent.map Prod.fst := by
  -- a waiter of before, which the call did not answer
  have hold (e : Entry) (he : (s.store.purgedBy c).inner.get id = some e)
      (hwaits : e.inputs.waiters.get key = some rx)
      (hstays : c.task = id → (e.after c).inputs.waiters.get key = some rx) :
      ⟨id, key, rx⟩ ∈ t.published ∧ rx ∉ t.store.sent.map Prod.fst := by
    obtain ⟨hp, hunsent⟩ := hs.waits id e (get_of_purgedBy he) key rx hwaits
    refine ⟨published_mono h hp, ?_⟩
    rintro hsent
    obtain ⟨d, hd, rfl⟩ := List.mem_map.mp hsent
    rcases sent_of_step h hd with hd | ⟨e₀, he₀, hd⟩
    · exact hunsent (List.mem_map_of_mem hd)
    · obtain ⟨key₀, responses, -, -, -, hwaits₀, hgone⟩ := hs.sends he₀ hd
      have hq := (hs.waits c.task e₀ (get_of_purgedBy he₀) key₀ d.1 hwaits₀).1
      have heq := hs.eq_of_channel hp hq rfl
      have htask : c.task = id := (congrArg InputPublication.task heq).symm
      obtain rfl : key = key₀ := congrArg InputPublication.key heq
      subst htask
      obtain rfl : e₀ = e := Option.some.inj (he₀.symm.trans he)
      cases hgone.symm.trans (hstays rfl)
  rcases get_step h he' with ⟨-, -, ttlMs, poll, cancel, rfl⟩ | ⟨e, he, rfl⟩
  · cases hkey
  · by_cases htask : c.task = id
    · rw [if_pos htask] at hkey
      rcases e.after_inputs c with ⟨heq, -⟩ | ⟨id', key', request, rx', hop, hlive, heq⟩ |
        ⟨id', responses, -, heq⟩ | ⟨-, heq⟩
      · refine hold e he ?_ fun _ => hkey
        rwa [heq] at hkey
      · have hget := hkey
        rw [heq] at hget
        simp only at hget
        rw [Dict.get_insert] at hget
        split at hget
        · -- the request that the call publishes
          rename_i hunique
          obtain rfl := Option.some.inj hget
          obtain rfl : id' = id := by
            unfold Call.task at htask
            rw [hop] at htask
            exact htask
          have hp : ⟨id', key, rx'⟩ ∈ s.store.publicationOf c :=
            mem_publicationOf.mpr ⟨id', key', request, rx', e, hop, he, hlive, by rw [hunique]⟩
          refine ⟨?_, ?_⟩
          · rw [h.published, List.mem_append, Option.mem_toList]
            exact Or.inr hp
          · intro hsent
            obtain ⟨d, hd, hrx⟩ := List.mem_map.mp hsent
            rcases sent_of_step h hd with hd | ⟨e₀, he₀, hd⟩
            · obtain ⟨q, hq, hchannel⟩ := List.mem_map.mp (hs.sent d.1 (List.mem_map_of_mem hd))
              exact h.newChannel _ hp q hq (hchannel.trans hrx)
            · obtain ⟨_, _, hop', -⟩ := hs.sends he₀ hd
              cases hop.symm.trans hop'
        · exact hold e he hget fun _ => hkey
      · refine hold e he ?_ fun _ => hkey
        rw [heq] at hkey
        have hinj := hs.injective (get_of_purgedBy he)
        exact (Inputs.delivered_foldl hinj responses).waiters key rx hkey
      · rw [heq] at hkey
        cases hkey
    · rw [if_neg htask] at hkey
      exact hold e he hkey fun h => absurd h htask

theorem once_step (h : Step s c t) (hs : s.Tracked) : (t.store.sent.map Prod.fst).Nodup := by
  rw [sent_step h]
  rcases he : (s.store.purgedBy c).inner.get c.task with _ | e
  · rw [Option.map_none, Option.getD_none, List.append_nil]
    exact hs.once
  · rw [Option.map_some, Option.getD_some, List.map_append]
    refine hs.once.append ?_ ?_
    · unfold Entry.sends
      split
      · exact (Inputs.delivered_foldl (hs.injective (get_of_purgedBy he)) _).once
      · exact List.nodup_nil
    · intro rx hold hnew
      obtain ⟨d, hd, rfl⟩ := List.mem_map.mp hnew
      obtain ⟨key, _, -, -, -, hwaits, -⟩ := hs.sends he hd
      exact (hs.waits c.task e (get_of_purgedBy he) key d.1 hwaits).2 hold

theorem keys_step (h : Step s c t) (hs : s.Tracked) :
    (t.published.map fun p => (p.task, p.key)).Nodup := by
  rw [h.published, List.map_append]
  refine hs.keys.append ?_ ?_
  · rcases s.store.publicationOf c with _ | p
    · exact List.nodup_nil
    · exact List.nodup_singleton _
  · intro x hold hnew
    obtain ⟨p, hp, rfl⟩ := List.mem_map.mp hnew
    obtain ⟨q, hq, heq⟩ := List.mem_map.mp hold
    rw [Option.mem_toList] at hp
    obtain ⟨id, key, request, rx, e, -, he, -, rfl⟩ := mem_publicationOf.mp hp
    obtain ⟨htask, hkey⟩ := Prod.mk.inj heq
    -- the key was used before
    refine uniquify_not_mem e.inputs.used key ?_
    have hkey : q.key = uniquify e.inputs.used key := hkey
    rw [← hkey]
    refine hs.used q hq e ?_
    have htask : q.task = id := htask
    rw [htask]
    exact get_of_purgedBy he

theorem channels_step (h : Step s c t) (hs : s.Tracked) :
    (t.published.map InputPublication.channel).Nodup := by
  rw [h.published, List.map_append]
  refine hs.channels.append ?_ ?_
  · rcases s.store.publicationOf c with _ | p
    · exact List.nodup_nil
    · exact List.nodup_singleton _
  · intro rx hold hnew
    obtain ⟨p, hp, rfl⟩ := List.mem_map.mp hnew
    obtain ⟨q, hq, heq⟩ := List.mem_map.mp hold
    exact h.newChannel p (Option.mem_toList.mp hp) q hq heq

theorem tracked_step (h : Step s c t) (hs : s.Tracked) : t.Tracked where
  sound := sound_step h hs.sound
  waiting _ _ he' := waiting_step h hs he'
  used _ hp _ he' := used_step h hs hp he'
  waits _ _ he' _ _ hkey := waits_step h hs he' hkey
  minted := by
    intro p hp
    rw [h.minted, List.mem_append]
    rw [h.published, List.mem_append, Option.mem_toList] at hp
    rcases hp with hp | hp
    · exact Or.inl (hs.minted p hp)
    · obtain ⟨id, key, request, rx, e, -, he, -, rfl⟩ := mem_publicationOf.mp hp
      exact Or.inl (hs.sound.minted id e (get_of_purgedBy he))
  keys := keys_step h hs
  channels := channels_step h hs
  sent := by
    intro rx hrx
    obtain ⟨d, hd, rfl⟩ := List.mem_map.mp hrx
    have hmono := List.map_subset InputPublication.channel (published_mono h)
    rcases sent_of_step h hd with hd | ⟨e, he, hd⟩
    · exact hmono (hs.sent d.1 (List.mem_map_of_mem hd))
    · obtain ⟨key, _, -, -, -, hwaits, -⟩ := hs.sends he hd
      have hp := (hs.waits c.task e (get_of_purgedBy he) key d.1 hwaits).1
      exact hmono (List.mem_map_of_mem hp)
  once := once_step h hs

theorem sent_mono (h : Step s c t) : s.store.sent ⊆ t.store.sent := by
  rw [sent_step h]
  exact List.subset_append_left _ _

/-- The update of the step carries `v` under the wire key of the published
request, which is outstanding. -/
def Answers (s : Timeline) (c : Call) (p : InputPublication) (v : Value) : Prop :=
  p ∈ s.published ∧ ∃ responses e, c.op = .deliverInputs p.task responses ∧
    (p.key, v) ∈ responses ∧ s.store.inner.get p.task = some e ∧
    p.key ∈ e.inputs.outstanding.keys

theorem answers_of_sent (h : Step s c t) (hs : s.Tracked) {d : Channel × Value}
    (hd : d ∈ t.store.sent) :
    d ∈ s.store.sent ∨ ∃ p, p.channel = d.1 ∧ s.Answers c p d.2 := by
  refine (sent_of_step h hd).imp_right ?_
  rintro ⟨e, he, hd⟩
  obtain ⟨key, responses, hop, hresp, hout, hwaits, -⟩ := hs.sends he hd
  have hget := get_of_purgedBy he
  obtain ⟨hp, -⟩ := hs.waits c.task e hget key d.1 hwaits
  exact ⟨⟨c.task, key, d.1⟩, rfl, hp, responses, e, hop, hresp, hget, hout⟩

end Timeline

/-! ## What the handler gets -/

/-- How `TaskBroker::obtain` may end once its request is published: whichever
of the two futures its `select!` finds ready. -/
inductive Obtains (st : DraftTaskStore) (cancel : Token) (rx : Channel) :
    Except McpError Value → Prop
  | cancelled (h : cancel ∈ st.fired) :
      Obtains st cancel rx (.error (.internal
        "the task was cancelled while awaiting client input"))
  | response {v : Value} (h : (rx, v) ∈ st.sent) : Obtains st cancel rx (.ok v)
  | closed (hunsent : rx ∉ st.sent.map Prod.fst)
      (hdropped : ∀ id e, st.inner.get id = some e → ∀ key, e.inputs.waiters.get key ≠ some rx) :
      Obtains st cancel rx (.error (.internal
        "the task input channel closed before a response arrived"))

theorem sent_of_obtains {st : DraftTaskStore} {cancel : Token} {rx : Channel} {v : Value}
    (h : Obtains st cancel rx (.ok v)) : (rx, v) ∈ st.sent := by
  cases h with
  | response h => exact h

namespace Timeline

/-- What holds of the input requests of every run of the store. -/
structure Delivery (capacity : Nat) (tr : List (Call × Timeline)) : Prop where
  /-- No wire key is used twice in the life of a task. -/
  keys : ∀ s ∈ states (initial capacity) tr, (s.published.map fun p => (p.task, p.key)).Nodup
  /-- At most one value is sent for a request. -/
  once : ∀ s ∈ states (initial capacity) tr, (s.store.sent.map Prod.fst).Nodup
  /-- The value a request is resolved with is one an update sent under its wire
  key while it was outstanding. -/
  own : ∀ s ∈ states (initial capacity) tr, ∀ p ∈ s.published, ∀ cancel v,
    Obtains s.store cancel p.channel (.ok v) →
    ∃ x ∈ steps (initial capacity) tr, x.1.Answers x.2.1 p v
  /-- It is resolved with the same value whenever it is looked at. -/
  unique : ∀ s ∈ states (initial capacity) tr, ∀ s' ∈ states (initial capacity) tr,
    ∀ cancel rx v v', Obtains s.store cancel rx (.ok v) → Obtains s'.store cancel rx (.ok v') →
      v = v'
  /-- Responses under keys that are not outstanding have no effect beside that
  of the others, and alone none but the purge. -/
  ignored : ∀ s ∈ states (initial capacity) tr, ∀ now nowWall id responses e,
    (s.store.purgeExpired now).inner.get id = some e →
    s.store.deliverInputs now nowWall id responses = s.store.deliverInputs now nowWall id
      (responses.filter fun r => r.1 ∈ e.inputs.outstanding.keys) ∧
    ((∀ r ∈ responses, r.1 ∉ e.inputs.outstanding.keys) →
      s.store.deliverInputs now nowWall id responses = (s.store.purgeExpired now, some false))
  /-- The loop that makes a key unique ends. -/
  terminates : ∀ s ∈ states (initial capacity) tr, ∀ id e, s.store.inner.get id = some e →
    ∀ key, ∃ n ≤ e.inputs.used.length, uniquify e.inputs.used key = candidateKey key n ∧
      candidateKey key n ∉ e.inputs.used ∧ ∀ i < n, candidateKey key i ∈ e.inputs.used

theorem deliver_filtered (st : DraftTaskStore) (now nowWall : Nat) (id : String) (responses : Map)
    {e : Entry} (he : (st.purgeExpired now).inner.get id = some e) :
    st.deliverInputs now nowWall id responses = st.deliverInputs now nowWall id
      (responses.filter fun r => r.1 ∈ e.inputs.outstanding.keys) := by
  simp only [deliverInputs, he]
  rw [Inputs.foldl_filter_outstanding]

theorem deliver_none {st : DraftTaskStore} {now nowWall : Nat} {id : String} {responses : Map}
    {e : Entry} (he : (st.purgeExpired now).inner.get id = some e) (hwaiting : e.Waiting)
    (hnone : ∀ r ∈ responses, r.1 ∉ e.inputs.outstanding.keys) :
    st.deliverInputs now nowWall id responses = (st.purgeExpired now, some false) := by
  obtain ⟨hsame, hfold⟩ := hwaiting.deliver_ignored nowWall hnone
  have hstays : ¬ (e.status = .inputRequired ∧ e.inputs.outstanding.isEmpty = true) := by
    rintro ⟨hstatus, hempty⟩
    have hpending := (Inputs.pending_iff_not_isEmpty _).mp (hwaiting.pending hstatus)
    rw [hpending] at hempty
    cases hempty
  have hwritten : (st.purgeExpired now).setEntry id e = st.purgeExpired now := by
    unfold setEntry
    rw [Dict.insert_of_get he]
  simp only [deliverInputs, he, hfold, List.append_nil, hstays, if_false]
  rw [hwritten]

theorem tracked_of_run {capacity : Nat} {tr : List (Call × Timeline)}
    (hrun : Run Step (initial capacity) tr) : ∀ s ∈ states (initial capacity) tr, s.Tracked :=
  hrun.invariant (tracked_initial capacity) fun _ _ _ h => tracked_step h

/-- What was sent answers a request. -/
theorem answers_of_run {capacity : Nat} {tr : List (Call × Timeline)}
    (hrun : Run Step (initial capacity) tr) :
    ∀ s ∈ states (initial capacity) tr, ∀ d ∈ s.store.sent,
      ∃ x ∈ steps (initial capacity) tr, ∃ p, p.channel = d.1 ∧ x.1.Answers x.2.1 p d.2 := by
  refine invariant_of_steps nofun ?_
  intro x hx hbefore d hd
  rcases answers_of_sent (hrun x hx) (tracked_of_run hrun _ (source_mem_states hx)) hd with
    hd | ⟨p, hp⟩
  · exact hbefore d hd
  · exact ⟨x, hx, p, hp⟩

/-- The value a handler goes on with answers its own request. -/
theorem answers_of_obtains {capacity : Nat} {tr : List (Call × Timeline)}
    (hrun : Run Step (initial capacity) tr) {s : Timeline}
    (hs : s ∈ states (initial capacity) tr) {p : InputPublication} (hp : p ∈ s.published)
    {cancel : Token} {v : Value} (h : Obtains s.store cancel p.channel (.ok v)) :
    ∃ x ∈ steps (initial capacity) tr, x.1.Answers x.2.1 p v := by
  have hpublished : ∀ s ∈ states (initial capacity) tr,
      s.published ⊆ (final (initial capacity) tr).published :=
    Run.subset_final (fun _ _ _ h => published_mono h) hrun
  have hlast := tracked_of_run hrun _ (final_mem_states _ tr)
  obtain ⟨x, hx, q, hchannel, hanswers⟩ := answers_of_run hrun s hs _ (sent_of_obtains h)
  have hq := hpublished _ (source_mem_states hx) hanswers.1
  obtain rfl := hlast.eq_of_channel hq (hpublished s hs hp) hchannel
  exact ⟨x, hx, hanswers⟩

/-- **Input delivery is exact**: in every run of the store, on which tasks are
created, published to, answered, completed, cancelled and purged in any order,
wire keys are never reused, a request is resolved by one value at most, which
the client sent for it while it was outstanding, and every other response is
ignored. -/
theorem delivery (capacity : Nat) (tr : List (Call × Timeline))
    (hrun : Run Step (initial capacity) tr) : Delivery capacity tr := by
  have htracked := tracked_of_run hrun
  have hsent : ∀ s ∈ states (initial capacity) tr,
      s.store.sent ⊆ (final (initial capacity) tr).store.sent :=
    Run.subset_final (fun _ _ _ h => sent_mono h) hrun
  have hlast := htracked _ (final_mem_states _ tr)
  refine ⟨?_, ?_, ?_, ?_, ?_, ?_⟩
  · exact fun s hs => (htracked s hs).keys
  · exact fun s hs => (htracked s hs).once
  · intro s hs p hp cancel v h
    exact answers_of_obtains hrun hs hp h
  · intro s hs s' hs' cancel rx v v' h h'
    have hd := hsent s hs (sent_of_obtains h)
    have hd' := hsent s' hs' (sent_of_obtains h')
    cases List.inj_on_of_nodup_map hlast.once hd hd' rfl
    rfl
  · intro s hs now nowWall id responses e he
    refine ⟨deliver_filtered s.store now nowWall id responses he, fun hnone => ?_⟩
    rw [get_purgeExpired, Option.filter_eq_some_iff] at he
    have hwaiting := (htracked s hs).waiting id e he.1
    exact deliver_none ((get_purgeExpired ..).trans (Option.filter_eq_some_iff.mpr he)) hwaiting
      hnone
  · exact fun s hs id e he key => uniquify_terminates e.inputs.used key

/-- Two requests under one key, and one under the key made for the second. -/
def askings : List Call :=
  [⟨0, 0, .create "t" none none 0⟩, ⟨0, 0, .publishInput "t" "confirm" .null 0⟩,
    ⟨0, 0, .publishInput "t" "confirm" .null 1⟩, ⟨0, 0, .publishInput "t" "confirm#2" .null 2⟩,
    ⟨0, 0, .deliverInputs "t" [("confirm#2", .bool true), ("other", .null)]⟩,
    ⟨0, 0, .deliverInputs "t" [("confirm#2", .bool false)]⟩]

theorem delivery_askings : Delivery 1 (trace next (initial 1) askings) ∧
    (final (initial 1) (trace next (initial 1) askings)).published.map InputPublication.key =
      ["confirm", "confirm#2", "confirm#2#2"] ∧
    (final (initial 1) (trace next (initial 1) askings)).store.sent = [(1, .bool true)] :=
  ⟨delivery 1 _ (run_trace_of_checked step_next (by decide)), by decide, by decide⟩

end Timeline

end TurboMcp.ExtTasks
