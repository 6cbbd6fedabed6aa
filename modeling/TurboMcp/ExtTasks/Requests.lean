import TurboMcp.ExtTasks.Inputs

/-!
# The requests behind the wire keys

`tasks/get` shows a task's outstanding requests under their wire keys.  Over a
whole run a wire key of a task stands for one request, the one that was
published under it (`asked_unique`), and whatever the task shows under a key is
that request (`outstanding_asked`).
-/

namespace TurboMcp.ExtTasks

open TurboMcp.Core TurboMcp.Lib

namespace DraftTaskStore.Call

/-- The request that a call publishes. -/
def request (c : Call) : Option Value :=
  match c.op with
  | .publishInput _ _ request _ => some request
  | _ => none

end DraftTaskStore.Call

open DraftTaskStore

/-- Delivering answers shows no other requests. -/
theorem Inputs.get_foldl_deliverOne {responses : Map} {acc : Inputs × List (Channel × Value)}
    {key : String} {request : Value}
    (h : (responses.foldl deliverOne acc).1.outstanding.get key = some request) :
    acc.1.outstanding.get key = some request := by
  induction responses generalizing acc with
  | nil => exact h
  | cons response responses ih =>
      have hget := ih h
      obtain ⟨inputs, sent⟩ := acc
      obtain ⟨key', value⟩ := response
      unfold deliverOne at hget
      simp only at hget
      split at hget
      · split at hget
        · rw [Dict.get_remove] at hget
          split at hget
          · cases hget
          · exact hget
        · exact hget
      · exact hget

/-- What was sent stays sent. -/
theorem Inputs.sent_subset_foldl {responses : Map} {acc : Inputs × List (Channel × Value)} :
    acc.2 ⊆ (responses.foldl deliverOne acc).2 := by
  induction responses generalizing acc with
  | nil => exact List.Subset.refl _
  | cons response responses ih =>
      refine List.Subset.trans ?_ ih
      unfold deliverOne
      simp only
      split
      · split
        · exact List.subset_append_left _ _
        · exact List.Subset.refl _
      · exact List.Subset.refl _

/-- An update that has a response for an outstanding key sends one down its channel. -/
theorem Inputs.sent_of_response {responses : Map} {inputs : Inputs}
    {sent : List (Channel × Value)} {key : String} {rx : Channel}
    (hkey : key ∈ inputs.outstanding.keys) (hrx : inputs.waiters.get key = some rx)
    (hresponse : key ∈ responses.map Prod.fst) :
    ∃ v, (rx, v) ∈ (responses.foldl deliverOne (inputs, sent)).2 := by
  induction responses generalizing inputs sent with
  | nil => cases hresponse
  | cons response responses ih =>
      obtain ⟨key', value⟩ := response
      rw [List.foldl_cons]
      by_cases heq : key' = key
      · subst heq
        rw [deliverOne_of_outstanding hkey hrx]
        refine ⟨value, Inputs.sent_subset_foldl ?_⟩
        exact List.mem_append_right _ List.mem_cons_self
      · have hrest : key ∈ responses.map Prod.fst := by
          rw [List.map_cons, List.mem_cons] at hresponse
          exact hresponse.resolve_left fun h => heq h.symm
        by_cases hout : key' ∈ inputs.outstanding.keys
        · rcases hrx' : inputs.waiters.get key' with _ | rx'
          · have hkept : deliverOne (inputs, sent) (key', value) = (inputs, sent) := by
              simp only [deliverOne, (Dict.mem_keys ..).mp hout, if_true, hrx']
            rw [hkept]
            exact ih hkey hrx hrest
          · rw [deliverOne_of_outstanding hout hrx']
            apply ih
            · exact (Dict.mem_keys_remove ..).mpr ⟨fun h => heq h.symm, hkey⟩
            · show (inputs.waiters.remove key').get key = some rx
              rw [Dict.get_remove, if_neg heq]
              exact hrx
            · exact hrest
        · rw [deliverOne_of_not_outstanding hout]
          exact ih hkey hrx hrest

namespace Timeline

/-- What a step publishes, with the request. -/
def askedBy (x : Timeline × Call × Timeline) : List (InputPublication × Value) :=
  match x.1.store.publicationOf x.2.1, x.2.1.request with
  | some p, some request => [(p, request)]
  | _, _ => []

/-- The requests published in a run. -/
def asked (s : Timeline) (tr : List (Call × Timeline)) : List (InputPublication × Value) :=
  (steps s tr).flatMap askedBy

theorem map_fst_askedBy (x : Timeline × Call × Timeline) :
    (askedBy x).map Prod.fst = (x.1.store.publicationOf x.2.1).toList := by
  unfold askedBy
  rcases hp : x.1.store.publicationOf x.2.1 with _ | p
  · rfl
  · obtain ⟨id, key, request, rx, e, hop, -⟩ := mem_publicationOf.mp hp
    have hrequest : x.2.1.request = some request := by
      unfold DraftTaskStore.Call.request
      rw [hop]
    rw [hrequest]
    rfl

/-- The run's requests are those behind its publications. -/
theorem map_fst_asked {s : Timeline} {tr : List (Call × Timeline)} (hrun : Run Step s tr) :
    s.published ++ (asked s tr).map Prod.fst = (final s tr).published := by
  induction tr generalizing s with
  | nil => exact List.append_nil _
  | cons y tr ih =>
      obtain ⟨c, t⟩ := y
      obtain ⟨hstep, hrest⟩ := run_cons.mp hrun
      have htail := ih hrest
      rw [hstep.published, List.append_assoc] at htail
      unfold asked at htail ⊢
      rw [steps_cons, List.flatMap_cons, List.map_append, map_fst_askedBy]
      exact htail

variable {capacity : Nat} {tr : List (Call × Timeline)}

/-- A wire key of a task stands for one request. -/
theorem asked_unique (hrun : Run Step (initial capacity) tr) {p q : InputPublication}
    {request request' : Value} (hp : (p, request) ∈ asked (initial capacity) tr)
    (hq : (q, request') ∈ asked (initial capacity) tr) (htask : p.task = q.task)
    (hkey : p.key = q.key) : request = request' := by
  have hpublished := map_fst_asked hrun
  have hkeys := (tracked_of_run hrun _ (final_mem_states _ tr)).keys
  rw [← hpublished, initial, List.nil_append, List.map_map] at hkeys
  have hsame := List.inj_on_of_nodup_map hkeys hp hq
    (show (p.task, p.key) = (q.task, q.key) by rw [htask, hkey])
  exact congrArg Prod.snd hsame

/-- **What `tasks/get` shows**: each outstanding request of a task is one that was
published to it, under the key it was published under. -/
theorem outstanding_asked (hrun : Run Step (initial capacity) tr) :
    ∀ s ∈ states (initial capacity) tr, ∀ id e, s.store.inner.get id = some e →
      ∀ key request, e.inputs.outstanding.get key = some request →
        ∃ p, (p, request) ∈ asked (initial capacity) tr ∧ p.task = id ∧ p.key = key := by
  apply invariant_of_steps
  · intro id e he
    cases he
  · rintro ⟨s, c, t⟩ hx hbefore id e' he' key request hget
    have hstep := hrun _ hx
    rcases get_step hstep he' with ⟨-, -, ttlMs, poll, cancel, rfl⟩ | ⟨e, he, rfl⟩
    · cases hget
    · have hold := hbefore id e (get_of_purgedBy he) key request
      by_cases htask : c.task = id
      · rw [if_pos htask] at hget
        rcases e.after_inputs c with ⟨heq, -⟩ | ⟨id', key', request', rx, hop, hlive, heq⟩ |
          ⟨id', responses, -, heq⟩ | ⟨-, heq⟩
        · apply hold
          rwa [heq] at hget
        · rw [heq] at hget
          simp only at hget
          rw [Dict.get_insert] at hget
          split at hget
          · -- the request that this step publishes
            rename_i hunique
            obtain rfl := Option.some.inj hget
            obtain rfl : id' = id := by
              unfold Call.task at htask
              rw [hop] at htask
              exact htask
            have hp : s.store.publicationOf c = some ⟨id', key, rx⟩ :=
              mem_publicationOf.mpr ⟨id', key', request', rx, e, hop, he, hlive, by rw [hunique]⟩
            refine ⟨⟨id', key, rx⟩, ?_, rfl, rfl⟩
            refine List.mem_flatMap.mpr ⟨(s, c, t), hx, ?_⟩
            unfold askedBy DraftTaskStore.Call.request
            simp only [hp, hop]
            exact List.mem_cons_self
          · exact hold hget
        · apply hold
          rw [heq] at hget
          exact Inputs.get_foldl_deliverOne hget
        · rw [heq] at hget
          cases hget
      · rw [if_neg htask] at hget
        exact hold hget

theorem published_of_asked (hrun : Run Step (initial capacity) tr) {p : InputPublication}
    {request : Value} (hp : (p, request) ∈ asked (initial capacity) tr) :
    p ∈ (final (initial capacity) tr).published := by
  rw [← map_fst_asked hrun]
  exact List.mem_append_right _ (List.mem_map_of_mem hp)

/-- A request whose handler has its value was published by then. -/
theorem published_of_obtains (hrun : Run Step (initial capacity) tr) {p : InputPublication}
    {request : Value} (hp : (p, request) ∈ asked (initial capacity) tr) {s : Timeline}
    (hs : s ∈ states (initial capacity) tr) {cancel : Token} {v : Value}
    (hv : Obtains s.store cancel p.channel (.ok v)) : p ∈ s.published := by
  have hmono := Run.subset_final (fun _ _ _ h => published_mono h) hrun
  have hsent := List.mem_map_of_mem (f := Prod.fst) (sent_of_obtains hv)
  obtain ⟨q, hq, hchannel⟩ := List.mem_map.mp ((tracked_of_run hrun s hs).sent _ hsent)
  have hlast := tracked_of_run hrun _ (final_mem_states _ tr)
  obtain rfl := hlast.eq_of_channel (hmono s hs hq) (published_of_asked hrun hp) hchannel
  exact hq

/-- **What an update brings**: where it has a response for an outstanding request,
the handler that awaits the request's channel can go on. -/
theorem obtains_of_update (hrun : Run Step (initial capacity) tr)
    {x : Timeline × Call × Timeline} (hx : x ∈ steps (initial capacity) tr)
    {p : InputPublication} {request : Value} (hp : (p, request) ∈ asked (initial capacity) tr)
    {responses : Map} (hop : x.2.1.op = .deliverInputs p.task responses) {e : Entry}
    (he : (x.1.store.purgedBy x.2.1).inner.get p.task = some e)
    (hkey : p.key ∈ e.inputs.outstanding.keys) (hresponse : p.key ∈ responses.map Prod.fst)
    (cancel : Token) : ∃ v, Obtains x.2.2.store cancel p.channel (.ok v) := by
  obtain ⟨s, c, t⟩ := x
  have hstep : Step s c t := hrun _ hx
  have hs := tracked_of_run hrun s (source_mem_states hx)
  have hget := get_of_purgedBy he
  obtain ⟨rx, hrx⟩ : ∃ rx, e.inputs.waiters.get p.key = some rx :=
    Option.isSome_iff_exists.mp ((Dict.mem_keys ..).mp
      (((hs.waiting p.task e hget).aligned.same_keys p.key).mp hkey))
  -- it is the channel of the request
  obtain rfl : rx = p.channel := by
    have hlast := published_of_asked hrun hp
    have hmono := Run.subset_final (fun _ _ _ h => published_mono h) hrun
    have hq := hmono s (source_mem_states hx) (hs.waits p.task e hget p.key rx hrx).1
    have hkeys := (tracked_of_run hrun _ (final_mem_states _ tr)).keys
    exact congrArg InputPublication.channel (List.inj_on_of_nodup_map hkeys hq hlast rfl)
  obtain ⟨v, hv⟩ : ∃ v, (p.channel, v) ∈ (responses.foldl deliverOne (e.inputs, [])).2 :=
    Inputs.sent_of_response hkey hrx hresponse
  refine ⟨v, .response ?_⟩
  show (p.channel, v) ∈ t.store.sent
  have htask : c.task = p.task := by
    unfold Call.task
    rw [show c.op = _ from hop]
  rw [sent_step hstep, htask, he]
  apply List.mem_append_right
  show (p.channel, v) ∈ e.sends c
  unfold Entry.sends
  rw [show c.op = _ from hop]
  exact hv

end Timeline

end TurboMcp.ExtTasks
