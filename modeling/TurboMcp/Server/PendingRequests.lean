import TurboMcp.Core.Error
import TurboMcp.Lib.Dict
import TurboMcp.Lib.Runs

/-!
# Requests of the server

On the legacy path a handler asks its client by a request of the server's own:
`send_and_await` registers a channel under a minted id, sends the request and
waits for a response, for its deadline, or until it is dropped.  All sessions
share the one map.  A response takes the sender out of the map, lets the lock go
and then sends; a call gives its receiver up before its guard cleans the map.
-/

namespace TurboMcp.Server

open TurboMcp.Core TurboMcp.Lib

/-! ## The map -/

/-- The senders, each named after the call that holds the receiver. -/
structure PendingRequests where
  map : Dict RequestId Nat

structure PendingGuard where
  id : RequestId

namespace PendingRequests

def empty : PendingRequests := ⟨Dict.empty⟩

def register (pending : PendingRequests) (id : RequestId) (sender : Nat) :
    PendingRequests × PendingGuard :=
  (⟨pending.map.insert id sender⟩, ⟨id⟩)

/-- `complete`, as long as it holds the lock. -/
def take (pending : PendingRequests) (id : RequestId) : Option Nat × PendingRequests :=
  (pending.map.get id, ⟨pending.map.remove id⟩)

end PendingRequests

def PendingGuard.drop (guard : PendingGuard) (pending : PendingRequests) : PendingRequests :=
  ⟨pending.map.remove guard.id⟩

namespace Bidi

/-! ## Calls -/

/-- What a call comes to. -/
inductive Ending
  | answered (response : JsonRpcResponse)
  | failed (e : McpError)
  /-- The handler's future has been dropped. -/
  | dropped
  deriving DecidableEq

/-- What the handler gets. -/
def Ending.result : Ending → Option (Except McpError Value)
  | .answered response =>
      match response.result, response.error with
      | some result, none => some (.ok result)
      | _, some e => some (.error (.internal
          ("client answered input request with error " ++ toString e.code ++ ": " ++ e.message)))
      | _, _ => some (.error (.internal "client answered input request with an empty response"))
  | .failed e => some (.error e)
  | .dropped => none

inductive CallPhase
  /-- Registered, and the request is being sent. -/
  | registered
  | awaiting
  /-- The receiver is given up, and the guard still held. -/
  | ending (e : Ending)
  | returned (e : Ending)
  deriving DecidableEq

/-- One call of `send_and_await`. -/
structure Call where
  request : JsonRpcRequest
  phase : CallPhase
  /-- The call's channel. -/
  slot : Option JsonRpcResponse
  deriving DecidableEq

/-- The request under a minted id. -/
def bidiRequest (uuid : String) (request : Value) : JsonRpcRequest :=
  { id := .string ("srv-" ++ uuid)
    method := ((request.get "method").bind Value.asStr).getD ""
    params := request.get "params" }

inductive CallAct
  /-- There is no server-to-client channel for the session. -/
  | noWriter
  | sent
  | sendFailed
  | receive
  | timeout
  | cancel
  deriving DecidableEq

namespace Call

def start (request : JsonRpcRequest) : Call := { request, phase := .registered, slot := none }

/-- `send_and_await` has not returned, and not been dropped. -/
def Waiting (c : Call) : Prop := ∀ e, c.phase ≠ .returned e

/-- The receiver is there. -/
def isOpen (c : Call) : Bool :=
  match c.phase with
  | .registered | .awaiting => true
  | _ => false

/-- A response is sent on the channel; without a receiver it is lost. -/
def accept (response : JsonRpcResponse) (c : Call) : Call :=
  if c.isOpen then { c with slot := some response } else c

def endWith (c : Call) (e : Ending) : Call := { c with phase := .ending e }

/-- The call's own moves. -/
def act (c : Call) : CallAct → Option Call
  | .noWriter =>
      if c.phase = .registered then
        some (c.endWith (.failed (.transport
          "no server→client channel for this session (open the GET stream or keep the pipe alive)")))
      else none
  | .sent => if c.phase = .registered then some { c with phase := .awaiting } else none
  | .sendFailed =>
      if c.phase = .registered then
        some (c.endWith (.failed (.transport "server→client channel closed")))
      else none
  | .receive =>
      match c.phase, c.slot with
      | .awaiting, some response => some (c.endWith (.answered response))
      | _, _ => none
  | .timeout =>
      if c.phase = .awaiting then
        some (c.endWith (.failed (.timeout "client did not answer the input request in time")))
      else none
  | .cancel => if c.isOpen then some (c.endWith .dropped) else none

end Call

/-! ## Interleavings -/

structure State where
  pending : PendingRequests
  calls : List Call
  /-- The senders that `complete` has taken out and not yet sent on. -/
  delivering : List (Nat × JsonRpcResponse)

def initial : State := { pending := .empty, calls := [], delivering := [] }

inductive Label
  | call (uuid : String) (request : Value)
  | act (n : Nat) (a : CallAct)
  /-- The sender is gone and nothing was sent. -/
  | lost (n : Nat)
  /-- The guard is dropped. -/
  | release (n : Nat)
  /-- A client's response reaches the dispatcher, and takes the sender out. -/
  | respond (response : JsonRpcResponse)
  | deliver (n : Nat) (response : JsonRpcResponse)

/-- Nothing can be sent to the call any more. -/
def State.abandoned (s : State) (n : Nat) (c : Call) : Bool :=
  c.phase = .awaiting && c.slot.isNone && (s.pending.map.get c.request.id).isNone &&
    !(s.delivering.map Prod.fst).contains n

/-- One move; minted ids are new. -/
def step (s : State) : Label → Option State
  | .call uuid request =>
      let c := Call.start (bidiRequest uuid request)
      if s.calls.all fun d => d.request.id ≠ c.request.id then
        some
          { s with
            pending := (s.pending.register c.request.id s.calls.length).1
            calls := s.calls ++ [c] }
      else none
  | .act n a => do
      let c ← s.calls[n]?
      let c' ← c.act a
      pure { s with calls := s.calls.set n c' }
  | .lost n => do
      let c ← s.calls[n]?
      if s.abandoned n c then
        pure { s with
          calls := s.calls.set n
            (c.endWith (.failed (.transport "server→client request dropped"))) }
      else none
  | .release n =>
      match s.calls[n]? with
      | some ⟨request, .ending e, slot⟩ =>
          some
            { s with
              pending := (PendingGuard.mk request.id).drop s.pending
              calls := s.calls.set n ⟨request, .returned e, slot⟩ }
      | _ => none
  | .respond response =>
      let (sender, pending) := s.pending.take response.id
      some { s with
        pending, delivering := s.delivering ++ (sender.map fun n => (n, response)).toList }
  | .deliver n response =>
      if (n, response) ∈ s.delivering then
        some { s with
          calls := s.calls.modify n (Call.accept response)
          delivering := s.delivering.erase (n, response) }
      else none

def Step (s : State) (a : Label) (t : State) : Prop := step s a = some t

/-- The `n`th call waits, with a request of this id. -/
def State.Awaits (s : State) (n : Nat) (id : RequestId) : Prop :=
  ∃ c, s.calls[n]? = some c ∧ c.request.id = id ∧ c.Waiting

/-- What the move puts into the `n`th call's channel. -/
def State.takes (s : State) (n : Nat) : Label → List JsonRpcResponse
  | .deliver m response => if m = n ∧ (s.calls[n]?.any Call.isOpen) = true then [response] else []
  | _ => []

/-- The responses the `n`th call receives in a run. -/
def received (n : Nat) (tr : List (Label × State)) : List JsonRpcResponse :=
  (steps initial tr).flatMap fun x => x.1.takes n x.2.1

/-! ## What every interleaving keeps -/

variable {s t : State} {n : Nat} {c c' : Call}

/-- A sender is in the map, in the hands of one `complete`, or used. -/
structure State.Sound (s : State) : Prop where
  distinct : ∀ (i j : Nat) (c d : Call), s.calls[i]? = some c → s.calls[j]? = some d →
    c.request.id = d.request.id → i = j
  held : ∀ id n, s.pending.map.get id = some n → s.Awaits n id
  inHand : ∀ x ∈ s.delivering, ∃ c, s.calls[x.1]? = some c ∧ x.2.id = c.request.id ∧
    s.pending.map.get c.request.id = none
  once : (s.delivering.map Prod.fst).Nodup
  filled : ∀ (n : Nat) (c : Call) (r : JsonRpcResponse), s.calls[n]? = some c →
    c.slot = some r → r.id = c.request.id ∧
      s.pending.map.get c.request.id = none ∧ n ∉ s.delivering.map Prod.fst
  answered : ∀ (n : Nat) (c : Call) (r : JsonRpcResponse), s.calls[n]? = some c →
    c.phase = .ending (.answered r) ∨ c.phase = .returned (.answered r) → c.slot = some r

theorem sound_initial : initial.Sound where
  distinct := by
    intro i j c d hi
    cases hi
  held := by
    intro id n hget
    cases hget
  inHand := by
    intro x hx
    cases hx
  once := List.nodup_nil
  filled := by
    intro n c r hc
    cases hc
  answered := by
    intro n c r hc
    cases hc

theorem getElem?_set_cases {calls : List Call} {m : Nat} {d : Call}
    (h : (calls.set n c')[m]? = some d) : (m = n ∧ d = c') ∨ calls[m]? = some d := by
  rw [List.getElem?_set] at h
  split at h
  · rename_i hm
    subst hm
    split at h
    · cases h
      exact Or.inl ⟨rfl, rfl⟩
    · cases h
  · exact Or.inr h

/-- A call that goes on with its request and what its channel holds, and leaves at
most its own sender out of the map. -/
theorem State.Sound.update (h : s.Sound) (hc : s.calls[n]? = some c) (c' : Call)
    (hrequest : c'.request = c.request) (hslot : c'.slot = c.slot) {pending : PendingRequests}
    (hmap : ∀ id m, pending.map.get id = some m → s.pending.map.get id = some m ∧
      (m = n → c'.Waiting))
    (hanswered : ∀ r, c'.phase = .ending (.answered r) ∨ c'.phase = .returned (.answered r) →
      c.slot = some r) :
    State.Sound { s with pending, calls := s.calls.set n c' } := by
  have hn : n < s.calls.length := (List.getElem?_eq_some_iff.mp hc).1
  have hself : (s.calls.set n c')[n]? = some c' := List.getElem?_set_self hn
  have hother {m : Nat} (hne : m ≠ n) : (s.calls.set n c')[m]? = s.calls[m]? :=
    List.getElem?_set_ne (Ne.symm hne)
  -- each call has the request and the channel it had
  have hback {m : Nat} {d : Call} (hd : (s.calls.set n c')[m]? = some d) :
      ∃ d', s.calls[m]? = some d' ∧ d.request = d'.request ∧ d.slot = d'.slot := by
    rcases getElem?_set_cases hd with ⟨rfl, rfl⟩ | hd
    · exact ⟨c, hc, hrequest, hslot⟩
    · exact ⟨d, hd, rfl, rfl⟩
  have hnone {id : RequestId} (hid : s.pending.map.get id = none) :
      pending.map.get id = none := by
    rcases hget : pending.map.get id with _ | m
    · rfl
    · rw [(hmap id m hget).1] at hid
      cases hid
  refine ⟨?_, ?_, ?_, h.once, ?_, ?_⟩
  · intro i j d e hd he heq
    obtain ⟨d', hd', hd, -⟩ := hback hd
    obtain ⟨e', he', he, -⟩ := hback he
    exact h.distinct i j d' e' hd' he' (by rw [← hd, ← he, heq])
  · intro id m hget
    obtain ⟨hget, hwaiting⟩ := hmap id m hget
    obtain ⟨d, hd, hid, hwaits⟩ := h.held id m hget
    by_cases hm : m = n
    · subst hm
      rw [hc] at hd
      cases hd
      exact ⟨c', hself, (congrArg (·.id) hrequest).trans hid, hwaiting rfl⟩
    · exact ⟨d, (hother hm).trans hd, hid, hwaits⟩
  · intro x hx
    obtain ⟨d, hd, hid, hget⟩ := h.inHand x hx
    by_cases hm : x.1 = n
    · rw [hm, hc] at hd
      cases hd
      exact ⟨c', by rw [hm]; exact hself, by rw [hrequest]; exact hid,
        by rw [hrequest]; exact hnone hget⟩
    · exact ⟨d, (hother hm).trans hd, hid, hnone hget⟩
  · intro m d r hd hr
    obtain ⟨d', hd', hrequest', hslot'⟩ := hback hd
    obtain ⟨hid, hget, hhand⟩ := h.filled m d' r hd' (hslot' ▸ hr)
    rw [hrequest']
    exact ⟨hid, hnone hget, hhand⟩
  · intro m d r hd hr
    rcases getElem?_set_cases hd with ⟨rfl, rfl⟩ | hd
    · exact hslot.trans (hanswered r hr)
    · exact h.answered m d r hd hr

/-- What the call itself does leaves its request and its channel alone. -/
theorem Call.act_spec {a : CallAct} (h : c.act a = some c') :
    c'.request = c.request ∧ c'.slot = c.slot ∧ c'.Waiting ∧
      ∀ r, c'.phase = .ending (.answered r) ∨ c'.phase = .returned (.answered r) →
        c.slot = some r := by
  unfold Call.act at h
  cases a with
  | receive =>
      dsimp only at h
      split at h
      · rename_i response _ hslot
        cases h
        refine ⟨rfl, rfl, ?_, ?_⟩
        · intro e he
          cases he
        · rintro r (hr | hr)
          · cases hr
            exact hslot
          · cases hr
      · cases h
  | _ =>
      dsimp only at h
      split at h
      · cases h
        refine ⟨rfl, rfl, ?_, ?_⟩
        · intro e he
          cases he
        · rintro r (hr | hr)
          · cases hr
          · cases hr
      · cases h

/-- A call starts, under an id that no other has. -/
theorem State.Sound.call (h : s.Sound) {request : JsonRpcRequest}
    (hnew : ∀ d ∈ s.calls, d.request.id ≠ request.id) :
    State.Sound { s with
      pending := (s.pending.register request.id s.calls.length).1
      calls := s.calls ++ [Call.start request] } := by
  have hold {m : Nat} {d : Call} (hd : s.calls[m]? = some d) :
      (s.calls ++ [Call.start request])[m]? = some d := by
    rw [List.getElem?_append_left (List.getElem?_eq_some_iff.mp hd).1]
    exact hd
  have hlast : (s.calls ++ [Call.start request])[s.calls.length]? = some (Call.start request) :=
    List.getElem?_concat_length
  have hcases {m : Nat} {d : Call} (hd : (s.calls ++ [Call.start request])[m]? = some d) :
      s.calls[m]? = some d ∨ m = s.calls.length ∧ d = Call.start request := by
    rcases Nat.lt_trichotomy m s.calls.length with hm | hm | hm
    · rw [List.getElem?_append_left hm] at hd
      exact Or.inl hd
    · rw [hm, hlast] at hd
      exact Or.inr ⟨hm, (Option.some.inj hd).symm⟩
    · rw [List.getElem?_eq_none] at hd
      · cases hd
      · rw [List.length_append, List.length_singleton]
        omega
  have hfresh {m : Nat} {d : Call} (hd : s.calls[m]? = some d) : request.id ≠ d.request.id :=
    Ne.symm (hnew d (List.mem_of_getElem? hd))
  have hget {id : RequestId} (hid : request.id ≠ id) :
      (s.pending.map.insert request.id s.calls.length).get id = s.pending.map.get id :=
    (Dict.get_insert ..).trans (if_neg hid)
  refine ⟨?_, ?_, ?_, h.once, ?_, ?_⟩
  · intro i j d e hd he heq
    rcases hcases hd with hd | ⟨rfl, rfl⟩
    · rcases hcases he with he | ⟨rfl, rfl⟩
      · exact h.distinct i j d e hd he heq
      · exact absurd heq.symm (hfresh hd)
    · rcases hcases he with he | ⟨rfl, rfl⟩
      · exact absurd heq (hfresh he)
      · rfl
  · intro id m hm
    replace hm : (s.pending.map.insert request.id s.calls.length).get id = some m := hm
    rw [Dict.get_insert] at hm
    split at hm
    · rename_i hid
      cases hm
      exact ⟨_, hlast, hid, fun e he => by cases he⟩
    · obtain ⟨d, hd, hrest⟩ := h.held id m hm
      exact ⟨d, hold hd, hrest⟩
  · intro x hx
    obtain ⟨d, hd, hid, hnone⟩ := h.inHand x hx
    exact ⟨d, hold hd, hid, (hget (hfresh hd)).trans hnone⟩
  · intro m d r hd hr
    rcases hcases hd with hd | ⟨rfl, rfl⟩
    · obtain ⟨hid, hnone, hhand⟩ := h.filled m d r hd hr
      exact ⟨hid, (hget (hfresh hd)).trans hnone, hhand⟩
    · cases hr
  · intro m d r hd hr
    rcases hcases hd with hd | ⟨rfl, rfl⟩
    · exact h.answered m d r hd hr
    · rcases hr with hr | hr
      · cases hr
      · cases hr

/-- A response takes the sender out that its id names, if one is there. -/
theorem State.Sound.respond (h : s.Sound) (response : JsonRpcResponse) :
    State.Sound { s with
      pending := (s.pending.take response.id).2
      delivering := s.delivering ++
        ((s.pending.take response.id).1.map fun n => (n, response)).toList } := by
  have hget (id : RequestId) : (s.pending.map.remove response.id).get id =
      if response.id = id then none else s.pending.map.get id := Dict.get_remove ..
  have hnone {id : RequestId} (hid : s.pending.map.get id = none) :
      (s.pending.map.remove response.id).get id = none := by
    rw [hget, hid]
    split <;> rfl
  -- whose sender is in the map has none elsewhere
  have hunused {m : Nat} (hm : s.pending.map.get response.id = some m) :
      m ∉ s.delivering.map Prod.fst ∧ ∀ d, s.calls[m]? = some d → d.slot = none := by
    obtain ⟨d, hd, hid, -⟩ := h.held response.id m hm
    rw [← hid] at hm
    refine ⟨fun hmem => ?_, fun d' hd' => ?_⟩
    · obtain ⟨x, hx, rfl⟩ := List.mem_map.mp hmem
      obtain ⟨d', hd', -, hempty⟩ := h.inHand x hx
      rw [hd] at hd'
      cases hd'
      rw [hempty] at hm
      cases hm
    · rw [hd] at hd'
      cases hd'
      rcases hslot : d.slot with _ | r
      · rfl
      · rw [(h.filled m d r hd hslot).2.1] at hm
        cases hm
  refine ⟨h.distinct, ?_, ?_, ?_, ?_, h.answered⟩
  · intro id m hm
    replace hm : (s.pending.map.remove response.id).get id = some m := hm
    rw [hget] at hm
    split at hm
    · cases hm
    · exact h.held id m hm
  · intro x hx
    rcases List.mem_append.mp hx with hx | hx
    · obtain ⟨d, hd, hid, hempty⟩ := h.inHand x hx
      exact ⟨d, hd, hid, hnone hempty⟩
    · obtain ⟨m, hm, rfl⟩ := Option.map_eq_some_iff.mp (Option.mem_toList.mp hx)
      obtain ⟨d, hd, hid, -⟩ := h.held response.id m hm
      refine ⟨d, hd, hid.symm, ?_⟩
      rw [hid]
      exact (hget _).trans (if_pos rfl)
  · rcases hsender : s.pending.map.get response.id with _ | m
    · simp only [PendingRequests.take, hsender]
      rw [Option.map_none, Option.toList_none, List.append_nil]
      exact h.once
    · simp only [PendingRequests.take, hsender]
      rw [Option.map_some, Option.toList_some, List.map_append, List.nodup_append]
      refine ⟨h.once, List.nodup_singleton _, ?_⟩
      rintro i hi j hj rfl
      rw [List.map_singleton, List.mem_singleton] at hj
      subst hj
      exact (hunused hsender).1 hi
  · intro m d r hd hr
    obtain ⟨hid, hempty, hhand⟩ := h.filled m d r hd hr
    refine ⟨hid, hnone hempty, fun hmem => ?_⟩
    rw [List.map_append, List.mem_append] at hmem
    rcases hmem with hmem | hmem
    · exact hhand hmem
    · obtain ⟨x, hx, rfl⟩ := List.mem_map.mp hmem
      obtain ⟨m', hm', rfl⟩ := Option.map_eq_some_iff.mp (Option.mem_toList.mp hx)
      rw [(hunused hm').2 d hd] at hr
      cases hr

/-- A response arrives in its call's channel, or nowhere. -/
theorem State.Sound.deliver (h : s.Sound) {response : JsonRpcResponse}
    (hmem : (n, response) ∈ s.delivering) :
    State.Sound { s with
      calls := s.calls.modify n (Call.accept response)
      delivering := s.delivering.erase (n, response) } := by
  obtain ⟨c, hc, hid, hempty⟩ := h.inHand _ hmem
  have hsub : (s.delivering.erase (n, response)).map Prod.fst ⊆ s.delivering.map Prod.fst :=
    List.map_subset _ List.erase_subset
  have hgone : n ∉ (s.delivering.erase (n, response)).map Prod.fst ∧
      ((s.delivering.erase (n, response)).map Prod.fst).Nodup := by
    have hperm := (List.perm_cons_erase hmem).map Prod.fst
    have honce := hperm.nodup_iff.mp h.once
    rw [List.map_cons, List.nodup_cons] at honce
    exact honce
  have hrequest (d : Call) : (d.accept response).request = d.request := by
    unfold Call.accept
    split <;> rfl
  have hphase (d : Call) : (d.accept response).phase = d.phase := by
    unfold Call.accept
    split <;> rfl
  have hback {m : Nat} {d : Call} (hd : (s.calls.modify n (Call.accept response))[m]? = some d) :
      (m ≠ n ∧ s.calls[m]? = some d) ∨ m = n ∧ d = c.accept response := by
    rw [List.getElem?_modify] at hd
    by_cases hm : n = m
    · subst hm
      rw [hc] at hd
      refine Or.inr ⟨rfl, ?_⟩
      simpa using hd.symm
    · refine Or.inl ⟨Ne.symm hm, ?_⟩
      simpa [hm] using hd
  have hforth {m : Nat} {d : Call} (hd : s.calls[m]? = some d) :
      ∃ d', (s.calls.modify n (Call.accept response))[m]? = some d' ∧ d'.request = d.request ∧
        d'.phase = d.phase := by
    rw [List.getElem?_modify, hd]
    by_cases hm : n = m
    · exact ⟨d.accept response, by simp [hm], hrequest d, hphase d⟩
    · exact ⟨d, by simp [hm], rfl, rfl⟩
  refine ⟨?_, ?_, ?_, hgone.2, ?_, ?_⟩
  · intro i j d e hd he heq
    obtain ⟨d', hd', hreq⟩ : ∃ d', s.calls[i]? = some d' ∧ d.request = d'.request := by
      rcases hback hd with ⟨-, hd⟩ | ⟨rfl, rfl⟩
      · exact ⟨d, hd, rfl⟩
      · exact ⟨c, hc, hrequest c⟩
    obtain ⟨e', he', hreq'⟩ : ∃ e', s.calls[j]? = some e' ∧ e.request = e'.request := by
      rcases hback he with ⟨-, he⟩ | ⟨rfl, rfl⟩
      · exact ⟨e, he, rfl⟩
      · exact ⟨c, hc, hrequest c⟩
    exact h.distinct i j d' e' hd' he' (by rw [← hreq, ← hreq', heq])
  · intro id m hm
    obtain ⟨d, hd, hdid, hwaits⟩ := h.held id m hm
    obtain ⟨d', hd', hreq, hph⟩ := hforth hd
    exact ⟨d', hd', (congrArg (·.id) hreq).trans hdid, fun e he => hwaits e (hph.symm.trans he)⟩
  · intro x hx
    obtain ⟨d, hd, hdid, hnone⟩ := h.inHand x (List.mem_of_mem_erase hx)
    obtain ⟨d', hd', hreq, -⟩ := hforth hd
    exact ⟨d', hd', by rw [hreq]; exact hdid, by rw [hreq]; exact hnone⟩
  · intro m d r hd hr
    rcases hback hd with ⟨-, hd⟩ | ⟨rfl, rfl⟩
    · obtain ⟨hdid, hnone, hhand⟩ := h.filled m d r hd hr
      exact ⟨hdid, hnone, fun hmem => hhand (hsub hmem)⟩
    · rw [hrequest]
      unfold Call.accept at hr
      split at hr
      · cases hr
        exact ⟨hid, hempty, hgone.1⟩
      · exact absurd (List.mem_map_of_mem hmem) (h.filled m c r hc hr).2.2
  · intro m d r hd hr
    rcases hback hd with ⟨-, hd⟩ | ⟨rfl, rfl⟩
    · exact h.answered m d r hd hr
    · rw [hphase] at hr
      have hslot := h.answered m c r hc hr
      exact absurd (List.mem_map_of_mem hmem) (h.filled m c r hc hslot).2.2

/-- **Step lemma**: a sender is used at most once, and for its own call. -/
theorem sound_step {a : Label} (h : s.Sound) (hstep : Step s a t) : t.Sound := by
  unfold Step step at hstep
  cases a with
  | call uuid request =>
      dsimp only at hstep
      split at hstep
      · rename_i hnew
        cases hstep
        refine h.call fun d hd => ?_
        exact of_decide_eq_true (List.all_eq_true.mp hnew d hd)
      · cases hstep
  | act n a =>
      obtain ⟨c, hc, hstep⟩ := Option.bind_eq_some_iff.mp hstep
      obtain ⟨c', hact, hstep⟩ := Option.bind_eq_some_iff.mp hstep
      cases hstep
      obtain ⟨hrequest, hslot, hwaiting, hanswered⟩ := Call.act_spec hact
      exact h.update hc c' hrequest hslot (fun id m hm => ⟨hm, fun _ => hwaiting⟩) hanswered
  | lost n =>
      obtain ⟨c, hc, hstep⟩ := Option.bind_eq_some_iff.mp hstep
      split at hstep
      · cases hstep
        refine h.update hc (c.endWith _) rfl rfl (fun id m hm => ⟨hm, fun _ e he => ?_⟩) ?_
        · cases he
        rintro r (hr | hr)
        · cases hr
        · cases hr
      · cases hstep
  | release n =>
      dsimp only at hstep
      split at hstep
      · rename_i request e slot hc
        cases hstep
        refine h.update hc ⟨request, .returned e, slot⟩ rfl rfl (fun id m hm => ?_) fun r hr => ?_
        · replace hm : (s.pending.map.remove request.id).get id = some m := hm
          rw [Dict.get_remove] at hm
          split at hm
          · cases hm
          · rename_i hne
            refine ⟨hm, ?_⟩
            rintro rfl
            -- the call's own sender is not there any more
            obtain ⟨d, hd, hid, -⟩ := h.held id m hm
            rw [hc] at hd
            cases hd
            exact absurd hid hne
        · rcases hr with hr | hr
          · cases hr
          · cases hr
            exact h.answered n _ r hc (Or.inl rfl)
      · cases hstep
  | respond response =>
      cases hstep
      exact h.respond response
  | deliver n response =>
      dsimp only at hstep
      split at hstep
      · rename_i hmem
        cases hstep
        exact h.deliver hmem
      · cases hstep

/-! ## Whole runs -/

/-- What has arrived for the `n`th call. -/
def State.slot (s : State) (n : Nat) : List JsonRpcResponse :=
  ((s.calls[n]?).bind Call.slot).toList

theorem slot_set (hc : s.calls[n]? = some c) (c' : Call) (hslot : c'.slot = c.slot) (m : Nat) :
    ((s.calls.set n c')[m]?).bind Call.slot = (s.calls[m]?).bind Call.slot := by
  rw [List.getElem?_set]
  split
  · rename_i hm
    subst hm
    rw [if_pos (List.getElem?_eq_some_iff.mp hc).1, hc]
    exact hslot
  · rfl

/-- **Step lemma**: a channel changes when something is sent on it, and is empty
before. -/
theorem slot_step {a : Label} (h : s.Sound) (hstep : Step s a t) (m : Nat) :
    t.slot m = s.slot m ++ s.takes m a := by
  unfold Step step at hstep
  unfold State.slot
  cases a with
  | call uuid request =>
      dsimp only at hstep
      split at hstep
      · cases hstep
        unfold State.takes
        rw [List.append_nil]
        rcases Nat.lt_trichotomy m s.calls.length with hm | hm | hm
        · rw [List.getElem?_append_left hm]
        · rw [hm, List.getElem?_concat_length, List.getElem?_eq_none (Nat.le_refl _)]
          rfl
        · rw [List.getElem?_eq_none (Nat.le_of_lt hm), List.getElem?_eq_none]
          rw [List.length_append, List.length_singleton]
          omega
      · cases hstep
  | act n a =>
      obtain ⟨c, hc, hstep⟩ := Option.bind_eq_some_iff.mp hstep
      obtain ⟨c', hact, hstep⟩ := Option.bind_eq_some_iff.mp hstep
      cases hstep
      unfold State.takes
      rw [slot_set hc c' (Call.act_spec hact).2.1, List.append_nil]
  | lost n =>
      obtain ⟨c, hc, hstep⟩ := Option.bind_eq_some_iff.mp hstep
      split at hstep
      · cases hstep
        unfold State.takes
        rw [slot_set hc (c.endWith _) rfl, List.append_nil]
      · cases hstep
  | release n =>
      dsimp only at hstep
      split at hstep
      · rename_i request e slot hc
        cases hstep
        unfold State.takes
        rw [slot_set hc ⟨request, .returned e, slot⟩ rfl, List.append_nil]
      · cases hstep
  | respond response =>
      cases hstep
      exact (List.append_nil _).symm
  | deliver n response =>
      dsimp only at hstep
      split at hstep
      · rename_i hmem
        cases hstep
        obtain ⟨c, hc, -⟩ := h.inHand _ hmem
        show ((s.calls.modify n (Call.accept response))[m]?.bind Call.slot).toList =
          _ ++ if _ then _ else _
        rw [List.getElem?_modify]
        by_cases hm : n = m
        · subst hm
          have hempty : c.slot = none := by
            rcases hslot : c.slot with _ | r
            · rfl
            · exact absurd (List.mem_map_of_mem hmem) (h.filled n c r hc hslot).2.2
          rw [hc]
          by_cases hopen : c.isOpen = true
          · simp [Call.accept, hopen, hempty]
          · simp [Call.accept, hopen, hempty]
        · simp [hm]
      · cases hstep

theorem slot_run {tr : List (Label × State)} (h : s.Sound) (hrun : Run Step s tr) (n : Nat) :
    (final s tr).slot n = s.slot n ++ (steps s tr).flatMap fun x => x.1.takes n x.2.1 := by
  induction tr generalizing s with
  | nil => exact (List.append_nil _).symm
  | cons x tr ih =>
      obtain ⟨a, t⟩ := x
      obtain ⟨hstep, hrun⟩ := run_cons.mp hrun
      rw [steps_cons, List.flatMap_cons, ← List.append_assoc, ← slot_step h hstep n]
      exact ih (sound_step h hstep) hrun

theorem sound_run {tr : List (Label × State)} (hrun : Run Step initial tr) :
    ∀ s ∈ states initial tr, s.Sound :=
  invariant_of_steps sound_initial fun x hx h => sound_step h (hrun x hx)

/-- **Requests of the server are answered by their own responses**: in every
interleaving the map holds only the ids of calls that wait; a call receives one
response at most, with the id of its own request, and what it is answered with is
that; and a response that matches no waiting call changes nothing. -/
theorem requests_answered {tr : List (Label × State)} (hrun : Run Step initial tr) :
    (∀ s ∈ states initial tr, ∀ id n, s.pending.map.get id = some n → s.Awaits n id) ∧
    (∀ n, (received n tr).length ≤ 1 ∧ ∀ r ∈ received n tr,
      ∃ c, (final initial tr).calls[n]? = some c ∧ r.id = c.request.id) ∧
    (∀ n c r, (final initial tr).calls[n]? = some c →
      c.phase = .ending (.answered r) ∨ c.phase = .returned (.answered r) → r ∈ received n tr) ∧
    ∀ x ∈ steps initial tr, ∀ r, x.2.1 = .respond r → (∀ n, ¬ x.1.Awaits n r.id) →
      x.2.2 = x.1 := by
  have hend := sound_run hrun _ (final_mem_states initial tr)
  have hreceived (n : Nat) : received n tr = (final initial tr).slot n :=
    (slot_run sound_initial hrun n).symm
  refine ⟨fun s hs => (sound_run hrun s hs).held, fun n => ⟨?_, fun r hr => ?_⟩, ?_, ?_⟩
  · rw [hreceived]
    exact Option.length_toList_le
  · rw [hreceived] at hr
    obtain ⟨c, hc, hslot⟩ := Option.bind_eq_some_iff.mp (Option.mem_toList.mp hr)
    exact ⟨c, hc, (hend.filled n c r hc hslot).1⟩
  · intro n c r hc hr
    rw [hreceived]
    exact Option.mem_toList.mpr (Option.bind_eq_some_iff.mpr ⟨c, hc, hend.answered n c r hc hr⟩)
  · rintro ⟨s, a, t⟩ hx r rfl hnone
    have hstep : Step s (.respond r) t := hrun _ hx
    have hsound := sound_run hrun s (source_mem_states hx)
    have habsent : s.pending.map.get r.id = none := by
      rcases hget : s.pending.map.get r.id with _ | n
      · rfl
      · exact absurd (hsound.held r.id n hget) (hnone n)
    cases hstep
    show State.mk ⟨s.pending.map.remove r.id⟩ s.calls
      (s.delivering ++ ((s.pending.map.get r.id).map fun n => (n, r)).toList) = s
    rw [habsent, Dict.remove_of_absent habsent, Option.map_none, Option.toList_none,
      List.append_nil]

/-! ## A forged id, and a duplicate -/

def act (s : State) (a : Label) : State := (step s a).getD s

/-- A client answers under an id it made up, then the call's own id, twice. -/
def answeredTwice : List Label :=
  let answer (id : String) : JsonRpcResponse := .success (.string id) (.object [])
  [.call "1" (.object [("method", .string "roots/list")]), .act 0 .sent,
    .respond (answer "srv-2"), .respond (answer "srv-1"), .respond (answer "srv-1"),
    .deliver 0 (answer "srv-1"), .act 0 .receive, .release 0]

theorem requests_answered_twice :
    (received 0 (trace act initial answeredTwice)).length ≤ 1 ∧
      JsonRpcResponse.success (.string "srv-1") (.object []) ∈
        received 0 (trace act initial answeredTwice) := by
  have hchecked : checked act (fun s a => (step s a).isSome) initial answeredTwice = true := by
    decide +kernel
  have hrun : Run Step initial (trace act initial answeredTwice) := by
    refine run_trace_of_checked (fun s a hsome => ?_) hchecked
    obtain ⟨t, ht⟩ := Option.isSome_iff_exists.mp hsome
    show step s a = some ((step s a).getD s)
    rw [ht, Option.getD_some]
  obtain ⟨-, honce, hanswered, -⟩ := requests_answered hrun
  refine ⟨(honce 0).1, hanswered 0 ⟨bidiRequest "1" (.object [("method", .string "roots/list")]),
    .returned (.answered (.success (.string "srv-1") (.object []))),
    some (.success (.string "srv-1") (.object []))⟩ _ ?_ (Or.inr rfl)⟩
  decide +kernel

end Bidi

end TurboMcp.Server
