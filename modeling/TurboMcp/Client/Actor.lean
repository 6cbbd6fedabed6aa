import TurboMcp.Core.JsonRpc

/-!
# The connection actor

The client's mirror of the driver loop: one task owns the transport, takes what
callers and handlers submit, and routes what the server sends.  A send runs in
the body of the arm that took the message, so nothing is read meanwhile.
-/

namespace TurboMcp.Client.Actor

open TurboMcp.Core

/-- Capacity of the outbound channel. -/
def outboundCapacity : Nat := 1024

inductive Pc
  | select
  /-- Nothing to send; the frame is awaited. -/
  | polledOutbound
  | sending (msg : JsonRpcMessage)
  | closed
  deriving DecidableEq

structure State where
  pc : Pc
  queue : List JsonRpcMessage

def State.initial : State := { pc := .select, queue := [] }

inductive Label
  | pollOutbound
  | wake
  | frame (msg : JsonRpcMessage)
  | sent
  | sendFailed
  /-- A caller or a handler submits a message. -/
  | submit (msg : JsonRpcMessage)
  /-- The last handle is dropped, or the stream ends or fails. -/
  | close

/-- What `route_inbound` has the actor write itself: the refusal of a request
nobody handles. -/
def inlineReply (handled : Bool) : JsonRpcMessage → Option JsonRpcMessage
  | .request req =>
      if handled then none
      else some (.response (.failure req.id
        { code := -32601, message := "method not found: " ++ req.method, data := none }))
  | _ => none

/-- One step of the actor; `handled` says whether it has a client handler. -/
def step (handled : Bool) (s : State) : Label → Option State
  | .pollOutbound =>
      match s.pc, s.queue with
      | .select, msg :: queue => some { pc := .sending msg, queue }
      | .select, [] => some { s with pc := .polledOutbound }
      | _, _ => none
  | .wake =>
      match s.pc with
      | .polledOutbound => some { s with pc := .select }
      | _ => none
  | .frame msg =>
      match s.pc with
      | .polledOutbound =>
          match inlineReply handled msg with
          | some reply => some { s with pc := .sending reply }
          | none => some { s with pc := .select }
      | _ => none
  | .sent =>
      match s.pc with
      | .sending _ => some { s with pc := .select }
      | _ => none
  | .sendFailed =>
      match s.pc with
      | .sending _ => some { s with pc := .closed }
      | _ => none
  | .submit msg =>
      if s.pc ≠ .closed ∧ s.queue.length < outboundCapacity then
        some { s with queue := s.queue ++ [msg] }
      else none
  | .close =>
      match s.pc with
      | .select | .polledOutbound => some { s with pc := .closed }
      | _ => none

/-! ## What a step does -/

inductive Move (handled : Bool) (s : State) : Label → State → Prop
  | take {msg : JsonRpcMessage} {queue : List JsonRpcMessage} (hpc : s.pc = .select)
      (hqueue : s.queue = msg :: queue) : Move handled s .pollOutbound { pc := .sending msg, queue }
  | outboundEmpty (hpc : s.pc = .select) (hqueue : s.queue = []) :
      Move handled s .pollOutbound { s with pc := .polledOutbound }
  | wake (hpc : s.pc = .polledOutbound) : Move handled s .wake { s with pc := .select }
  | refused {msg reply : JsonRpcMessage} (hpc : s.pc = .polledOutbound)
      (hreply : inlineReply handled msg = some reply) :
      Move handled s (.frame msg) { s with pc := .sending reply }
  | routed {msg : JsonRpcMessage} (hpc : s.pc = .polledOutbound)
      (hreply : inlineReply handled msg = none) :
      Move handled s (.frame msg) { s with pc := .select }
  | sent {msg : JsonRpcMessage} (hpc : s.pc = .sending msg) :
      Move handled s .sent { s with pc := .select }
  | sendFailed {msg : JsonRpcMessage} (hpc : s.pc = .sending msg) :
      Move handled s .sendFailed { s with pc := .closed }
  | submitted {msg : JsonRpcMessage} :
      Move handled s (.submit msg) { s with queue := s.queue ++ [msg] }
  | close (hpc : s.pc = .select ∨ s.pc = .polledOutbound) :
      Move handled s .close { s with pc := .closed }

/-- **Inversion**: a step is one of the moves. -/
theorem move_of_step {handled : Bool} {s t : State} {a : Label} (h : step handled s a = some t) :
    Move handled s a t := by
  cases a with
  | pollOutbound =>
      simp only [step] at h
      split at h
      · cases h
        exact .take ‹_› ‹_›
      · cases h
        exact .outboundEmpty ‹_› ‹_›
      · cases h
  | wake =>
      simp only [step] at h
      split at h
      · cases h
        exact .wake ‹_›
      · cases h
  | frame msg =>
      simp only [step] at h
      split at h
      · split at h
        · cases h
          exact .refused ‹_› ‹_›
        · cases h
          exact .routed ‹_› ‹_›
      · cases h
  | sent =>
      simp only [step] at h
      split at h
      · cases h
        exact .sent ‹_›
      · cases h
  | sendFailed =>
      simp only [step] at h
      split at h
      · cases h
        exact .sendFailed ‹_›
      · cases h
  | submit msg =>
      simp only [step] at h
      split at h
      · cases h
        exact .submitted
      · cases h
  | close =>
      simp only [step] at h
      split at h
      · cases h
        exact .close (.inl ‹_›)
      · cases h
        exact .close (.inr ‹_›)
      · cases h

end TurboMcp.Client.Actor
