import TurboMcp.Client.Actor
import TurboMcp.Core.Printed
import TurboMcp.Service.Driver

/-!
# Two peers over two pipes

A server's driver and a client's actor, each the only reader of one bounded byte
pipe and the only writer of the other.  Neither reads while it writes.  Both are
parked in a send at once, and for good, as soon as a driver takes up a message
that overfills its pipe while the other is inside a send that overfills its own;
and never before.
-/

namespace TurboMcp.System

open TurboMcp.Core TurboMcp.Lib TurboMcp.Service TurboMcp.Client

/-! ## One direction -/

/-- The bytes of one direction: in the pipe, still to be written of the message
in hand, and read without a frame made of them. -/
structure Flow where
  inPipe : Nat
  left : Nat
  buffered : Nat
  deriving DecidableEq

namespace Flow

def initial : Flow := ⟨0, 0, 0⟩

/-- `write_all` gets `n` bytes into the pipe. -/
def write (capacity n : Nat) (f : Flow) : Option Flow :=
  if 0 < n ∧ n ≤ f.left ∧ f.inPipe + n ≤ capacity then
    some { f with inPipe := f.inPipe + n, left := f.left - n }
  else none

/-- The peer's `recv` takes `n` bytes out of the pipe. -/
def take (n : Nat) (f : Flow) : Option Flow :=
  if 0 < n ∧ n ≤ f.inPipe then
    some { f with inPipe := f.inPipe - n, buffered := f.buffered + n }
  else none

/-- `recv` makes a frame of `n` bytes: its line, and blank lines and lines given
up with an earlier `recv` before it. -/
def consume (n : Nat) (f : Flow) : Option Flow :=
  if 0 < n ∧ n ≤ f.buffered then some { f with buffered := f.buffered - n } else none

/-- The writer had a message of the one size in hand, and has one of the other. -/
def turn (f : Flow) : Option Nat → Option Nat → Flow
  | none, some size => { f with left := size }
  | some _, none => { f with left := 0 }
  | _, _ => f

/-- What the pipe holds once the send in hand is through, if nobody reads. -/
def load (f : Flow) : Nat := f.inPipe + f.left

/-- A send that waits for room in a full pipe. -/
def blocked (capacity : Nat) (f : Flow) : Prop := 0 < f.left ∧ f.inPipe = capacity

@[simp] theorem turn_self (f : Flow) (hand : Option Nat) : f.turn hand hand = f := by
  cases hand <;> rfl

theorem write_eq_some {capacity n : Nat} {f g : Flow} (h : f.write capacity n = some g) :
    (0 < n ∧ n ≤ f.left ∧ f.inPipe + n ≤ capacity) ∧
      g = { f with inPipe := f.inPipe + n, left := f.left - n } := by
  unfold write at h
  split at h
  · cases h
    exact ⟨‹_›, rfl⟩
  · cases h

theorem take_eq_some {n : Nat} {f g : Flow} (h : f.take n = some g) :
    (0 < n ∧ n ≤ f.inPipe) ∧
      g = { f with inPipe := f.inPipe - n, buffered := f.buffered + n } := by
  unfold take at h
  split at h
  · cases h
    exact ⟨‹_›, rfl⟩
  · cases h

theorem consume_eq_some {n : Nat} {f g : Flow} (h : f.consume n = some g) :
    (0 < n ∧ n ≤ f.buffered) ∧ g = { f with buffered := f.buffered - n } := by
  unfold consume at h
  split at h
  · cases h
    exact ⟨‹_›, rfl⟩
  · cases h

theorem load_of_blocked {capacity : Nat} {f : Flow} (h : f.blocked capacity) :
    capacity < f.load := by
  obtain ⟨hleft, hfull⟩ := h
  unfold load
  omega

/-- A send that overfills its pipe is blocked once the room there is is used. -/
theorem fill {capacity : Nat} {f : Flow} (hle : f.inPipe ≤ capacity) (hload : capacity < f.load) :
    f.blocked capacity ∨ ∃ n g, f.write capacity n = some g ∧ g.blocked capacity := by
  unfold load at hload
  rcases Nat.eq_or_lt_of_le hle with hfull | hroom
  · exact .inl ⟨by omega, hfull⟩
  · have hn : 0 < capacity - f.inPipe ∧ capacity - f.inPipe ≤ f.left ∧
        f.inPipe + (capacity - f.inPipe) ≤ capacity := by
      omega
    refine .inr ⟨capacity - f.inPipe, _, if_pos hn, ?_, ?_⟩
    · show 0 < f.left - (capacity - f.inPipe)
      omega
    · show f.inPipe + (capacity - f.inPipe) = capacity
      omega

end Flow

/-! ## The two drivers -/

/-- The codec and the pipes; a frame goes out with its newline. -/
structure Wiring where
  encodedLength : JsonRpcMessage → Nat
  capacityToClient : Nat
  capacityToServer : Nat
  toClient_pos : 0 < capacityToClient
  toServer_pos : 0 < capacityToServer
  /-- Whether the client has a handler for the server's requests. -/
  handled : Bool

def Wiring.size (w : Wiring) (msg : JsonRpcMessage) : Nat := w.encodedLength msg + 1

/-- A `recv` pends once it found its pipe empty, until something wakes its
driver. -/
structure Peers (E F : Type) where
  server : State E F
  client : Actor.State
  toClient : Flow
  toServer : Flow
  serverPends : Bool
  clientPends : Bool

def Peers.initial {E F : Type} : Peers E F :=
  { server := State.initial, client := Actor.State.initial, toClient := Flow.initial,
    toServer := Flow.initial, serverPends := false, clientPends := false }

section

variable {E C F : Type} [DecidableEq E] (w : Wiring)

/-- The size of the message the server's driver is sending. -/
def serverHand (s : State E F) : Option Nat :=
  match s.pc with
  | .sending out => some (w.size out.message)
  | _ => none

def clientHand (s : Actor.State) : Option Nat :=
  match s.pc with
  | .sending msg => some (w.size msg)
  | _ => none

namespace Peers

def withServer (s : Peers E F) (server : State E F) : Peers E F :=
  { s with
    server
    toClient := s.toClient.turn (serverHand w s.server) (serverHand w server)
    serverPends := s.serverPends && decide (server.pc = .polledShutdown) }

def withClient (s : Peers E F) (client : Actor.State) : Peers E F :=
  { s with
    client
    toServer := s.toServer.turn (clientHand w s.client) (clientHand w client)
    clientPends := s.clientPends && decide (client.pc = .polledOutbound) }

end Peers

inductive Label (E C : Type)
  | server (a : Service.Label E C)
  | client (a : Actor.Label)
  /-- The server's send gets `n` bytes into the pipe. -/
  | serverWrite (n : Nat)
  | clientWrite (n : Nat)
  /-- The server's `recv` takes `n` bytes. -/
  | serverRead (n : Nat)
  | clientRead (n : Nat)
  /-- It finds the pipe empty. -/
  | serverPend
  | clientPend
  /-- It returns a frame made of `n` of the bytes it took. -/
  | serverFrame (n : Nat) (msg : JsonRpcMessage)
  | clientFrame (n : Nat) (msg : JsonRpcMessage)

/-- A send ends once all is written, or fails once the peer is gone. -/
def serverMay (s : Peers E F) : Service.Label E C → Bool
  | .sent => s.toClient.left = 0
  | .sendFailed => s.client.pc = .closed
  | .frame _ => false
  | .wake => s.serverPends
  | _ => true

def clientMay (s : Peers E F) : Actor.Label → Bool
  | .sent => s.toServer.left = 0
  | .sendFailed => s.server.phase = .closed
  | .frame _ => false
  | .wake => s.clientPends
  | _ => true

variable (svc : McpService E C F) (connection : String) (config : ServeConfig)

/-- One step of the composed system. -/
def step (s : Peers E F) : Label E C → Option (Peers E F)
  | .server a =>
      if serverMay s a then
        (Service.step svc connection config s.server a).map (s.withServer w)
      else none
  | .client a =>
      if clientMay s a then (Actor.step w.handled s.client a).map (s.withClient w) else none
  | .serverWrite n =>
      (s.toClient.write w.capacityToClient n).map fun toClient => { s with toClient }
  | .clientWrite n =>
      (s.toServer.write w.capacityToServer n).map fun toServer => { s with toServer }
  | .serverRead n =>
      if s.server.pc = .polledShutdown ∧ s.serverPends = false then
        (s.toServer.take n).map fun toServer => { s with toServer }
      else none
  | .clientRead n =>
      if s.client.pc = .polledOutbound ∧ s.clientPends = false then
        (s.toClient.take n).map fun toClient => { s with toClient }
      else none
  | .serverPend =>
      if s.server.pc = .polledShutdown ∧ s.toServer.inPipe = 0 then
        some { s with serverPends := true }
      else none
  | .clientPend =>
      if s.client.pc = .polledOutbound ∧ s.toClient.inPipe = 0 then
        some { s with clientPends := true }
      else none
  | .serverFrame n msg =>
      if s.serverPends = false then
        (s.toServer.consume n).bind fun toServer =>
          (Service.step svc connection config s.server (.frame msg)).map fun server =>
            { s with toServer }.withServer w server
      else none
  | .clientFrame n msg =>
      if s.clientPends = false then
        (s.toClient.consume n).bind fun toClient =>
          (Actor.step w.handled s.client (.frame msg)).map fun client =>
            { s with toClient }.withClient w client
      else none

def Step (s : Peers E F) (a : Label E C) (t : Peers E F) : Prop :=
  step w svc connection config s a = some t

/-! ## What a step does -/

inductive Move (s : Peers E F) : Label E C → Peers E F → Prop
  | server {a : Service.Label E C} {server : State E F} (hmay : serverMay s a = true)
      (hmove : Service.Move svc connection config s.server a server) :
      Move s (.server a) (s.withServer w server)
  | client {a : Actor.Label} {client : Actor.State} (hmay : clientMay s a = true)
      (hmove : Actor.Move w.handled s.client a client) :
      Move s (.client a) (s.withClient w client)
  | serverWrite {n : Nat}
      (hn : 0 < n ∧ n ≤ s.toClient.left ∧ s.toClient.inPipe + n ≤ w.capacityToClient) :
      Move s (.serverWrite n)
        { s with toClient :=
            { s.toClient with inPipe := s.toClient.inPipe + n, left := s.toClient.left - n } }
  | clientWrite {n : Nat}
      (hn : 0 < n ∧ n ≤ s.toServer.left ∧ s.toServer.inPipe + n ≤ w.capacityToServer) :
      Move s (.clientWrite n)
        { s with toServer :=
            { s.toServer with inPipe := s.toServer.inPipe + n, left := s.toServer.left - n } }
  | serverRead {n : Nat} (hpc : s.server.pc = .polledShutdown)
      (hn : 0 < n ∧ n ≤ s.toServer.inPipe) :
      Move s (.serverRead n)
        { s with toServer :=
            { s.toServer with
              inPipe := s.toServer.inPipe - n, buffered := s.toServer.buffered + n } }
  | clientRead {n : Nat} (hpc : s.client.pc = .polledOutbound)
      (hn : 0 < n ∧ n ≤ s.toClient.inPipe) :
      Move s (.clientRead n)
        { s with toClient :=
            { s.toClient with
              inPipe := s.toClient.inPipe - n, buffered := s.toClient.buffered + n } }
  | serverPend (hpc : s.server.pc = .polledShutdown) (hempty : s.toServer.inPipe = 0) :
      Move s .serverPend { s with serverPends := true }
  | clientPend (hpc : s.client.pc = .polledOutbound) (hempty : s.toClient.inPipe = 0) :
      Move s .clientPend { s with clientPends := true }
  | serverFrame {n : Nat} {msg : JsonRpcMessage} {server : State E F}
      (hpends : s.serverPends = false) (hn : 0 < n ∧ n ≤ s.toServer.buffered)
      (hmove : Service.Move svc connection config s.server (.frame msg) server) :
      Move s (.serverFrame n msg)
        ({ s with toServer := { s.toServer with buffered := s.toServer.buffered - n } }.withServer w
          server)
  | clientFrame {n : Nat} {msg : JsonRpcMessage} {client : Actor.State}
      (hpends : s.clientPends = false) (hn : 0 < n ∧ n ≤ s.toClient.buffered)
      (hmove : Actor.Move w.handled s.client (.frame msg) client) :
      Move s (.clientFrame n msg)
        ({ s with toClient := { s.toClient with buffered := s.toClient.buffered - n } }.withClient w
          client)

variable {w svc connection config}

/-- **Inversion**: a step is one of the moves. -/
theorem Step.move {s t : Peers E F} {a : Label E C} (h : Step w svc connection config s a t) :
    Move w svc connection config s a t := by
  unfold Step step at h
  cases a with
  | server a =>
      simp only at h
      split at h
      · obtain ⟨server, hserver, rfl⟩ := Option.map_eq_some_iff.mp h
        exact .server ‹_› (Service.Step.move hserver)
      · cases h
  | client a =>
      simp only at h
      split at h
      · obtain ⟨client, hclient, rfl⟩ := Option.map_eq_some_iff.mp h
        exact .client ‹_› (Actor.move_of_step hclient)
      · cases h
  | serverWrite n =>
      obtain ⟨flow, hflow, rfl⟩ := Option.map_eq_some_iff.mp h
      obtain ⟨hn, rfl⟩ := Flow.write_eq_some hflow
      exact .serverWrite hn
  | clientWrite n =>
      obtain ⟨flow, hflow, rfl⟩ := Option.map_eq_some_iff.mp h
      obtain ⟨hn, rfl⟩ := Flow.write_eq_some hflow
      exact .clientWrite hn
  | serverRead n =>
      simp only at h
      split at h
      · rename_i hpolled
        obtain ⟨flow, hflow, rfl⟩ := Option.map_eq_some_iff.mp h
        obtain ⟨hn, rfl⟩ := Flow.take_eq_some hflow
        exact .serverRead hpolled.1 hn
      · cases h
  | clientRead n =>
      simp only at h
      split at h
      · rename_i hpolled
        obtain ⟨flow, hflow, rfl⟩ := Option.map_eq_some_iff.mp h
        obtain ⟨hn, rfl⟩ := Flow.take_eq_some hflow
        exact .clientRead hpolled.1 hn
      · cases h
  | serverPend =>
      simp only at h
      split at h
      · rename_i hpolled
        cases h
        exact .serverPend hpolled.1 hpolled.2
      · cases h
  | clientPend =>
      simp only at h
      split at h
      · rename_i hpolled
        cases h
        exact .clientPend hpolled.1 hpolled.2
      · cases h
  | serverFrame n msg =>
      simp only at h
      split at h
      · obtain ⟨flow, hflow, h⟩ := Option.bind_eq_some_iff.mp h
        obtain ⟨hn, rfl⟩ := Flow.consume_eq_some hflow
        obtain ⟨server, hserver, rfl⟩ := Option.map_eq_some_iff.mp h
        exact .serverFrame ‹_› hn (Service.Step.move hserver)
      · cases h
  | clientFrame n msg =>
      simp only at h
      split at h
      · obtain ⟨flow, hflow, h⟩ := Option.bind_eq_some_iff.mp h
        obtain ⟨hn, rfl⟩ := Flow.consume_eq_some hflow
        obtain ⟨client, hclient, rfl⟩ := Option.map_eq_some_iff.mp h
        exact .clientFrame ‹_› hn (Actor.move_of_step hclient)
      · cases h

/-! ## Turns -/

/-- The message the server's driver takes up, if the step takes one up. -/
def serverTakes (s : State E F) : Service.Label E C → Option Outgoing
  | .pollOutbound => s.queue.head?
  | _ => none

def clientTakes (handled : Bool) (s : Actor.State) : Actor.Label → Option JsonRpcMessage
  | .pollOutbound => s.queue.head?
  | .frame msg => Actor.inlineReply handled msg
  | _ => none

omit [DecidableEq E] in
theorem pollTask_keeps (s : State E F) (i : Nat) (t : Task E F) (f : F) (p : Poll E F) :
    (pollTask s i t f p).phase = s.phase ∧ (pollTask s i t f p).pc = s.pc := by
  rcases p with _ | _ | _ | _ | out
  iterate 4 exact ⟨rfl, rfl⟩
  rcases out with _ | _ | _ <;> exact ⟨rfl, rfl⟩

/-- A driver takes a message up, is through with one, or has what it had. -/
inductive Turns (size : Option Nat) : Option Nat → Option Nat → Prop
  | takes {n : Nat} (hsize : size = some n) : Turns size none (some n)
  | ends {n : Nat} (hsize : size = none) : Turns size (some n) none
  | same {hand : Option Nat} (hsize : size = none) : Turns size hand hand

omit [DecidableEq E] in
theorem server_turns {s t : State E F} {a : Service.Label E C}
    (h : Service.Move svc connection config s a t) :
    Turns ((serverTakes s a).map (w.size ·.message)) (serverHand w s) (serverHand w t) := by
  have same {t : State E F} {a : Service.Label E C} (htakes : serverTakes s a = none)
      (hhand : serverHand w t = serverHand w s) :
      Turns ((serverTakes s a).map (w.size ·.message)) (serverHand w s) (serverHand w t) := by
    rw [hhand, htakes]
    exact .same rfl
  cases h with
  | take hpc hqueue _ =>
      simp only [serverHand, hpc, serverTakes, hqueue, List.head?_cons]
      exact .takes rfl
  | outboundEmpty hpc hqueue _ =>
      exact same (by rw [serverTakes, hqueue, List.head?_nil]) (by simp [serverHand, hpc])
  | shutdownSeen hpc => exact same rfl (by simp [serverHand, hpc])
  | shutdownUnseen hpc => exact same rfl (by simp [serverHand, hpc])
  | wake hpc => exact same rfl (by simp [serverHand, hpc])
  | frame hpc => exact same rfl (by simp [serverHand, hpc])
  | recvEnd hpc => exact same rfl (by simp [serverHand, hpc])
  | sent hpc =>
      simp only [serverHand, hpc]
      exact .ends rfl
  | sendFailed hpc =>
      simp only [serverHand, hpc]
      exact .ends rfl
  | acquired hpc _ => exact same rfl (by simp [serverHand, hpc])
  | ready hpc => exact same rfl (by simp [serverHand, hpc, spawnTask])
  | notReady hpc => exact same rfl (by simp [serverHand, hpc])
  | @poll i choice u f p _ _ _ =>
      exact same rfl (by simp only [serverHand, (pollTask_keeps s i u f p).2])
  | emitted _ _ _ => exact same rfl rfl
  | woken _ _ => exact same rfl rfl
  | replied _ _ _ => exact same rfl rfl
  | expired _ _ => exact same rfl rfl
  | pushed _ _ => exact same rfl rfl
  | fireShutdown => exact same rfl rfl
  | drained _ _ => exact same rfl rfl
  | deadline _ => exact same rfl rfl
  | abort _ _ => exact same rfl rfl
  | finish _ _ _ => exact same rfl rfl

theorem client_turns {handled : Bool} {s t : Actor.State} {a : Actor.Label}
    (h : Actor.Move handled s a t) :
    Turns ((clientTakes handled s a).map w.size) (clientHand w s) (clientHand w t) := by
  cases h with
  | take hpc hqueue =>
      simp only [clientHand, hpc, clientTakes, hqueue, List.head?_cons]
      exact .takes rfl
  | outboundEmpty hpc hqueue =>
      simp only [clientHand, hpc, clientTakes, hqueue, List.head?_nil]
      exact .same rfl
  | wake hpc =>
      simp only [clientHand, hpc]
      exact .same rfl
  | refused hpc hreply =>
      simp only [clientHand, hpc, clientTakes, hreply]
      exact .takes rfl
  | routed hpc hreply =>
      simp only [clientHand, hpc, clientTakes, hreply]
      exact .same rfl
  | sent hpc =>
      simp only [clientHand, hpc]
      exact .ends rfl
  | sendFailed hpc =>
      simp only [clientHand, hpc]
      exact .ends rfl
  | submitted => exact .same rfl
  | close hpc =>
      rcases hpc with hpc | hpc
      · simp only [clientHand, hpc]
        exact .same rfl
      · simp only [clientHand, hpc]
        exact .same rfl

omit [DecidableEq E] in
/-- A driver in a send is there until the send is over. -/
theorem server_stays {s t : State E F} {a : Service.Label E C} {out : Outgoing}
    (h : Service.Move svc connection config s a t) (hpc : s.pc = .sending out) :
    a = .sent ∨ a = .sendFailed ∨ t.pc = .sending out ∧ t.phase = s.phase := by
  cases h with
  | sent _ => exact .inl rfl
  | sendFailed _ => exact .inr (.inl rfl)
  | @poll i choice u f p _ _ _ =>
      obtain ⟨hphase, hpc'⟩ := pollTask_keeps s i u f p
      exact .inr (.inr ⟨hpc'.trans hpc, hphase⟩)
  | emitted _ _ _ | woken _ _ | replied _ _ _ | expired _ _ | pushed _ _ | fireShutdown
  | abort _ _ => exact .inr (.inr ⟨hpc, rfl⟩)
  | take hpc' _ _ | outboundEmpty hpc' _ _ | shutdownSeen hpc' | shutdownUnseen hpc' | wake hpc'
  | frame hpc' | recvEnd hpc' | acquired hpc' _ | ready hpc' | notReady hpc' | drained _ _ hpc'
  | deadline _ hpc' | finish hpc' _ _ =>
      rw [hpc] at hpc'
      cases hpc'

theorem client_stays {handled : Bool} {s t : Actor.State} {a : Actor.Label} {msg : JsonRpcMessage}
    (h : Actor.Move handled s a t) (hpc : s.pc = .sending msg) :
    a = .sent ∨ a = .sendFailed ∨ t.pc = .sending msg := by
  cases h with
  | sent _ => exact .inl rfl
  | sendFailed _ => exact .inr (.inl rfl)
  | submitted => exact .inr (.inr hpc)
  | close hpc' =>
      rw [hpc] at hpc'
      rcases hpc' with hpc' | hpc' <;> cases hpc'
  | take hpc' _ | outboundEmpty hpc' _ | wake hpc' | refused hpc' _ | routed hpc' _ =>
      rw [hpc] at hpc'
      cases hpc'

/-! ## What holds in every state -/

/-- The server's loop is past its outbound arm. -/
def pastOutbound : Pc → Prop
  | .polledOutbound | .polledShutdown | .acquiring _ | .readying _ => True
  | .select | .sending _ => False

structure Placed (s : State E F) : Prop where
  serving : pastOutbound s.pc → s.phase = .serving
  closed : s.phase = .closed → s.pc = .select

structure Peers.Sound (w : Wiring) (s : Peers E F) : Prop where
  toClient_le : s.toClient.inPipe ≤ w.capacityToClient
  toServer_le : s.toServer.inPipe ≤ w.capacityToServer
  serverIdle : serverHand w s.server = none → s.toClient.left = 0
  clientIdle : clientHand w s.client = none → s.toServer.left = 0
  serverPends : s.serverPends = true → s.server.pc = .polledShutdown
  clientPends : s.clientPends = true → s.client.pc = .polledOutbound
  placed : Placed s.server

omit [DecidableEq E] in
theorem sound_initial : (Peers.initial : Peers E F).Sound w where
  toClient_le := Nat.zero_le _
  toServer_le := Nat.zero_le _
  serverIdle _ := rfl
  clientIdle _ := rfl
  serverPends := nofun
  clientPends := nofun
  placed := ⟨nofun, nofun⟩

theorem Turns.inPipe {size before after : Option Nat} (h : Turns size before after) (f : Flow) :
    (f.turn before after).inPipe = f.inPipe ∧ (f.turn before after).buffered = f.buffered := by
  cases h with
  | takes _ => exact ⟨rfl, rfl⟩
  | ends _ => exact ⟨rfl, rfl⟩
  | same _ => simp

theorem Turns.idle {size before after : Option Nat} (h : Turns size before after) {f : Flow}
    (hidle : before = none → f.left = 0) : after = none → (f.turn before after).left = 0 := by
  intro hafter
  cases h with
  | takes _ => cases hafter
  | ends _ => rfl
  | same _ =>
      rw [Flow.turn_self]
      exact hidle hafter

/-- What a turn loads the pipe with. -/
theorem Turns.load {size before after : Option Nat} (h : Turns size before after) {f : Flow}
    (hidle : before = none → f.left = 0) :
    (∃ n, size = some n ∧ (f.turn before after).load = f.inPipe + n) ∨
      size = none ∧ (f.turn before after).load ≤ f.load := by
  cases h with
  | @takes n hsize => exact .inl ⟨n, hsize, rfl⟩
  | ends hsize => exact .inr ⟨hsize, Nat.add_le_add_left (Nat.zero_le _) _⟩
  | same hsize =>
      rw [Flow.turn_self]
      exact .inr ⟨hsize, Nat.le_refl _⟩

omit [DecidableEq E] in
theorem Placed.move {s t : State E F} {a : Service.Label E C} (h : Placed s)
    (hmove : Service.Move svc connection config s a t) : Placed t := by
  -- past the outbound arm the loop is serving
  have past {pc : Pc} (hpc : s.pc = pc) (hpast : pastOutbound pc) : s.phase = .serving :=
    h.serving (hpc ▸ hpast)
  have going {pc : Pc} {t : State E F} (hpc : s.pc = pc) (hpast : pastOutbound pc)
      (hphase : t.phase = s.phase) : Placed t := by
    have hserving : t.phase = .serving := hphase.trans (past hpc hpast)
    exact ⟨fun _ => hserving, fun hclosed => by rw [hserving] at hclosed; cases hclosed⟩
  have selects {t : State E F} (hpc : t.pc = .select) : Placed t :=
    ⟨fun hpast => by rw [hpc] at hpast; exact hpast.elim, fun _ => hpc⟩
  cases hmove with
  | take _ _ hphase => exact ⟨nofun, fun hclosed => absurd hclosed hphase⟩
  | outboundEmpty _ _ hphase =>
      exact ⟨fun _ => hphase, fun hclosed => by rw [hphase] at hclosed; cases hclosed⟩
  | shutdownUnseen hpc => exact going hpc trivial rfl
  | frame hpc => exact going hpc trivial rfl
  | acquired hpc _ => exact going hpc trivial rfl
  | shutdownSeen _ | wake _ | recvEnd _ | sent _ | sendFailed _ | ready _ | notReady _ =>
      exact selects rfl
  | drained _ _ hpc | deadline _ hpc | finish hpc _ _ => exact selects hpc
  | @poll i choice u f p _ _ _ =>
      obtain ⟨hphase, hpc⟩ := pollTask_keeps s i u f p
      constructor
      · rw [hphase, hpc]
        exact h.serving
      · rw [hphase, hpc]
        exact h.closed
  | emitted _ _ _ | woken _ _ | replied _ _ _ | expired _ _ | pushed _ _ | fireShutdown
  | abort _ _ => exact ⟨h.serving, h.closed⟩

omit [DecidableEq E] in
theorem Peers.Sound.withServer {s : Peers E F} {server : State E F} {a : Service.Label E C}
    (h : s.Sound w) (hmove : Service.Move svc connection config s.server a server) :
    (s.withServer w server).Sound w where
  toClient_le := by
    show (s.toClient.turn _ _).inPipe ≤ _
    rw [((server_turns hmove).inPipe s.toClient).1]
    exact h.toClient_le
  toServer_le := h.toServer_le
  serverIdle := (server_turns hmove).idle h.serverIdle
  clientIdle := h.clientIdle
  serverPends hpends := by
    have hpends : (s.serverPends && decide (server.pc = .polledShutdown)) = true := hpends
    rw [Bool.and_eq_true, decide_eq_true_eq] at hpends
    exact hpends.2
  clientPends := h.clientPends
  placed := h.placed.move hmove

omit [DecidableEq E] in
theorem Peers.Sound.withClient {s : Peers E F} {client : Actor.State} {a : Actor.Label}
    (h : s.Sound w) (hmove : Actor.Move w.handled s.client a client) :
    (s.withClient w client).Sound w where
  toClient_le := h.toClient_le
  toServer_le := by
    show (s.toServer.turn _ _).inPipe ≤ _
    rw [((client_turns hmove).inPipe s.toServer).1]
    exact h.toServer_le
  serverIdle := h.serverIdle
  clientIdle := (client_turns hmove).idle h.clientIdle
  serverPends := h.serverPends
  clientPends hpends := by
    have hpends : (s.clientPends && decide (client.pc = .polledOutbound)) = true := hpends
    rw [Bool.and_eq_true, decide_eq_true_eq] at hpends
    exact hpends.2
  placed := h.placed

omit [DecidableEq E] in
theorem Peers.Sound.move {s t : Peers E F} {a : Label E C} (h : s.Sound w)
    (hmove : Move w svc connection config s a t) : t.Sound w := by
  cases hmove with
  | server _ hmove => exact h.withServer hmove
  | client _ hmove => exact h.withClient hmove
  | serverWrite hn =>
      exact { h with
        toClient_le := hn.2.2
        serverIdle := fun hidle => by
          have hleft := h.serverIdle hidle
          omega }
  | clientWrite hn =>
      exact { h with
        toServer_le := hn.2.2
        clientIdle := fun hidle => by
          have hleft := h.clientIdle hidle
          omega }
  | serverRead _ _ => exact { h with toServer_le := Nat.le_trans (Nat.sub_le _ _) h.toServer_le }
  | clientRead _ _ => exact { h with toClient_le := Nat.le_trans (Nat.sub_le _ _) h.toClient_le }
  | serverPend hpc _ => exact { h with serverPends := fun _ => hpc }
  | clientPend hpc _ => exact { h with clientPends := fun _ => hpc }
  | @serverFrame n msg server _ _ hmove =>
      have hconsumed : Sound w
          { s with toServer := { s.toServer with buffered := s.toServer.buffered - n } } :=
        { h with }
      exact hconsumed.withServer hmove
  | @clientFrame n msg client _ _ hmove =>
      have hconsumed : Sound w
          { s with toClient := { s.toClient with buffered := s.toClient.buffered - n } } :=
        { h with }
      exact hconsumed.withClient hmove

/-! ## Both parked -/

namespace Peers

/-- The server's driver waits in a send for the client's to read. -/
def serverParked (w : Wiring) (s : Peers E F) : Prop :=
  (∃ out, s.server.pc = .sending out) ∧ s.toClient.blocked w.capacityToClient ∧
    s.client.pc ≠ .closed

def clientParked (w : Wiring) (s : Peers E F) : Prop :=
  (∃ msg, s.client.pc = .sending msg) ∧ s.toServer.blocked w.capacityToServer ∧
    s.server.phase ≠ .closed

/-- Each driver is inside `transport.send` on a full pipe that only the other
reads. -/
def bothParked (w : Wiring) (s : Peers E F) : Prop := s.serverParked w ∧ s.clientParked w

/-- Each driver is inside a send that its pipe has no room for. -/
def locked (w : Wiring) (s : Peers E F) : Prop :=
  w.capacityToClient < s.toClient.load ∧ w.capacityToServer < s.toServer.load

/-- A step is clear unless it takes up a message that overfills one pipe while the
send in hand overfills the other. -/
def clear (w : Wiring) (s : Peers E F) : Label E C → Prop
  | .server a => ∀ out ∈ serverTakes s.server a,
      s.toClient.inPipe + w.size out.message ≤ w.capacityToClient ∨
        s.toServer.load ≤ w.capacityToServer
  | .client a => ∀ msg ∈ clientTakes w.handled s.client a,
      s.toServer.inPipe + w.size msg ≤ w.capacityToServer ∨ s.toClient.load ≤ w.capacityToClient
  | .clientFrame _ msg => ∀ reply ∈ clientTakes w.handled s.client (.frame msg),
      s.toServer.inPipe + w.size reply ≤ w.capacityToServer ∨ s.toClient.load ≤ w.capacityToClient
  | _ => True

instance decidableClear (w : Wiring) (s : Peers E F) : (a : Label E C) → Decidable (s.clear w a)
  | .server a => inferInstanceAs (Decidable (∀ out ∈ serverTakes s.server a, _ ∨ _))
  | .client a => inferInstanceAs (Decidable (∀ msg ∈ clientTakes w.handled s.client a, _ ∨ _))
  | .clientFrame _ msg =>
      inferInstanceAs (Decidable (∀ reply ∈ clientTakes w.handled s.client (.frame msg), _ ∨ _))
  | .serverWrite _ | .clientWrite _ | .serverRead _ | .clientRead _ | .serverPend | .clientPend
  | .serverFrame _ _ => .isTrue trivial

end Peers

omit [DecidableEq E] in
theorem locked_of_bothParked {s : Peers E F} (h : s.bothParked w) : s.locked w :=
  ⟨Flow.load_of_blocked h.1.2.1, Flow.load_of_blocked h.2.2.1⟩

omit [DecidableEq E] in
/-- Only a turn changes what the pipes are loaded with for the worse. -/
theorem locked_move_iff {s t : Peers E F} {a : Label E C} (h : s.Sound w) (hfree : ¬ s.locked w)
    (hmove : Move w svc connection config s a t) : ¬ t.locked w ↔ s.clear w a := by
  have hclear (hload : t.locked w → s.locked w) : ¬ t.locked w := fun hlocked =>
    hfree (hload hlocked)
  cases hmove with
  | @server a server _ hmove =>
      rcases (server_turns hmove).load h.serverIdle with ⟨n, hsize, hload⟩ | ⟨hsize, hle⟩
      · obtain ⟨out, hout, rfl⟩ := Option.map_eq_some_iff.mp hsize
        have hloaded : (s.withServer w server).toClient.load =
          s.toClient.inPipe + w.size out.message := hload
        have hother : (s.withServer w server).toServer = s.toServer := rfl
        simp only [Peers.clear, Peers.locked, hout, Option.mem_some_iff, forall_eq', hloaded,
          hother]
        omega
      · have hnone := Option.map_eq_none_iff.mp hsize
        refine iff_of_true (hclear fun hlocked => ⟨Nat.lt_of_lt_of_le hlocked.1 hle, hlocked.2⟩) ?_
        simp [Peers.clear, hnone]
  | @client a client _ hmove =>
      rcases (client_turns hmove).load h.clientIdle with ⟨n, hsize, hload⟩ | ⟨hsize, hle⟩
      · obtain ⟨msg, hmsg, rfl⟩ := Option.map_eq_some_iff.mp hsize
        have hloaded : (s.withClient w client).toServer.load =
          s.toServer.inPipe + w.size msg := hload
        have hother : (s.withClient w client).toClient = s.toClient := rfl
        simp only [Peers.clear, Peers.locked, hmsg, Option.mem_some_iff, forall_eq', hloaded,
          hother]
        omega
      · have hnone := Option.map_eq_none_iff.mp hsize
        refine iff_of_true (hclear fun hlocked => ⟨hlocked.1, Nat.lt_of_lt_of_le hlocked.2 hle⟩) ?_
        simp [Peers.clear, hnone]
  | serverWrite hn =>
      refine iff_of_true (hclear fun hlocked => ⟨?_, hlocked.2⟩) trivial
      have hlt := hlocked.1
      simp only [Flow.load] at hlt ⊢
      omega
  | clientWrite hn =>
      refine iff_of_true (hclear fun hlocked => ⟨hlocked.1, ?_⟩) trivial
      have hlt := hlocked.2
      simp only [Flow.load] at hlt ⊢
      omega
  | serverRead _ hn =>
      refine iff_of_true (hclear fun hlocked => ⟨hlocked.1, ?_⟩) trivial
      have hlt := hlocked.2
      simp only [Flow.load] at hlt ⊢
      omega
  | clientRead _ hn =>
      refine iff_of_true (hclear fun hlocked => ⟨?_, hlocked.2⟩) trivial
      have hlt := hlocked.1
      simp only [Flow.load] at hlt ⊢
      omega
  | serverPend _ _ => exact iff_of_true (hclear id) trivial
  | clientPend _ _ => exact iff_of_true (hclear id) trivial
  | @serverFrame n msg server _ _ hmove =>
      refine iff_of_true (hclear fun hlocked => ⟨?_, hlocked.2⟩) trivial
      rcases (server_turns hmove).load h.serverIdle with ⟨n, hsize, hload⟩ | ⟨hsize, hle⟩
      · cases hsize
      · exact Nat.lt_of_lt_of_le hlocked.1 hle
  | @clientFrame n msg client _ _ hmove =>
      rcases (client_turns hmove).load h.clientIdle with ⟨n, hsize, hload⟩ | ⟨hsize, hle⟩
      · obtain ⟨reply, hreply, rfl⟩ := Option.map_eq_some_iff.mp hsize
        simp only [Peers.clear, hreply, Option.mem_some_iff, forall_eq']
        simp only [Peers.locked, Peers.withClient, hload]
        simp only [Flow.load]
        omega
      · have hnone := Option.map_eq_none_iff.mp hsize
        refine iff_of_true (hclear fun hlocked => ⟨hlocked.1, Nat.lt_of_lt_of_le hlocked.2 hle⟩) ?_
        simp [Peers.clear, hnone]

omit [DecidableEq E] in
/-- Both sends that overfill their pipes are under way. -/
theorem Peers.Sound.sending {s : Peers E F} (h : s.Sound w) (hlocked : s.locked w) :
    (∃ out, s.server.pc = .sending out) ∧ ∃ msg, s.client.pc = .sending msg := by
  have htoClient := h.toClient_le
  have htoServer := h.toServer_le
  obtain ⟨hclient, hserver⟩ := hlocked
  simp only [Flow.load] at hclient hserver
  constructor
  · by_contra hnone
    have hleft := h.serverIdle (by unfold serverHand; split <;> simp_all)
    omega
  · by_contra hnone
    have hleft := h.clientIdle (by unfold clientHand; split <;> simp_all)
    omega

omit [DecidableEq E] in
/-- **Neither of two sends that overfill their pipes ever ends.** -/
theorem locked_move {s t : Peers E F} {a : Label E C} (h : s.Sound w) (hlocked : s.locked w)
    (hmove : Move w svc connection config s a t) :
    t.locked w ∧ (t.server.pc = s.server.pc ∧ t.client.pc = s.client.pc) ∧
      s.toClient.inPipe ≤ t.toClient.inPipe ∧ s.toServer.inPipe ≤ t.toServer.inPipe := by
  obtain ⟨⟨out, hout⟩, ⟨msg, hmsg⟩⟩ := h.sending hlocked
  have htoClient := h.toClient_le
  have htoServer := h.toServer_le
  have hclient := hlocked.1
  have hserver := hlocked.2
  simp only [Flow.load] at hclient hserver
  cases hmove with
  | @server a server hmay hmove =>
      rcases server_stays hmove hout with rfl | rfl | ⟨hpc, hphase⟩
      · have hleft : s.toClient.left = 0 := by simpa [serverMay] using hmay
        omega
      · have hclosed : s.client.pc = .closed := by simpa [serverMay] using hmay
        rw [hmsg] at hclosed
        cases hclosed
      · have hhand : serverHand w server = serverHand w s.server := by
          rw [serverHand, serverHand, hpc, hout]
        have hflow : (s.withServer w server).toClient = s.toClient := by
          simp [Peers.withServer, hhand]
        refine ⟨?_, ⟨hpc.trans hout.symm, rfl⟩, Nat.le_of_eq (by rw [hflow]),
          Nat.le_refl _⟩
        rw [Peers.locked, hflow]
        exact hlocked
  | @client a client hmay hmove =>
      rcases client_stays hmove hmsg with rfl | rfl | hpc
      · have hleft : s.toServer.left = 0 := by simpa [clientMay] using hmay
        omega
      · have hclosed := h.placed.closed (by simpa [clientMay] using hmay)
        rw [hout] at hclosed
        cases hclosed
      · have hhand : clientHand w client = clientHand w s.client := by
          rw [clientHand, clientHand, hpc, hmsg]
        have hflow : (s.withClient w client).toServer = s.toServer := by
          simp [Peers.withClient, hhand]
        refine ⟨?_, ⟨rfl, hpc.trans hmsg.symm⟩, Nat.le_refl _,
          Nat.le_of_eq (by rw [hflow])⟩
        rw [Peers.locked, hflow]
        exact hlocked
  | serverWrite hn =>
      refine ⟨⟨?_, hlocked.2⟩, ⟨rfl, rfl⟩, Nat.le_add_right _ _, Nat.le_refl _⟩
      simp only [Flow.load]
      omega
  | clientWrite hn =>
      refine ⟨⟨hlocked.1, ?_⟩, ⟨rfl, rfl⟩, Nat.le_refl _, Nat.le_add_right _ _⟩
      simp only [Flow.load]
      omega
  | serverRead hpc _ | serverPend hpc _ =>
      rw [hout] at hpc
      cases hpc
  | clientRead hpc _ | clientPend hpc _ =>
      rw [hmsg] at hpc
      cases hpc
  | serverFrame _ _ hmove =>
      rcases server_stays hmove hout with h | h | ⟨hpc, hphase⟩
      · cases h
      · cases h
      · cases hmove with
        | frame hpolled =>
            rw [hout] at hpolled
            cases hpolled
  | clientFrame _ _ hmove =>
      cases hmove with
      | refused hpolled _ | routed hpolled _ =>
          rw [hmsg] at hpolled
          cases hpolled

/-! ## Writes alone -/

/-- The step gets bytes of a message in hand into a pipe. -/
def Label.Writes : Label E C → Prop
  | .serverWrite _ | .clientWrite _ => True
  | _ => False

omit [DecidableEq E] in
theorem clear_of_writes (s : Peers E F) {a : Label E C} (ha : a.Writes) : s.clear w a := by
  cases a with
  | serverWrite | clientWrite => trivial
  | server | client | serverRead | clientRead | serverPend | clientPend | serverFrame
  | clientFrame => exact ha.elim

theorem sound_run {s : Peers E F} (h : s.Sound w) {run : List (Label E C × Peers E F)}
    (hrun : Run (Step w svc connection config) s run) : ∀ t ∈ states s run, t.Sound w :=
  hrun.invariant h fun _ _ _ hstep h => h.move hstep.move

/-- Two drivers that are parked at once are parked for good. -/
theorem parked_for_good {s : Peers E F} (h : s.Sound w) (hparked : s.bothParked w)
    {later : List (Label E C × Peers E F)} (hlater : Run (Step w svc connection config) s later) :
    ∀ t ∈ states s later,
      t.bothParked w ∧ t.server.pc = s.server.pc ∧ t.client.pc = s.client.pc := by
  have hlocked := locked_of_bothParked hparked
  obtain ⟨⟨⟨out, hout⟩, ⟨-, hclient⟩, -⟩, ⟨msg, hmsg⟩, ⟨-, hserver⟩, -⟩ := hparked
  have hkept : ∀ t ∈ states s later, (t.Sound w ∧ t.locked w) ∧
      (t.server.pc = s.server.pc ∧ t.client.pc = s.client.pc) ∧
        w.capacityToClient ≤ t.toClient.inPipe ∧ w.capacityToServer ≤ t.toServer.inPipe := by
    refine hlater.invariant ⟨⟨h, hlocked⟩, ⟨rfl, rfl⟩, Nat.le_of_eq hclient.symm,
      Nat.le_of_eq hserver.symm⟩ fun t a u hstep ht => ?_
    obtain ⟨⟨hsound, hlocked⟩, ⟨hpc, hpc'⟩, hle, hle'⟩ := ht
    obtain ⟨hlocked', ⟨hsame, hsame'⟩, hgrows, hgrows'⟩ := locked_move hsound hlocked hstep.move
    exact ⟨⟨hsound.move hstep.move, hlocked'⟩, ⟨hsame.trans hpc, hsame'.trans hpc'⟩,
      Nat.le_trans hle hgrows, Nat.le_trans hle' hgrows'⟩
  intro t ht
  obtain ⟨⟨hsound, hlocked⟩, ⟨hpc, hpc'⟩, hle, hle'⟩ := hkept t ht
  have hfull := Nat.le_antisymm hsound.toClient_le hle
  have hfull' := Nat.le_antisymm hsound.toServer_le hle'
  obtain ⟨hload, hload'⟩ := hlocked
  simp only [Flow.load] at hload hload'
  refine ⟨⟨⟨⟨out, hpc.trans hout⟩, ⟨by omega, hfull⟩, ?_⟩, ⟨msg, hpc'.trans hmsg⟩,
    ⟨by omega, hfull'⟩, ?_⟩, hpc, hpc'⟩
  · rw [hpc', hmsg]
    exact nofun
  · intro hclosed
    have hselect := hsound.placed.closed hclosed
    rw [hpc, hout] at hselect
    cases hselect

theorem not_locked_run_iff {s : Peers E F} (h : s.Sound w) (hfree : ¬ s.locked w)
    {run : List (Label E C × Peers E F)} (hrun : Run (Step w svc connection config) s run) :
    (∀ t ∈ states s run, ¬ t.locked w) ↔ ∀ x ∈ steps s run, x.1.clear w x.2.1 :=
  hrun.forall_states_iff h hfree (fun _ _ _ hstep h => h.move hstep.move)
    fun _ _ _ hstep h hfree => locked_move_iff h hfree hstep.move

section

variable (svc connection config)

/-- The rest of a message goes into its pipe as far as there is room. -/
theorem exists_fill_toClient {s : Peers E F} (h : s.Sound w)
    (hload : w.capacityToClient < s.toClient.load) :
    ∃ run : List (Label E C × Peers E F), Run (Step w svc connection config) s run ∧
      (∀ x ∈ steps s run, x.2.1.Writes) ∧ ∃ toClient : Flow,
        final s run = { s with toClient } ∧ toClient.blocked w.capacityToClient := by
  rcases Flow.fill h.toClient_le hload with hfull | ⟨n, filled, hwrite, hfull⟩
  · exact ⟨[], run_nil s, by simp, s.toClient, rfl, hfull⟩
  · have hstep : Step w svc connection config s (.serverWrite n : Label E C)
        { s with toClient := filled } := by
      simp only [Step, System.step, hwrite, Option.map_some]
    refine ⟨[(.serverWrite n, { s with toClient := filled })], run_cons.mpr ⟨hstep, run_nil _⟩,
      ?_, filled, rfl, hfull⟩
    intro x hx
    rw [steps_cons, steps_nil, List.mem_singleton] at hx
    subst hx
    trivial

theorem exists_fill_toServer {s : Peers E F} (h : s.Sound w)
    (hload : w.capacityToServer < s.toServer.load) :
    ∃ run : List (Label E C × Peers E F), Run (Step w svc connection config) s run ∧
      (∀ x ∈ steps s run, x.2.1.Writes) ∧ ∃ toServer : Flow,
        final s run = { s with toServer } ∧ toServer.blocked w.capacityToServer := by
  rcases Flow.fill h.toServer_le hload with hfull | ⟨n, filled, hwrite, hfull⟩
  · exact ⟨[], run_nil s, by simp, s.toServer, rfl, hfull⟩
  · have hstep : Step w svc connection config s (.clientWrite n : Label E C)
        { s with toServer := filled } := by
      simp only [Step, System.step, hwrite, Option.map_some]
    refine ⟨[(.clientWrite n, { s with toServer := filled })], run_cons.mpr ⟨hstep, run_nil _⟩,
      ?_, filled, rfl, hfull⟩
    intro x hx
    rw [steps_cons, steps_nil, List.mem_singleton] at hx
    subst hx
    trivial

end

/-- The writes that are still possible park both drivers just when both sends
overfill their pipes. -/
theorem parks_iff_locked {s : Peers E F} (h : s.Sound w) :
    (∃ run : List (Label E C × Peers E F), Run (Step w svc connection config) s run ∧
      (∀ x ∈ steps s run, x.2.1.Writes) ∧ (final s run).bothParked w) ↔ s.locked w := by
  constructor
  · rintro ⟨run, hrun, hwrites, hparked⟩
    by_contra hfree
    have hall := (not_locked_run_iff h hfree hrun).mpr
      fun x hx => clear_of_writes x.1 (hwrites x hx)
    exact hall _ (final_mem_states s run) (locked_of_bothParked hparked)
  · intro hlocked
    obtain ⟨⟨out, hout⟩, ⟨msg, hmsg⟩⟩ := h.sending hlocked
    obtain ⟨run, hrun, hwrites, toClient, hfinal, hclient⟩ :=
      exists_fill_toClient svc connection config h hlocked.1
    have hsound := sound_run h hrun _ (final_mem_states s run)
    have hload : w.capacityToServer < (final s run).toServer.load := by
      rw [hfinal]
      exact hlocked.2
    obtain ⟨run', hrun', hwrites', toServer, hfinal', hserver⟩ :=
      exists_fill_toServer svc connection config hsound hload
    refine ⟨run ++ run', run_append.mpr ⟨hrun, hrun'⟩, fun x hx => ?_, ?_⟩
    · rw [steps_append, List.mem_append] at hx
      exact hx.elim (hwrites x) (hwrites' x)
    · rw [final_append, hfinal', hfinal]
      refine ⟨⟨⟨out, hout⟩, hclient, ?_⟩, ⟨msg, hmsg⟩, hserver, ?_⟩
      · rw [hmsg]
        exact nofun
      · intro hclosed
        have hselect := h.placed.closed hclosed
        rw [hout] at hselect
        cases hselect

omit [DecidableEq E] in
theorem not_locked_initial : ¬ (Peers.initial : Peers E F).locked w :=
  fun hlocked => Nat.not_lt_zero _ hlocked.1

/-- **Exactly when both peers can be parked**: the writes that are possible in the
states of a run park both drivers in none of them if and only if each step was
clear. -/
theorem never_parks_iff {run : List (Label E C × Peers E F)}
    (hrun : Run (Step w svc connection config) Peers.initial run) :
    (∀ s ∈ states Peers.initial run, ¬ ∃ writes : List (Label E C × Peers E F),
      Run (Step w svc connection config) s writes ∧ (∀ x ∈ steps s writes, x.2.1.Writes) ∧
        (final s writes).bothParked w) ↔
      ∀ x ∈ steps Peers.initial run, x.1.clear w x.2.1 := by
  rw [← not_locked_run_iff sound_initial not_locked_initial hrun]
  exact forall₂_congr fun s hs => not_congr (parks_iff_locked (sound_run sound_initial hrun s hs))

end

end TurboMcp.System
