import TurboMcp.Lib.Courses
import TurboMcp.System.Peers

/-!
# Parked drivers are freed

While one driver is parked, the other's send fits its pipe: its loop uses up the
room there and the bytes it has already read, and then it reads the full pipe.
So where every step is clear and the loops get their turns, every send ends.
-/

namespace TurboMcp.System

open TurboMcp.Core TurboMcp.Lib TurboMcp.Service TurboMcp.Client

/-! ## Turns of the loops -/

section

variable {E C F : Type}

/-- A step of the server's loop itself. -/
def ofLoop : Service.Label E C → Prop
  | .poll _ _ | .resume _ | .expire _ | .push _ | .fireShutdown | .abort _ => False
  | _ => True

def ServerTurn : Label E C → Prop
  | .server a => ofLoop a
  | .serverWrite _ | .serverRead _ | .serverPend | .serverFrame _ _ => True
  | _ => False

def ofActor : Actor.Label → Prop
  | .submit _ => False
  | _ => True

def ClientTurn : Label E C → Prop
  | .client a => ofActor a
  | .clientWrite _ | .clientRead _ | .clientPend | .clientFrame _ _ => True
  | _ => False

variable (w : Wiring)

/-- The server's loop is not over, and waits neither for its peer to read nor for
it to write.  A loop that waits for a permit counts as busy. -/
structure ServerBusy (s : Peers E F) : Prop where
  going : s.server.phase ≠ .closed
  unparked : ¬ s.serverParked w
  woken : s.serverPends = true → 0 < s.toServer.inPipe

structure ClientBusy (s : Peers E F) : Prop where
  going : s.client.pc ≠ .closed
  unparked : ¬ s.clientParked w
  woken : s.clientPends = true → 0 < s.toClient.inPipe

/-! ## Ranks -/

def phaseRank : Phase → Nat
  | .serving => 3
  | .draining => 2
  | .flushing => 1
  | .closed => 0

def pcRank : Pc → Nat
  | .acquiring _ => 5
  | .readying _ | .sending _ => 4
  | .select => 3
  | .polledOutbound => 2
  | .polledShutdown => 1

def actorRank : Actor.Pc → Nat
  | .sending _ => 4
  | .select => 3
  | .polledOutbound => 1
  | .closed => 0

/-- What the server's loop can still do without reading: room in its pipe, bytes
it has read, and its way round. -/
def serverRank (s : Peers E F) : Nat :=
  8 * (phaseRank s.server.phase + (w.capacityToClient - s.toClient.load) + s.toServer.buffered) +
    s.toClient.left + pcRank s.server.pc + (if s.serverPends then 3 else 0)

def clientRank (s : Peers E F) : Nat :=
  8 * ((w.capacityToServer - s.toServer.load) + s.toClient.buffered) + s.toServer.left +
    actorRank s.client.pc + (if s.clientPends then 3 else 0)

/-- What a turn pays with bytes that were read, or with the end of a wait. -/
def loopPays : Service.Label E C → Nat
  | .frame _ => 5
  | .wake => 3
  | _ => 0

def actorPays : Actor.Label → Nat
  | .frame _ => 5
  | .wake => 3
  | _ => 0

variable {w} {svc : McpService E C F} {connection : String} {config : ServeConfig}

/-! ## What a turn uses up -/

/-- A turn brings the loop forward, but for the message it takes up. -/
theorem loop_rank {s t : State E F} {a : Service.Label E C}
    (h : Service.Move svc connection config s a t) (hplaced : Placed s) (ha : ofLoop a) :
    8 * phaseRank t.phase + pcRank t.pc + 1 ≤ 8 * phaseRank s.phase + pcRank s.pc + loopPays a +
      (if (serverTakes s a).isSome then 2 else 0) := by
  have serving {pc : Pc} (hpc : s.pc = pc) (hpast : pastOutbound pc) : s.phase = .serving :=
    hplaced.serving (hpc ▸ hpast)
  cases h with
  | take hpc hqueue _ => simp [serverTakes, hqueue, hpc, pcRank, loopPays]
  | outboundEmpty hpc hqueue _ => simp [serverTakes, hqueue, hpc, pcRank, loopPays]
  | shutdownSeen hpc =>
      simp [serverTakes, hpc, serving hpc trivial, pcRank, phaseRank, loopPays]
  | shutdownUnseen hpc => simp [serverTakes, hpc, pcRank, loopPays]
  | wake hpc => simp [serverTakes, hpc, pcRank, loopPays]
  | frame hpc => simp [serverTakes, hpc, pcRank, loopPays]
  | recvEnd hpc => simp [serverTakes, hpc, serving hpc trivial, pcRank, phaseRank, loopPays]
  | sent hpc => simp [serverTakes, hpc, pcRank, loopPays]
  | sendFailed hpc =>
      simp only [serverTakes, hpc, pcRank, loopPays]
      cases s.phase <;> simp [Phase.afterFailedSend, phaseRank]
  | acquired hpc _ => simp [serverTakes, hpc, pcRank, loopPays]
  | ready hpc => simp [serverTakes, hpc, pcRank, loopPays, spawnTask]
  | notReady hpc => simp [serverTakes, hpc, serving hpc trivial, pcRank, phaseRank, loopPays]
  | drained hphase _ _ =>
      simp only [hphase, phaseRank]
      omega
  | deadline hphase _ =>
      simp only [hphase, phaseRank]
      omega
  | finish _ _ _ hphase =>
      simp only [hphase, phaseRank]
      omega
  | poll _ _ _ | emitted _ _ _ | woken _ _ | replied _ _ _ | expired _ _ | pushed _ _
  | fireShutdown | abort _ _ => exact ha.elim

theorem actor_rank {handled : Bool} {s t : Actor.State} {a : Actor.Label}
    (h : Actor.Move handled s a t) (ha : ofActor a) :
    actorRank t.pc + 1 ≤ actorRank s.pc + actorPays a +
      (if (clientTakes handled s a).isSome then 2 else 0) := by
  cases h with
  | take hpc hqueue => simp [clientTakes, hqueue, hpc, actorRank, actorPays]
  | outboundEmpty hpc hqueue => simp [clientTakes, hqueue, hpc, actorRank, actorPays]
  | wake hpc => simp [clientTakes, hpc, actorRank, actorPays]
  | refused hpc hreply => simp [clientTakes, hreply, hpc, actorRank, actorPays]
  | routed hpc hreply => simp [clientTakes, hreply, hpc, actorRank, actorPays]
  | sent hpc => simp [clientTakes, hpc, actorRank, actorPays]
  | sendFailed hpc => simp [clientTakes, hpc, actorRank, actorPays]
  | submitted => exact ha.elim
  | close hpc => rcases hpc with hpc | hpc <;> simp [clientTakes, hpc, actorRank, actorPays]

/-- Nothing but a turn moves the loop. -/
theorem loop_stays {s t : State E F} {a : Service.Label E C}
    (h : Service.Move svc connection config s a t) (ha : ¬ ofLoop a) :
    t.phase = s.phase ∧ t.pc = s.pc := by
  cases h with
  | @poll i choice u f p _ _ _ => exact pollTask_keeps s i u f p
  | emitted _ _ _ | woken _ _ | replied _ _ _ | expired _ _ | pushed _ _ | fireShutdown
  | abort _ _ => exact ⟨rfl, rfl⟩
  | take _ _ _ | outboundEmpty _ _ _ | shutdownSeen _ | shutdownUnseen _ | wake _ | frame _
  | recvEnd _ | sent _ | sendFailed _ | acquired _ _ | ready _ | notReady _ | drained _ _ _
  | deadline _ _ | finish _ _ _ _ => exact absurd trivial ha

theorem actor_stays {handled : Bool} {s t : Actor.State} {a : Actor.Label}
    (h : Actor.Move handled s a t) (ha : ¬ ofActor a) : t.pc = s.pc := by
  cases h with
  | submitted => rfl
  | _ => exact absurd trivial ha

/-- The loop's own way out of a send is its end. -/
theorem loop_sends {s t : State E F} {a : Service.Label E C} {out : Outgoing}
    (h : Service.Move svc connection config s a t) (ha : ofLoop a) (hpc : s.pc = .sending out) :
    t.pc = .select := by
  cases h with
  | sent _ | sendFailed _ => rfl
  | poll _ _ _ | emitted _ _ _ | woken _ _ | replied _ _ _ | expired _ _ | pushed _ _
  | fireShutdown | abort _ _ => exact ha.elim
  | shutdownSeen _ | wake _ | recvEnd _ | ready _ | notReady _ => rfl
  | drained _ _ hpc' | deadline _ hpc' | finish hpc' _ _ _ => exact hpc'
  | take hpc' _ _ | outboundEmpty hpc' _ _ | shutdownUnseen hpc' | frame hpc' | acquired hpc' _ =>
      rw [hpc] at hpc'
      cases hpc'

theorem actor_sends {handled : Bool} {s t : Actor.State} {a : Actor.Label} {msg : JsonRpcMessage}
    (h : Actor.Move handled s a t) (ha : ofActor a) (hpc : s.pc = .sending msg) :
    t.pc = .select ∨ t.pc = .closed := by
  cases h with
  | sent _ => exact .inl rfl
  | sendFailed _ => exact .inr rfl
  | close _ => exact .inr rfl
  | submitted => exact ha.elim
  | take hpc' _ | outboundEmpty hpc' _ | wake hpc' | refused hpc' _ | routed hpc' _ =>
      rw [hpc] at hpc'
      cases hpc'

/-- A loop that is over stays so. -/
theorem actor_closed {handled : Bool} {s t : Actor.State} {a : Actor.Label}
    (h : Actor.Move handled s a t) (hpc : s.pc = .closed) : t.pc = .closed := by
  cases h with
  | sendFailed _ | close _ => rfl
  | submitted => exact hpc
  | take hpc' _ | outboundEmpty hpc' _ | wake hpc' | refused hpc' _ | routed hpc' _ | sent hpc' =>
      rw [hpc] at hpc'
      cases hpc'

theorem loop_closed {s t : State E F} {a : Service.Label E C}
    (h : Service.Move svc connection config s a t) (hplaced : Placed s)
    (hphase : s.phase = .closed) : t.phase = .closed := by
  have hselect := hplaced.closed hphase
  have aside {pc : Pc} (hpc : s.pc = pc) (hne : pc ≠ .select) : t.phase = .closed :=
    absurd (hpc.symm.trans hselect) hne
  cases h with
  | @poll i choice u f p _ _ _ => exact (pollTask_keeps s i u f p).1.trans hphase
  | emitted _ _ _ | woken _ _ | replied _ _ _ | expired _ _ | pushed _ _ | fireShutdown
  | abort _ _ => exact hphase
  | finish _ _ _ _ => rfl
  | take _ _ hopen => exact absurd hphase hopen
  | outboundEmpty _ _ hserving =>
      rw [hphase] at hserving
      cases hserving
  | drained hdraining _ _ | deadline hdraining _ =>
      rw [hphase] at hdraining
      cases hdraining
  | shutdownSeen hpc | shutdownUnseen hpc | wake hpc | frame hpc | recvEnd hpc | sent hpc
  | sendFailed hpc | acquired hpc _ | ready hpc | notReady hpc => exact aside hpc nofun

/-- A message taken up uses up room. -/
theorem Turns.room {size before after : Option Nat} (h : Turns size before after) {f : Flow}
    (capacity : Nat) (hidle : before = none → f.left = 0) (hover : after = none → f.left = 0)
    (hfits : ∀ n, size = some n → 0 < n ∧ f.inPipe + n ≤ capacity) :
    8 * (capacity - (f.turn before after).load) + (f.turn before after).left +
        (if size.isSome then 2 else 0) ≤
      8 * (capacity - f.load) + f.left := by
  cases h with
  | @takes n hsize =>
      obtain ⟨hpos, hroom⟩ := hfits n hsize
      have hleft := hidle rfl
      simp only [hsize, Flow.turn, Flow.load, hleft, Option.isSome_some, if_true]
      omega
  | ends hsize =>
      have hleft := hover rfl
      simp [hsize, Flow.turn, Flow.load, hleft]
  | same hsize => simp [hsize]

/-- A send that is over has written all, as the client is there to read. -/
theorem serverLeft_of_over {s : Peers E F} {server : State E F} {a : Service.Label E C}
    (h : s.Sound w) (hmay : serverMay s a = true) (hopen : s.client.pc ≠ .closed)
    (hmove : Service.Move svc connection config s.server a server)
    (hover : serverHand w server = none) : s.toClient.left = 0 := by
  rcases hhand : serverHand w s.server with _ | n
  · exact h.serverIdle hhand
  · obtain ⟨out, hout⟩ : ∃ out, s.server.pc = .sending out := by
      unfold serverHand at hhand
      split at hhand
      · exact ⟨_, ‹_›⟩
      · cases hhand
    rcases server_stays hmove hout with rfl | rfl | ⟨hpc, -⟩
    · simpa [serverMay] using hmay
    · exact absurd (by simpa [serverMay] using hmay) hopen
    · simp [serverHand, hpc] at hover

theorem idle_of_frame {s t : State E F} {msg : JsonRpcMessage}
    (h : Service.Move svc connection config s (.frame msg) t) : serverHand w s = none := by
  cases h with
  | frame hpc => rw [serverHand, hpc]

theorem clientIdle_of_frame {handled : Bool} {s t : Actor.State} {msg : JsonRpcMessage}
    (h : Actor.Move handled s (.frame msg) t) : clientHand w s = none := by
  cases h with
  | refused hpc _ | routed hpc _ => rw [clientHand, hpc]

theorem clientLeft_of_over {s : Peers E F} {client : Actor.State} {a : Actor.Label}
    (h : s.Sound w) (hmay : clientMay s a = true) (hopen : s.server.phase ≠ .closed)
    (hmove : Actor.Move w.handled s.client a client)
    (hover : clientHand w client = none) : s.toServer.left = 0 := by
  rcases hhand : clientHand w s.client with _ | n
  · exact h.clientIdle hhand
  · obtain ⟨msg, hmsg⟩ : ∃ msg, s.client.pc = .sending msg := by
      unfold clientHand at hhand
      split at hhand
      · exact ⟨_, ‹_›⟩
      · cases hhand
    rcases client_stays hmove hmsg with rfl | rfl | hpc
    · simpa [clientMay] using hmay
    · exact absurd (by simpa [clientMay] using hmay) hopen
    · simp [clientHand, hpc] at hover

theorem pends_le (pends : Bool) (P : Prop) [Decidable P] :
    (if (pends && decide P) = true then 3 else 0) ≤ if pends = true then 3 else 0 := by
  cases pends <;> by_cases hP : P <;> simp [hP]

variable [DecidableEq E]

omit [DecidableEq E] in
/-- A wait that ends pays for the way back to the select. -/
theorem serverPends_pays {s : Peers E F} {server : State E F} {a : Service.Label E C}
    (hmay : serverMay s a = true)
    (hmove : Service.Move svc connection config s.server a server) :
    (if (s.withServer w server).serverPends = true then 3 else 0) + loopPays a ≤
      if s.serverPends = true then 3 else 0 := by
  have hle := pends_le s.serverPends (server.pc = .polledShutdown)
  cases hmove with
  | wake hpc =>
      have hpends : s.serverPends = true := hmay
      simp [Peers.withServer, hpends, loopPays]
  | frame hpc => cases hmay
  | _ => exact hle

omit [DecidableEq E] in
theorem clientPends_pays {s : Peers E F} {client : Actor.State} {a : Actor.Label}
    (hmay : clientMay s a = true) (hmove : Actor.Move w.handled s.client a client) :
    (if (s.withClient w client).clientPends = true then 3 else 0) + actorPays a ≤
      if s.clientPends = true then 3 else 0 := by
  have hle := pends_le s.clientPends (client.pc = .polledOutbound)
  cases hmove with
  | wake hpc =>
      have hpends : s.clientPends = true := hmay
      simp [Peers.withClient, hpends, actorPays]
  | refused hpc _ | routed hpc _ => cases hmay
  | _ => exact hle

/-! ## The other loop comes round to reading -/

omit [DecidableEq E] in
/-- **While the client is parked, each turn of the server's loop lowers its
rank**, as long as it does not read. -/
theorem serverRank_move {s t : Peers E F} {a : Label E C} (h : s.Sound w)
    (hclear : s.clear w a) (hparked : s.clientParked w)
    (hmove : Move w svc connection config s a t) (hstill : t.clientParked w) :
    serverRank w t ≤ serverRank w s ∧ (ServerTurn a → serverRank w t < serverRank w s) := by
  obtain ⟨⟨msg, hmsg⟩, hblocked, hopen⟩ := hparked
  have hload := Flow.load_of_blocked hblocked
  have hclosed : s.client.pc ≠ .closed := by
    rw [hmsg]
    exact nofun
  have turn (hlt : serverRank w t < serverRank w s) :
      serverRank w t ≤ serverRank w s ∧ (ServerTurn a → serverRank w t < serverRank w s) :=
    ⟨Nat.le_of_lt hlt, fun _ => hlt⟩
  cases hmove with
  | @server a server hmay hmove =>
      have hpends := serverPends_pays (w := w) hmay hmove
      -- What it takes up fits: the step is clear, and the client's pipe is full.
      have hroom := (server_turns hmove).room w.capacityToClient h.serverIdle
        (serverLeft_of_over h hmay hclosed hmove) fun n hsize => by
          obtain ⟨out, hout, rfl⟩ := Option.map_eq_some_iff.mp hsize
          exact ⟨Nat.succ_pos _, (hclear out hout).resolve_right (by omega)⟩
      rw [Option.isSome_map] at hroom
      by_cases ha : ofLoop a
      · have hrank := loop_rank hmove h.placed ha
        apply turn
        simp only [serverRank, Peers.withServer] at hpends ⊢
        omega
      · obtain ⟨hphase, hpc⟩ := loop_stays hmove ha
        refine ⟨?_, fun hturn => absurd hturn ha⟩
        simp only [serverRank, Peers.withServer, hphase, hpc] at hpends ⊢
        omega
  | @client a client hmay hmove =>
      rcases client_stays hmove hmsg with rfl | rfl | hpc
      · have hleft : s.toServer.left = 0 := by simpa [clientMay] using hmay
        exact absurd hleft (Nat.ne_of_gt hblocked.1)
      · exact absurd (by simpa [clientMay] using hmay) hopen
      · have hhand : clientHand w client = clientHand w s.client := by
          rw [clientHand, clientHand, hpc, hmsg]
        have hrank : serverRank w (s.withClient w client) = serverRank w s := by
          simp [serverRank, Peers.withClient, hhand]
        exact ⟨Nat.le_of_eq hrank, fun hturn => hturn.elim⟩
  | serverWrite hn =>
      apply turn
      simp only [serverRank, Flow.load]
      omega
  | clientWrite hn =>
      have hfull := hblocked.2
      omega
  | serverRead hpc hn =>
      -- A read makes room, and the client would not be parked any more.
      have hfull := hblocked.2
      have hfull' := hstill.2.1.2
      simp only at hfull'
      omega
  | clientRead hpc _ | clientPend hpc _ =>
      rw [hmsg] at hpc
      cases hpc
  | serverPend hpc hempty =>
      -- The pipe it would have to find empty is the full one.
      have hfull := hblocked.2
      have hpos := w.toServer_pos
      omega
  | @serverFrame n msg server hnotpends hn hmove =>
      have hrank := loop_rank hmove h.placed trivial
      have hroom := (server_turns hmove).room w.capacityToClient h.serverIdle
        (fun _ => h.serverIdle (idle_of_frame hmove)) (fun n hsize => by cases hsize)
      rw [Option.isSome_map] at hroom
      apply turn
      simp only [serverRank, Peers.withServer, loopPays, hnotpends, Bool.false_and,
        Bool.false_eq_true, if_false] at hrank ⊢
      omega
  | clientFrame _ _ hmove =>
      cases hmove with
      | refused hpc _ | routed hpc _ =>
          rw [hmsg] at hpc
          cases hpc

omit [DecidableEq E] in
/-- The same of the client's loop, while the server is parked. -/
theorem clientRank_move {s t : Peers E F} {a : Label E C} (h : s.Sound w)
    (hclear : s.clear w a) (hparked : s.serverParked w)
    (hmove : Move w svc connection config s a t) (hstill : t.serverParked w) :
    clientRank w t ≤ clientRank w s ∧ (ClientTurn a → clientRank w t < clientRank w s) := by
  obtain ⟨⟨out, hout⟩, hblocked, hopen⟩ := hparked
  have hload := Flow.load_of_blocked hblocked
  have hclosed : s.server.phase ≠ .closed := by
    intro hclosed
    have hselect := h.placed.closed hclosed
    rw [hout] at hselect
    cases hselect
  have turn (hlt : clientRank w t < clientRank w s) :
      clientRank w t ≤ clientRank w s ∧ (ClientTurn a → clientRank w t < clientRank w s) :=
    ⟨Nat.le_of_lt hlt, fun _ => hlt⟩
  cases hmove with
  | @client a client hmay hmove =>
      have hpends := clientPends_pays (w := w) hmay hmove
      have hroom := (client_turns hmove).room w.capacityToServer h.clientIdle
        (clientLeft_of_over h hmay hclosed hmove) fun n hsize => by
          obtain ⟨msg, hmsg, rfl⟩ := Option.map_eq_some_iff.mp hsize
          exact ⟨Nat.succ_pos _, (hclear msg hmsg).resolve_right (by omega)⟩
      rw [Option.isSome_map] at hroom
      by_cases ha : ofActor a
      · have hrank := actor_rank hmove ha
        apply turn
        simp only [clientRank, Peers.withClient] at hpends ⊢
        omega
      · have hpc := actor_stays hmove ha
        refine ⟨?_, fun hturn => absurd hturn ha⟩
        simp only [clientRank, Peers.withClient, hpc] at hpends ⊢
        omega
  | @server a server hmay hmove =>
      rcases server_stays hmove hout with rfl | rfl | ⟨hpc, -⟩
      · have hleft : s.toClient.left = 0 := by simpa [serverMay] using hmay
        exact absurd hleft (Nat.ne_of_gt hblocked.1)
      · exact absurd (by simpa [serverMay] using hmay) hopen
      · have hhand : serverHand w server = serverHand w s.server := by
          rw [serverHand, serverHand, hpc, hout]
        have hrank : clientRank w (s.withServer w server) = clientRank w s := by
          simp [clientRank, Peers.withServer, hhand]
        exact ⟨Nat.le_of_eq hrank, fun hturn => hturn.elim⟩
  | clientWrite hn =>
      apply turn
      simp only [clientRank, Flow.load]
      omega
  | serverWrite hn =>
      have hfull := hblocked.2
      omega
  | clientRead hpc hn =>
      have hfull := hblocked.2
      have hfull' := hstill.2.1.2
      simp only at hfull'
      omega
  | serverRead hpc _ | serverPend hpc _ =>
      rw [hout] at hpc
      cases hpc
  | clientPend hpc hempty =>
      have hfull := hblocked.2
      have hpos := w.toClient_pos
      omega
  | @clientFrame n msg client hnotpends hn hmove =>
      have hrank := actor_rank hmove trivial
      have hroom := (client_turns hmove).room w.capacityToServer h.clientIdle
        (fun _ => h.clientIdle (clientIdle_of_frame hmove)) fun n hsize => by
          obtain ⟨reply, hreply, rfl⟩ := Option.map_eq_some_iff.mp hsize
          exact ⟨Nat.succ_pos _, (hclear reply hreply).resolve_right (by omega)⟩
      rw [Option.isSome_map] at hroom
      apply turn
      simp only [clientRank, Peers.withClient, actorPays, hnotpends, Bool.false_and,
        Bool.false_eq_true, if_false] at hrank ⊢
      omega
  | serverFrame _ _ hmove =>
      have hidle := idle_of_frame (w := w) hmove
      rw [serverHand, hout] at hidle
      cases hidle

/-! ## A send gets on -/

omit [DecidableEq E] in
/-- What a driver in a send does is write; nothing else takes its room. -/
theorem serverSend_move {s t : Peers E F} {a : Label E C} {out : Outgoing} (h : s.Sound w)
    (hs : s.server.pc = .sending out) (ht : t.server.pc = .sending out)
    (hmove : Move w svc connection config s a t) :
    (ServerTurn a → t.toClient.left < s.toClient.left) ∧
      (¬ ServerTurn a → t.toClient.left ≤ s.toClient.left ∧
        (¬ s.serverParked w → ¬ t.serverParked w)) := by
  have other (hturn : ¬ ServerTurn a) (hleft : t.toClient.left = s.toClient.left)
      (hparked : t.serverParked w → s.serverParked w) :
      (ServerTurn a → t.toClient.left < s.toClient.left) ∧
        (¬ ServerTurn a → t.toClient.left ≤ s.toClient.left ∧
          (¬ s.serverParked w → ¬ t.serverParked w)) :=
    ⟨fun h => absurd h hturn, fun _ => ⟨Nat.le_of_eq hleft, fun hfree hp => hfree (hparked hp)⟩⟩
  cases hmove with
  | @server a server _ hmove =>
      have hhand : serverHand w server = serverHand w s.server := by
        have ht : server.pc = .sending out := ht
        rw [serverHand, serverHand, ht, hs]
      have hflow : (s.withServer w server).toClient = s.toClient := by
        simp [Peers.withServer, hhand]
      by_cases ha : ofLoop a
      · have hselect := (loop_sends hmove ha hs).symm.trans ht
        cases hselect
      · refine other ha (by rw [hflow]) fun hp => ⟨⟨out, hs⟩, ?_, hp.2.2⟩
        rw [← hflow]
        exact hp.2.1
  | @client a client _ hmove =>
      refine other id rfl fun hp => ⟨⟨out, hs⟩, hp.2.1, fun hclosed => hp.2.2 ?_⟩
      exact actor_closed hmove hclosed
  | serverWrite hn =>
      refine ⟨fun _ => ?_, fun hturn => absurd trivial hturn⟩
      simp only
      omega
  | clientWrite _ => exact other id rfl id
  | clientRead _ hn =>
      refine other id rfl fun hp => ?_
      have hle := h.toClient_le
      have hfull := hp.2.1.2
      simp only at hfull
      omega
  | clientPend _ _ => exact other id rfl id
  | clientFrame _ _ hmove =>
      refine other id rfl fun hp => ⟨⟨out, hs⟩, hp.2.1, ?_⟩
      cases hmove with
      | refused hpc _ | routed hpc _ =>
          rw [hpc]
          intro hclosed
          cases hclosed
  | serverRead hpc _ | serverPend hpc _ =>
      rw [hs] at hpc
      cases hpc
  | serverFrame _ _ hmove =>
      have hidle := idle_of_frame (w := w) hmove
      rw [serverHand, hs] at hidle
      cases hidle

omit [DecidableEq E] in
theorem clientSend_move {s t : Peers E F} {a : Label E C} {msg : JsonRpcMessage} (h : s.Sound w)
    (hs : s.client.pc = .sending msg) (ht : t.client.pc = .sending msg)
    (hmove : Move w svc connection config s a t) :
    (ClientTurn a → t.toServer.left < s.toServer.left) ∧
      (¬ ClientTurn a → t.toServer.left ≤ s.toServer.left ∧
        (¬ s.clientParked w → ¬ t.clientParked w)) := by
  have other (hturn : ¬ ClientTurn a) (hleft : t.toServer.left = s.toServer.left)
      (hparked : t.clientParked w → s.clientParked w) :
      (ClientTurn a → t.toServer.left < s.toServer.left) ∧
        (¬ ClientTurn a → t.toServer.left ≤ s.toServer.left ∧
          (¬ s.clientParked w → ¬ t.clientParked w)) :=
    ⟨fun h => absurd h hturn, fun _ => ⟨Nat.le_of_eq hleft, fun hfree hp => hfree (hparked hp)⟩⟩
  cases hmove with
  | @client a client _ hmove =>
      have ht : client.pc = .sending msg := ht
      have hhand : clientHand w client = clientHand w s.client := by
        rw [clientHand, clientHand, ht, hs]
      have hflow : (s.withClient w client).toServer = s.toServer := by
        simp [Peers.withClient, hhand]
      by_cases ha : ofActor a
      · rcases actor_sends hmove ha hs with hpc | hpc
        · cases hpc.symm.trans ht
        · cases hpc.symm.trans ht
      · refine other ha (by rw [hflow]) fun hp => ⟨⟨msg, hs⟩, ?_, hp.2.2⟩
        rw [← hflow]
        exact hp.2.1
  | @server a server _ hmove =>
      refine other id rfl fun hp => ⟨⟨msg, hs⟩, hp.2.1, fun hclosed => hp.2.2 ?_⟩
      exact loop_closed hmove h.placed hclosed
  | clientWrite hn =>
      refine ⟨fun _ => ?_, fun hturn => absurd trivial hturn⟩
      simp only
      omega
  | serverWrite _ => exact other id rfl id
  | serverRead _ hn =>
      refine other id rfl fun hp => ?_
      have hle := h.toServer_le
      have hfull := hp.2.1.2
      simp only at hfull
      omega
  | serverPend _ _ => exact other id rfl id
  | serverFrame _ _ hmove =>
      refine other id rfl fun hp => ⟨⟨msg, hs⟩, hp.2.1, fun hclosed => hp.2.2 ?_⟩
      exact loop_closed hmove h.placed hclosed
  | clientRead hpc _ | clientPend hpc _ =>
      rw [hs] at hpc
      cases hpc
  | clientFrame _ _ hmove =>
      have hidle := clientIdle_of_frame (w := w) hmove
      rw [clientHand, hs] at hidle
      cases hidle

omit [DecidableEq E] in
theorem serverBusy_of_sending {s : Peers E F} {out : Outgoing} (h : s.Sound w)
    (hs : s.server.pc = .sending out) (hfree : ¬ s.serverParked w) : ServerBusy w s where
  going hclosed := by
    have hselect := h.placed.closed hclosed
    rw [hs] at hselect
    cases hselect
  unparked := hfree
  woken hpends := by
    have hpolled := h.serverPends hpends
    rw [hs] at hpolled
    cases hpolled

omit [DecidableEq E] in
theorem clientBusy_of_sending {s : Peers E F} {msg : JsonRpcMessage} (h : s.Sound w)
    (hs : s.client.pc = .sending msg) (hfree : ¬ s.clientParked w) : ClientBusy w s where
  going hclosed := by
    rw [hs] at hclosed
    cases hclosed
  unparked := hfree
  woken hpends := by
    have hpolled := h.clientPends hpends
    rw [hs] at hpolled
    cases hpolled

/-! ## Every send ends -/

variable {c : Course (Step w svc connection config)}

theorem sound_course (hstart : c.state 0 = Peers.initial) (t : Nat) : (c.state t).Sound w := by
  refine c.invariant (P := Peers.Sound w) ?_ (fun _ _ _ hstep h => h.move hstep.move) t
  rw [hstart]
  exact sound_initial

theorem not_locked_course (hstart : c.state 0 = Peers.initial)
    (hclear : ∀ t a, c.label t = some a → (c.state t).clear w a) (t : Nat) :
    ¬ (c.state t).locked w := by
  induction t with
  | zero =>
      rw [hstart]
      exact not_locked_initial
  | succ t ih =>
      rcases hlabel : c.label t with _ | a
      · rw [c.rests t hlabel]
        exact ih
      · exact (locked_move_iff (sound_course hstart t) ih (c.moves t a hlabel).move).mpr
          (hclear t a hlabel)

section

variable (hstart : c.state 0 = Peers.initial)
  (hclear : ∀ t a, c.label t = some a → (c.state t).clear w a)

include hstart hclear

/-- A parked client is freed by the server's loop. -/
theorem client_freed (hfair : c.Fair ServerTurn (ServerBusy w)) {t : Nat}
    (hparked : (c.state t).clientParked w) : ∃ u, t ≤ u ∧ ¬ (c.state u).clientParked w := by
  refine Course.eventually_of_descent (Q := fun s => ¬ s.clientParked w) hfair (serverRank w)
    ?_ ?_ hparked
  · intro u _ hu _
    -- The server is busy: it is not parked as well, and what it may wait for is there.
    refine ⟨hu.2.2, fun hserver => ?_, fun _ => ?_⟩
    · exact not_locked_course hstart hclear u (locked_of_bothParked ⟨hserver, hu⟩)
    · rw [hu.2.1.2]
      exact w.toServer_pos
  · intro u a _ hlabel hu _
    by_cases hstill : (c.state (u + 1)).clientParked w
    · exact .inr ⟨hstill, serverRank_move (sound_course hstart u) (hclear u a hlabel) hu
        (c.moves u a hlabel).move hstill⟩
    · exact .inl hstill

/-- A parked server is freed by the client's loop. -/
theorem server_freed (hfair : c.Fair ClientTurn (ClientBusy w)) {t : Nat}
    (hparked : (c.state t).serverParked w) : ∃ u, t ≤ u ∧ ¬ (c.state u).serverParked w := by
  refine Course.eventually_of_descent (Q := fun s => ¬ s.serverParked w) hfair (clientRank w)
    ?_ ?_ hparked
  · intro u _ hu _
    refine ⟨hu.2.2, fun hclient => ?_, fun _ => ?_⟩
    · exact not_locked_course hstart hclear u (locked_of_bothParked ⟨hu, hclient⟩)
    · rw [hu.2.1.2]
      exact w.toClient_pos
  · intro u a _ hlabel hu _
    by_cases hstill : (c.state (u + 1)).serverParked w
    · exact .inr ⟨hstill, clientRank_move (sound_course hstart u) (hclear u a hlabel) hu
        (c.moves u a hlabel).move hstill⟩
    · exact .inl hstill

/-- A send of the server ends: what is left of its message shrinks whenever there
is room, and room comes. -/
theorem server_send_ends (hserver : c.Fair ServerTurn (ServerBusy w))
    (hclient : c.Fair ClientTurn (ClientBusy w)) (t : Nat) (out : Outgoing) :
    ∃ u, t ≤ u ∧ (c.state u).server.pc ≠ .sending out := by
  refine Course.ends_of_descent (P := fun s => s.server.pc = .sending out)
    (Q := fun s => s.serverParked w) hserver (fun s => s.toClient.left) (fun u _ hparked => ?_)
    (fun u hout hfree => ?_) fun u a hlabel hu hnext => ?_
  · exact server_freed hstart hclear hclient hparked
  · exact serverBusy_of_sending (sound_course hstart u) hout hfree
  · exact serverSend_move (sound_course hstart u) hu hnext (c.moves u a hlabel).move

theorem client_send_ends (hserver : c.Fair ServerTurn (ServerBusy w))
    (hclient : c.Fair ClientTurn (ClientBusy w)) (t : Nat) (msg : JsonRpcMessage) :
    ∃ u, t ≤ u ∧ (c.state u).client.pc ≠ .sending msg := by
  refine Course.ends_of_descent (P := fun s => s.client.pc = .sending msg)
    (Q := fun s => s.clientParked w) hclient (fun s => s.toServer.left) (fun u _ hparked => ?_)
    (fun u hmsg hfree => ?_) fun u a hlabel hu hnext => ?_
  · exact client_freed hstart hclear hserver hparked
  · exact clientBusy_of_sending (sound_course hstart u) hmsg hfree
  · exact clientSend_move (sound_course hstart u) hu hnext (c.moves u a hlabel).move

end

/-- **Two peers whose messages fit never block each other**, and exactly they do
not.  The writes that are possible in the states of a run park both drivers in
none of them if and only if every step of it was clear.  Where both are parked,
they are for good.  On a course of clear steps whose loops get their turns,
neither driver stays in a send. -/
theorem peers_unblocked_iff (svc : McpService E C F) (connection : String) (config : ServeConfig)
    (w : Wiring) :
    (∀ run : List (Label E C × Peers E F),
      Run (Step w svc connection config) Peers.initial run →
        ((∀ s ∈ states Peers.initial run, ¬ ∃ writes : List (Label E C × Peers E F),
          Run (Step w svc connection config) s writes ∧ (∀ x ∈ steps s writes, x.2.1.Writes) ∧
            (final s writes).bothParked w) ↔
          ∀ x ∈ steps Peers.initial run, x.1.clear w x.2.1) ∧
        ∀ s ∈ states Peers.initial run, s.bothParked w →
          ∀ later : List (Label E C × Peers E F), Run (Step w svc connection config) s later →
            ∀ t ∈ states s later,
              t.bothParked w ∧ t.server.pc = s.server.pc ∧ t.client.pc = s.client.pc) ∧
      ∀ c : Course (Step w svc connection config), c.state 0 = Peers.initial →
        (∀ t a, c.label t = some a → (c.state t).clear w a) →
          (∀ t, ¬ (c.state t).bothParked w) ∧
          (c.Fair ServerTurn (ServerBusy w) → c.Fair ClientTurn (ClientBusy w) →
            ∀ t, (∀ out, ∃ u, t ≤ u ∧ (c.state u).server.pc ≠ .sending out) ∧
              ∀ msg, ∃ u, t ≤ u ∧ (c.state u).client.pc ≠ .sending msg) := by
  refine ⟨fun run hrun => ⟨never_parks_iff hrun, fun s hs hparked later hlater => ?_⟩, ?_⟩
  · exact parked_for_good (sound_run sound_initial hrun s hs) hparked hlater
  · intro c hstart hclear
    refine ⟨fun t hparked => ?_, fun hserver hclient t => ⟨?_, ?_⟩⟩
    · exact not_locked_course hstart hclear t (locked_of_bothParked hparked)
    · exact server_send_ends hstart hclear hserver hclient t
    · exact client_send_ends hstart hclear hserver hclient t

end

/-! ## A parked server is freed -/

/-- A service that is never asked. -/
def idleService : McpService Empty Unit Unit where
  call _ := ()
  poll _ _ := none

/-- Frames as `serde_json` prints them; none of those below holds a float. -/
def jsonPipes (capacity : Nat) (hpos : 0 < capacity) : Wiring :=
  { encodedLength := fun msg => msg.encode.printedLength fun _ => 0
    capacityToClient := capacity
    capacityToServer := capacity
    toClient_pos := hpos
    toServer_pos := hpos
    handled := false }

def listChanged : JsonRpcMessage :=
  .notification { method := "notifications/tools/list_changed", params := none }

def oneAtATime : ServeConfig := { maxInFlight := 1, identity := none }

def narrowPipes : Wiring := jsonPipes 32 (by decide)

/-- The server fills its pipe with a part of a notification. -/
def pushWide : List (Label Empty Unit) :=
  [.server (.push listChanged), .server .pollOutbound, .serverWrite 32]

/-- The client comes round to reading, gets the notification and goes. -/
def readAndClose : List (Label Empty Unit) :=
  [.client .pollOutbound, .clientRead 32, .serverWrite 30, .server .sent, .clientRead 30,
    .clientFrame 62 listChanged, .client .close, .server .pollOutbound, .server .pollShutdown,
    .server .recvEnd, .server .drained, .server .finish]

/-- Where the narrow pipes get to on steps that are all clear. -/
def reachClear (s : Peers Empty Unit) (labels : List (Label Empty Unit)) :
    Option (Peers Empty Unit) :=
  reach (fun s a => if decide (s.clear narrowPipes a) then
    step narrowPipes idleService "conn-1" oneAtATime s a else none) s labels

def parkedServer : Peers Empty Unit :=
  { server := { State.initial with pc := .sending ⟨none, listChanged⟩ }
    client := Actor.State.initial
    toClient := ⟨32, 30, 0⟩
    toServer := Flow.initial
    serverPends := false
    clientPends := false }

/-- The server's send of a frame that its pipe cannot hold ends, since the client
reads. -/
theorem peers_unblocked_wideFrame :
    ∃ c : Course (Step narrowPipes idleService "conn-1" oneAtATime),
      c.state 0 = Peers.initial ∧ (∀ t, ¬ (c.state t).bothParked narrowPipes) ∧
        ∃ t, (c.state t).serverParked narrowPipes ∧
          ∃ u, t ≤ u ∧ (c.state u).server.pc ≠ .sending ⟨none, listChanged⟩ := by
  have hclear (s : Peers Empty Unit) (a : Label Empty Unit)
      (h : decide (s.clear narrowPipes a) = true) : s.clear narrowPipes a := of_decide_eq_true h
  have hparks : reachClear Peers.initial pushWide = some parkedServer := rfl
  obtain ⟨closed, hcloses⟩ : ∃ closed, reachClear parkedServer readAndClose = some closed :=
    Option.isSome_iff_exists.mp (by decide +kernel)
  obtain ⟨run, hrun, hparked, hrunClear⟩ := exists_run_of_guarded_reach hclear hparks
  obtain ⟨later, hlater, hclosed, hlaterClear⟩ := exists_run_of_guarded_reach hclear hcloses
  have hall : Run (Step narrowPipes idleService "conn-1" oneAtATime) Peers.initial
      (run ++ later) := by
    refine run_append.mpr ⟨hrun, ?_⟩
    rw [hparked]
    exact hlater
  have hend : closed.server.phase = .closed ∧ closed.client.pc = .closed := by
    have h : ((reachClear parkedServer readAndClose).all fun s =>
        s.server.phase = .closed ∧ s.client.pc = .closed) = true := by decide +kernel
    rw [hcloses] at h
    exact of_decide_eq_true h
  have hfinal : final Peers.initial (run ++ later) = closed := by
    rw [final_append, hparked, hclosed]
  let c := Course.ofRun Peers.initial (run ++ later) hall
  have hcourse := (peers_unblocked_iff idleService "conn-1" oneAtATime narrowPipes).2 c rfl
    fun t a hlabel => by
      obtain ⟨u, hu⟩ := Course.mem_steps_of_label hlabel
      rw [steps_append, List.mem_append, hparked] at hu
      exact hu.elim (hrunClear _) (hlaterClear _)
  have hstate : c.state run.length = parkedServer := by
    show final Peers.initial ((run ++ later).take run.length) = parkedServer
    rw [List.take_left, hparked]
  refine ⟨c, rfl, hcourse.1, run.length, ?_, ((hcourse.2 ?_ ?_) run.length).1 _⟩
  · rw [hstate]
    exact ⟨⟨_, rfl⟩, ⟨by decide, rfl⟩, nofun⟩
  · exact Course.fair_ofRun fun hbusy => hbusy.going (by rw [hfinal]; exact hend.1)
  · exact Course.fair_ofRun fun hbusy => hbusy.going (by rw [hfinal]; exact hend.2)

/-! ## Two large frames -/

/-- Pipes of 64 KiB. -/
def commonPipes : Wiring := jsonPipes 65536 (by decide)

def logMessage (text : String) : JsonRpcMessage :=
  .notification
    { method := "notifications/message"
      params := some (.object [("level", .string "info"), ("data", .string text)]) }

def storeCall (text : String) : JsonRpcMessage :=
  .request
    { id := .number 1
      method := "tools/call"
      params := some (.object [("name", .string "store"),
        ("arguments", .object [("text", .string text)])]) }

theorem logMessage_size (text : String) :
    quotedLength text < commonPipes.size (logMessage text) := by
  have hdata : (Value.string text).printedLength (fun _ => 0) <
      (Value.object [("level", .string "info"), ("data", .string text)]).printedLength fun _ => 0 :=
    Value.printedLength_entry _ (List.mem_cons_of_mem _ List.mem_cons_self)
  have hparams : _ < (logMessage text).encode.printedLength fun _ => 0 := printedLength_params _ rfl
  exact Nat.lt_succ_of_lt (Nat.lt_trans hdata hparams)

theorem storeCall_size (text : String) : quotedLength text < commonPipes.size (storeCall text) := by
  have htext : (Value.string text).printedLength (fun _ => 0) <
      (Value.object [("text", .string text)]).printedLength fun _ => 0 :=
    Value.printedLength_entry _ List.mem_cons_self
  have harguments : (Value.object [("text", .string text)]).printedLength (fun _ => 0) <
      (Value.object [("name", .string "store"),
        ("arguments", .object [("text", .string text)])]).printedLength fun _ => 0 :=
    Value.printedLength_entry _ (List.mem_cons_of_mem _ List.mem_cons_self)
  have hparams : _ < (storeCall text).encode.printedLength fun _ => 0 := printedLength_params _ rfl
  exact Nat.lt_succ_of_lt (Nat.lt_trans htext (Nat.lt_trans harguments hparams))

/-- Each peer takes up a message and writes until its pipe is full. -/
def bothSend (w : Wiring) (fromServer fromClient : JsonRpcMessage) : List (Label Empty Unit) :=
  [.server (.push fromServer), .server .pollOutbound, .client (.submit fromClient),
    .client .pollOutbound, .serverWrite w.capacityToClient, .clientWrite w.capacityToServer]

theorem reach_bothSend {w : Wiring} {fromServer fromClient : JsonRpcMessage}
    (hserver : w.capacityToClient < w.size fromServer)
    (hclient : w.capacityToServer < w.size fromClient) :
    reach (step w idleService "conn-1" oneAtATime) Peers.initial
        (bothSend w fromServer fromClient) =
      some
        { server := { State.initial with pc := .sending ⟨none, fromServer⟩ }
          client := { pc := .sending fromClient, queue := [] }
          toClient := ⟨w.capacityToClient, w.size fromServer - w.capacityToClient, 0⟩
          toServer := ⟨w.capacityToServer, w.size fromClient - w.capacityToServer, 0⟩
          serverPends := false
          clientPends := false } := by
  have hfill {capacity size : Nat} (hpos : 0 < capacity) (h : capacity < size) :
      Flow.write capacity capacity ⟨0, size, 0⟩ = some ⟨capacity, size - capacity, 0⟩ := by
    have hn : 0 < capacity ∧ capacity ≤ size ∧ 0 + capacity ≤ capacity := by omega
    rw [Flow.write, if_pos hn, Nat.zero_add]
  have htaken : reach (step w idleService "conn-1" oneAtATime) Peers.initial
        [.server (.push fromServer), .server .pollOutbound, .client (.submit fromClient),
          .client .pollOutbound] =
      some
        { server := { State.initial with pc := .sending ⟨none, fromServer⟩ }
          client := { pc := .sending fromClient, queue := [] }
          toClient := ⟨0, w.size fromServer, 0⟩
          toServer := ⟨0, w.size fromClient, 0⟩
          serverPends := false
          clientPends := false } := rfl
  have hsplit : bothSend w fromServer fromClient =
      [.server (.push fromServer), .server .pollOutbound, .client (.submit fromClient),
        .client .pollOutbound] ++
        [.serverWrite w.capacityToClient, .clientWrite w.capacityToServer] := rfl
  rw [hsplit, reach_append, htaken, Option.bind_some]
  simp only [reach, step, hfill w.toClient_pos hserver, hfill w.toServer_pos hclient,
    Option.map_some, Option.bind_some]

theorem frames_block_both {w : Wiring} {fromServer fromClient : JsonRpcMessage}
    (hserver : w.capacityToClient < w.size fromServer)
    (hclient : w.capacityToServer < w.size fromClient) :
    ∃ run : List (Label Empty Unit × Peers Empty Unit),
      Run (Step w idleService "conn-1" oneAtATime) Peers.initial run ∧
      ∃ s ∈ states Peers.initial run, s.bothParked w ∧
        s.server.pc = .sending ⟨none, fromServer⟩ ∧ s.client.pc = .sending fromClient := by
  obtain ⟨run, hrun, hmem, -⟩ := exists_run_of_reach (reach_bothSend hserver hclient)
  exact ⟨run, hrun, _, hmem, ⟨⟨⟨_, rfl⟩, ⟨Nat.sub_pos_of_lt hserver, rfl⟩, nofun⟩,
    ⟨_, rfl⟩, ⟨Nat.sub_pos_of_lt hclient, rfl⟩, nofun⟩, rfl, rfl⟩

/-- **Two large frames block both peers**: each is in the middle of a send of
64 KiB, its pipe full, and the other reads only once its own send is done. -/
theorem large_frames_block_both :
    ∃ run : List (Label Empty Unit × Peers Empty Unit),
      Run (Step commonPipes idleService "conn-1" oneAtATime) Peers.initial run ∧
      ∃ s ∈ states Peers.initial run, s.bothParked commonPipes ∧
        s.server.pc = .sending ⟨none, logMessage (letters 65536)⟩ ∧
        s.client.pc = .sending (storeCall (letters 65536)) := by
  have hlong : 65536 < quotedLength (letters 65536) := by
    rw [quotedLength_letters]
    omega
  exact frames_block_both (Nat.lt_trans hlong (logMessage_size _))
    (Nat.lt_trans hlong (storeCall_size _))

end TurboMcp.System
