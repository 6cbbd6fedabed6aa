import Mathlib.Data.List.Perm.Basic
import TurboMcp.Service.Driver

/-!
# What the driver delivers

Over a transport that works, the driver loses nothing and adds nothing: what it
hands on under a handler's number is the reply that handler returned, if it
returned one, and each handler's future is the one its frame was given, polled
to the end.
-/

namespace TurboMcp.Service

open TurboMcp.Core TurboMcp.Lib

variable {E C F : Type}

/-! ## Futures -/

/-- The future a poll leaves behind. -/
def Poll.next : Poll E F → Option F
  | .run f | .deliver _ f | .emit _ f | .wait _ f => some f
  | .ready _ => none

/-- `g` is what `f` becomes by polls whose choices satisfy `G`. -/
inductive McpService.Reaches (svc : McpService E C F) (G : F → C → Prop) : F → F → Prop
  | refl (f : F) : Reaches svc G f f
  | tail {f g h : F} {choice : C} {p : Poll E F} (hfg : Reaches svc G f g)
      (hG : G g choice) (hp : svc.poll g choice = some p) (hnext : p.next = some h) :
      Reaches svc G f h

/-- `f` runs to the end, where it is `g` and returns `out`. -/
def McpService.Returns (svc : McpService E C F) (G : F → C → Prop) (f g : F)
    (out : Except ProtocolError (Option JsonRpcMessage)) : Prop :=
  svc.Reaches G f g ∧ ∃ choice, G g choice ∧ svc.poll g choice = some (.ready out)

def Activity.future : Activity E F → F
  | .running f | .sending _ f | .waiting _ f | .replying _ f => f

/-! ## Messages on their way -/

/-- The message inside `transport.send`. -/
def Pc.inHand : Pc → List Outgoing
  | .sending out => [out]
  | _ => []

/-- Everything handed to the outbound channel, in order. -/
def State.outgoing (s : State E F) : List Outgoing :=
  s.written ++ s.pc.inHand ++ s.queue

/-- What was handed on as the reply of handler `n`. -/
def State.replies (s : State E F) (n : Nat) : List JsonRpcMessage :=
  (s.outgoing.filter (·.origin = some n)).map (·.message)

/-- The reply in what a handler returned. -/
def replyOf : Except ProtocolError (Option JsonRpcMessage) → List JsonRpcMessage
  | .ok (some reply) => [reply]
  | _ => []

/-- The handlers spawned so far, ended or not. -/
def State.nums (s : State E F) : List Nat :=
  s.tasks.map (·.num) ++ s.finished.map (·.num)

theorem replies_of_outgoing {s t : State E F} (h : t.outgoing = s.outgoing) (n : Nat) :
    t.replies n = s.replies n := by
  simp only [State.replies, h]

theorem replies_of_append {s t : State E F} {out : Outgoing}
    (h : t.outgoing = s.outgoing ++ [out]) (n : Nat) :
    t.replies n = s.replies n ++ if out.origin = some n then [out.message] else [] := by
  simp only [State.replies, h, List.filter_append, List.map_append]
  by_cases ho : out.origin = some n <;> simp [ho]

/-- The books of the driver: numbers are used once, a handler still at work has
handed nothing on, and one that ended exactly its reply. -/
structure State.Accounted (s : State E F) : Prop where
  nodup : s.nums.Nodup
  lt : ∀ n ∈ s.nums, n < s.started
  unused : ∀ n, s.started ≤ n → s.replies n = []
  pending : ∀ t ∈ s.tasks, s.replies t.num = []
  settled : ∀ r ∈ s.finished, s.replies r.num = replyOf r.out

theorem accounted_initial : (State.initial : State E F).Accounted where
  nodup := List.nodup_nil
  lt := fun _ hn => absurd hn List.not_mem_nil
  unused := fun _ _ => rfl
  pending := fun _ ht => absurd ht List.not_mem_nil
  settled := fun _ hr => absurd hr List.not_mem_nil

/-- The loop moves on: no handler ends, nothing new is a reply. -/
theorem State.Accounted.frame {s t : State E F} (h : s.Accounted) (hnums : t.nums = s.nums)
    (hstarted : t.started = s.started) (htasks : t.tasks.map (·.num) ⊆ s.tasks.map (·.num))
    (hfinished : t.finished = s.finished) (hreplies : ∀ n, t.replies n = s.replies n) :
    t.Accounted where
  nodup := hnums ▸ h.nodup
  lt := by
    rw [hnums, hstarted]
    exact h.lt
  unused := by
    intro n hn
    rw [hreplies]
    exact h.unused n (hstarted ▸ hn)
  pending := by
    intro u hu
    obtain ⟨v, hv, hnum⟩ := List.mem_map.mp (htasks (List.mem_map_of_mem hu))
    rw [hreplies, ← hnum]
    exact h.pending v hv
  settled := by
    intro r hr
    rw [hreplies]
    exact h.settled r (hfinished ▸ hr)

theorem map_num_set {tasks : List (Task E F)} {i : Nat} {t : Task E F}
    (ht : tasks[i]? = some t) (activity : Activity E F) :
    (tasks.set i { t with activity }).map (·.num) = tasks.map (·.num) := by
  obtain ⟨hi, rfl⟩ := List.getElem?_eq_some_iff.mp ht
  refine List.ext_getElem (by simp) fun j hj _ => ?_
  simp only [List.getElem_map, List.getElem_set]
  split
  · rename_i hij
    simp only [hij]
  · rfl

/-- A handler changes what it does. -/
theorem State.Accounted.set {s t : State E F} (h : s.Accounted) {i : Nat} {u : Task E F}
    {activity : Activity E F} (hu : s.tasks[i]? = some u) (hstarted : t.started = s.started)
    (htasks : t.tasks = s.tasks.set i { u with activity })
    (hfinished : t.finished = s.finished) (hreplies : ∀ n, t.replies n = s.replies n) :
    t.Accounted := by
  have hmap : t.tasks.map (·.num) = s.tasks.map (·.num) := by
    rw [htasks, map_num_set hu]
  exact h.frame (by simp only [State.nums, hmap, hfinished]) hstarted
    (hmap ▸ List.Subset.refl _) hfinished hreplies

theorem perm_eraseIdx {tasks : List (Task E F)} {i : Nat} {t : Task E F}
    (ht : tasks[i]? = some t) : (t :: tasks.eraseIdx i).Perm tasks := by
  obtain ⟨hi, rfl⟩ := List.getElem?_eq_some_iff.mp ht
  exact List.getElem_cons_eraseIdx_perm hi

/-- A handler ends with `out`, and its reply is handed on. -/
theorem State.Accounted.endTask {s t : State E F} (h : s.Accounted) {i : Nat}
    {u : Task E F} {r : Finished F} (hu : s.tasks[i]? = some u) (hnum : r.num = u.num)
    (hstarted : t.started = s.started) (htasks : t.tasks = s.tasks.eraseIdx i)
    (hfinished : t.finished = s.finished ++ [r])
    (hreplies : ∀ n, t.replies n = s.replies n ++ if n = u.num then replyOf r.out else []) :
    t.Accounted := by
  have hperm := perm_eraseIdx hu
  have hmem : u ∈ s.tasks := List.mem_of_getElem? hu
  have hnums : t.nums.Perm s.nums := by
    have hmap := hperm.map (·.num)
    simp only [State.nums, htasks, hfinished, List.map_append, List.map_cons, List.map_nil, hnum]
    refine List.Perm.trans ?_ (hmap.append_right _)
    rw [← List.append_assoc]
    exact List.perm_append_singleton _ _
  -- the number that ends is no other handler's
  have hne : ∀ n ∈ (s.tasks.eraseIdx i).map (·.num) ++ s.finished.map (·.num), n ≠ u.num := by
    have hall : (u.num :: ((s.tasks.eraseIdx i).map (·.num) ++ s.finished.map (·.num))).Nodup :=
      ((hperm.map Task.num).append_right (s.finished.map Finished.num)).nodup_iff.mpr h.nodup
    exact fun n hn heq => (List.nodup_cons.mp hall).1 (heq ▸ hn)
  refine ⟨hnums.nodup_iff.mpr h.nodup, fun n hn => ?_, fun n hn => ?_, fun v hv => ?_,
    fun r' hr' => ?_⟩
  · exact hstarted ▸ h.lt n (hnums.subset hn)
  · have hlt : u.num < s.started :=
      h.lt _ (List.mem_append_left _ (List.mem_map_of_mem hmem))
    rw [hreplies, h.unused n (hstarted ▸ hn), if_neg (by omega), List.append_nil]
  · rw [htasks] at hv
    have hvne := hne v.num (List.mem_append_left _ (List.mem_map_of_mem hv))
    rw [hreplies, h.pending v (List.mem_of_mem_eraseIdx hv), if_neg hvne, List.append_nil]
  · rw [hfinished, List.mem_append, List.mem_singleton] at hr'
    rcases hr' with hr' | rfl
    · have hrne := hne r'.num (List.mem_append_right _ (List.mem_map_of_mem hr'))
      rw [hreplies, h.settled r' hr', if_neg hrne, List.append_nil]
    · rw [hreplies, hnum, h.pending u hmem, if_pos rfl, List.nil_append]

variable {svc : McpService E C F} {connection : String} {config : ServeConfig}

/-- Reading a frame spawns a handler under a fresh number. -/
theorem State.Accounted.spawn {s : State E F} (h : s.Accounted) {msg : JsonRpcMessage}
    (hpc : s.pc = .readying msg) : (spawnTask svc connection config s msg).Accounted := by
  have hreplies : ∀ n, (spawnTask svc connection config s msg).replies n = s.replies n :=
    replies_of_outgoing (by simp [spawnTask, State.outgoing, hpc, Pc.inHand])
  have hfresh : s.started ∉ s.nums := fun hmem => Nat.lt_irrefl _ (h.lt _ hmem)
  have hnums : (spawnTask svc connection config s msg).nums.Perm (s.started :: s.nums) := by
    simp only [State.nums, spawnTask, List.map_append, List.map_cons, List.map_nil]
    rw [List.append_assoc]
    exact List.perm_middle
  refine ⟨hnums.nodup_iff.mpr (List.nodup_cons.mpr ⟨hfresh, h.nodup⟩), fun n hn => ?_,
    fun n hn => ?_, fun v hv => ?_, fun r hr => ?_⟩
  · rcases List.mem_cons.mp (hnums.subset hn) with rfl | hn
    · exact Nat.lt_succ_self _
    · exact Nat.lt_succ_of_lt (h.lt n hn)
  · rw [hreplies]
    exact h.unused n (Nat.le_of_succ_le hn)
  · rw [hreplies]
    rcases List.mem_append.mp hv with hv | hv
    · exact h.pending v hv
    · rw [List.mem_singleton.mp hv]
      exact h.unused _ (Nat.le_refl _)
  · rw [hreplies]
    exact h.settled r hr

/-- Handler `i` is polled. -/
theorem State.Accounted.pollTask {s : State E F} (h : s.Accounted) {i : Nat} {t : Task E F}
    {f : F} {p : Poll E F} (ht : s.tasks[i]? = some t) :
    (pollTask s i t f p).Accounted := by
  cases p with
  | run f' => exact h.set ht rfl rfl rfl fun _ => rfl
  | deliver event f' => exact h.set ht rfl rfl rfl fun _ => rfl
  | emit message f' => exact h.set ht rfl rfl rfl fun _ => rfl
  | wait event f' => exact h.set ht rfl rfl rfl fun _ => rfl
  | ready out =>
      rcases out with e | _ | reply
      · exact h.endTask ht rfl rfl rfl rfl fun n => by simp [replyOf]; rfl
      · exact h.endTask ht rfl rfl rfl rfl fun n => by simp [replyOf]; rfl
      · exact h.set ht rfl rfl rfl fun _ => rfl

/-- An aborted handler leaves no trace. -/
theorem State.Accounted.abort {s : State E F} (h : s.Accounted) (i : Nat) :
    State.Accounted { s with tasks := s.tasks.eraseIdx i } := by
  have hsub : ((s.tasks.eraseIdx i).map (·.num) ++ s.finished.map (·.num)).Sublist s.nums :=
    ((List.eraseIdx_sublist s.tasks i).map _).append_right _
  exact ⟨hsub.nodup h.nodup, fun n hn => h.lt n (hsub.subset hn), h.unused,
    fun v hv => h.pending v (List.mem_of_mem_eraseIdx hv), h.settled⟩

variable [DecidableEq E]

/-! ## What the channel accepts -/

/-- The message a handler is suspended in sending. -/
def Task.offers (t : Task E F) : List Outgoing :=
  match t.activity with
  | .sending message _ => [⟨none, message⟩]
  | .replying reply _ => [⟨some t.num, reply⟩]
  | _ => []

/-- What a step puts into the outbound channel. -/
def State.accepts (s : State E F) : Label E C → List Outgoing
  | .resume i => ((s.tasks[i]?).map Task.offers).getD []
  | .push msg => [⟨none, msg⟩]
  | _ => []

/-- **Step lemma**: unless a send fails, what was handed to the channel only
grows by what it accepts. -/
theorem Step.outgoing {s t : State E F} {a : Label E C}
    (hstep : Step svc connection config s a t) (hworks : a ≠ .sendFailed) :
    t.outgoing = s.outgoing ++ s.accepts a := by
  have quiet {t : State E F} (h : t.outgoing = s.outgoing) : t.outgoing = s.outgoing ++ [] := by
    rw [List.append_nil]
    exact h
  have offers {i : Nat} {u : Task E F} (hu : s.tasks[i]? = some u) :
      s.accepts (.resume i : Label E C) = u.offers := by
    show ((s.tasks[i]?).map Task.offers).getD [] = _
    rw [hu]
    rfl
  cases hstep.move with
  | take hpc hqueue _ => exact quiet (by simp [State.outgoing, hpc, hqueue, Pc.inHand])
  | outboundEmpty hpc _ _ => exact quiet (by simp [State.outgoing, hpc, Pc.inHand])
  | shutdownSeen hpc => exact quiet (by simp [State.outgoing, hpc, Pc.inHand])
  | shutdownUnseen hpc => exact quiet (by simp [State.outgoing, hpc, Pc.inHand])
  | wake hpc => exact quiet (by simp [State.outgoing, hpc, Pc.inHand])
  | frame hpc => exact quiet (by simp [State.outgoing, hpc, Pc.inHand])
  | recvEnd hpc => exact quiet (by simp [State.outgoing, hpc, Pc.inHand])
  | sent hpc => exact quiet (by simp [State.outgoing, hpc, Pc.inHand])
  | sendFailed hpc => exact absurd rfl hworks
  | acquired hpc _ => exact quiet (by simp [State.outgoing, hpc, Pc.inHand])
  | ready hpc => exact quiet (by simp [spawnTask, State.outgoing, hpc, Pc.inHand])
  | notReady hpc => exact quiet (by simp [State.outgoing, hpc, Pc.inHand])
  | @poll i choice u f p hu hf hp =>
      refine quiet ?_
      rcases p with _ | _ | _ | _ | out
      iterate 4 rfl
      rcases out with _ | _ | _ <;> rfl
  | @emitted i u message f hu hf _ =>
      rw [offers hu, Task.offers, hf]
      simp [State.outgoing, State.pushOutgoing, State.setActivity]
  | @woken i u event f hu hf =>
      rw [offers hu, Task.offers, hf]
      exact quiet rfl
  | @replied i u reply f hu hf _ =>
      rw [offers hu, Task.offers, hf]
      simp [State.outgoing, State.pushOutgoing, State.endTask]
  | expired hu hf => exact quiet rfl
  | pushed _ _ => simp [State.outgoing, State.pushOutgoing, State.accepts]
  | fireShutdown => exact quiet rfl
  | drained _ _ => exact quiet rfl
  | deadline _ => exact quiet rfl
  | abort _ _ => exact quiet rfl
  | finish _ _ _ => exact quiet rfl

/-- **Step lemma**: unless a send fails, the books stay balanced. -/
theorem State.Accounted.step {s t : State E F} {a : Label E C} (h : s.Accounted)
    (hstep : Step svc connection config s a t) (hworks : a ≠ .sendFailed) : t.Accounted := by
  have hout := hstep.outgoing hworks
  have same (htasks : t.tasks = s.tasks) (hfinished : t.finished = s.finished)
      (hstarted : t.started = s.started) (hreplies : ∀ n, t.replies n = s.replies n) :
      t.Accounted :=
    h.frame (by simp only [State.nums, htasks, hfinished]) hstarted
      (htasks ▸ List.Subset.refl _) hfinished hreplies
  have quiet (haccepts : s.accepts a = []) : ∀ n, t.replies n = s.replies n := by
    rw [haccepts, List.append_nil] at hout
    exact replies_of_outgoing hout
  cases hstep.move with
  | take _ _ _ => exact same rfl rfl rfl (quiet rfl)
  | outboundEmpty _ _ _ => exact same rfl rfl rfl (quiet rfl)
  | shutdownSeen _ => exact same rfl rfl rfl (quiet rfl)
  | shutdownUnseen _ => exact same rfl rfl rfl (quiet rfl)
  | wake _ => exact same rfl rfl rfl (quiet rfl)
  | frame _ => exact same rfl rfl rfl (quiet rfl)
  | recvEnd _ => exact same rfl rfl rfl (quiet rfl)
  | sent _ => exact same rfl rfl rfl (quiet rfl)
  | sendFailed _ => exact absurd rfl hworks
  | acquired _ _ => exact same rfl rfl rfl (quiet rfl)
  | ready hpc => exact h.spawn hpc
  | notReady _ => exact same rfl rfl rfl (quiet rfl)
  | poll ht _ _ => exact h.pollTask ht
  | @emitted i u message f hu hf _ =>
      refine h.set hu rfl rfl rfl fun n => ?_
      rw [State.accepts, hu, Option.map_some, Option.getD_some, Task.offers, hf] at hout
      rw [replies_of_append hout n, if_neg (by simp), List.append_nil]
  | woken hu _ => exact h.set hu rfl rfl rfl fun _ => rfl
  | @replied i u reply f hu hf _ =>
      refine h.endTask hu rfl rfl rfl rfl fun n => ?_
      rw [State.accepts, hu, Option.map_some, Option.getD_some, Task.offers, hf] at hout
      rw [replies_of_append hout n]
      simp [replyOf, eq_comm]
  | expired hu _ => exact h.set hu rfl rfl rfl fun _ => rfl
  | @pushed msg _ _ =>
      refine same rfl rfl rfl fun n => ?_
      rw [replies_of_append hout n, if_neg (by simp), List.append_nil]
  | fireShutdown => exact same rfl rfl rfl (quiet rfl)
  | drained _ _ => exact same rfl rfl rfl (quiet rfl)
  | deadline _ => exact same rfl rfl rfl (quiet rfl)
  | abort _ _ => exact h.abort _
  | finish _ _ _ => exact same rfl rfl rfl (quiet rfl)

/-! ## Futures follow their frames -/

/-- Each handler's future comes from its frame, and what is being sent as its
reply is what it returned. -/
structure State.Follows (svc : McpService E C F) (connection : String)
    (config : ServeConfig) (G : F → C → Prop) (s : State E F) : Prop where
  tasks : ∀ t ∈ s.tasks,
    svc.Reaches G (svc.call (stampInbound connection config t.frame)) t.activity.future
  replying : ∀ t ∈ s.tasks, ∀ reply f, t.activity = .replying reply f →
    ∃ choice, G f choice ∧ svc.poll f choice = some (.ready (.ok (some reply)))
  finished : ∀ r ∈ s.finished,
    svc.Returns G (svc.call (stampInbound connection config r.frame)) r.future r.out

/-- Every poll of the run is made with a choice that `G` admits. -/
def PollsWithin (G : F → C → Prop) (s : State E F) : Label E C → Prop
  | .poll i choice =>
      ∀ t f, s.tasks[i]? = some t → t.activity = .running f → G f choice
  | _ => True

variable {G : F → C → Prop}

omit [DecidableEq E] in
theorem State.Follows.same {s t : State E F} (h : s.Follows svc connection config G)
    (htasks : t.tasks ⊆ s.tasks) (hfinished : t.finished = s.finished) :
    t.Follows svc connection config G where
  tasks := fun u hu => h.tasks u (htasks hu)
  replying := fun u hu => h.replying u (htasks hu)
  finished := fun r hr => h.finished r (hfinished ▸ hr)

omit [DecidableEq E] in
theorem State.Follows.set {s t : State E F} (h : s.Follows svc connection config G) {i : Nat}
    {u : Task E F} {activity : Activity E F}
    (htasks : t.tasks = s.tasks.set i { u with activity }) (hfinished : t.finished = s.finished)
    (hreach : svc.Reaches G (svc.call (stampInbound connection config u.frame)) activity.future)
    (hreplying : ∀ reply f, activity = .replying reply f →
      ∃ choice, G f choice ∧ svc.poll f choice = some (.ready (.ok (some reply)))) :
    t.Follows svc connection config G where
  tasks := by
    intro v hv
    rcases List.mem_or_eq_of_mem_set (htasks ▸ hv) with hv | rfl
    · exact h.tasks v hv
    · exact hreach
  replying := by
    intro v hv
    rcases List.mem_or_eq_of_mem_set (htasks ▸ hv) with hv | rfl
    · exact h.replying v hv
    · exact hreplying
  finished := fun r hr => h.finished r (hfinished ▸ hr)

omit [DecidableEq E] in
theorem State.Follows.endTask {s t : State E F} (h : s.Follows svc connection config G)
    {r : Finished F} (htasks : t.tasks ⊆ s.tasks) (hfinished : t.finished = s.finished ++ [r])
    (hr : svc.Returns G (svc.call (stampInbound connection config r.frame)) r.future r.out) :
    t.Follows svc connection config G where
  tasks := fun u hu => h.tasks u (htasks hu)
  replying := fun u hu => h.replying u (htasks hu)
  finished := by
    intro r' hr'
    rw [hfinished, List.mem_append, List.mem_singleton] at hr'
    rcases hr' with hr' | rfl
    · exact h.finished r' hr'
    · exact hr

/-- **Step lemma**: handlers keep to their futures. -/
theorem State.Follows.step {s t : State E F} {a : Label E C}
    (h : s.Follows svc connection config G) (hstep : Step svc connection config s a t)
    (hpolls : PollsWithin G s a) : t.Follows svc connection config G := by
  have future {i : Nat} {u : Task E F} (hu : s.tasks[i]? = some u) :=
    h.tasks u (List.mem_of_getElem? hu)
  cases hstep.move with
  | ready hpc =>
      refine ⟨fun v hv => ?_, fun v hv => ?_, h.finished⟩
      · rcases List.mem_append.mp hv with hv | hv
        · exact h.tasks v hv
        · rw [List.mem_singleton.mp hv]
          exact .refl _
      · rcases List.mem_append.mp hv with hv | hv
        · exact h.replying v hv
        · rw [List.mem_singleton.mp hv]
          exact fun reply f hf => nomatch hf
  | @poll i choice u f p hu hf hp =>
      have hG : G f choice := hpolls u f hu hf
      have hreach := future hu
      rw [hf] at hreach
      have hnext {g : F} (hg : p.next = some g) := hreach.tail hG hp hg
      cases p with
      | run g => exact h.set rfl rfl (hnext rfl) fun _ _ hf => nomatch hf
      | deliver event g => exact h.set rfl rfl (hnext rfl) fun _ _ hf => nomatch hf
      | emit message g => exact h.set rfl rfl (hnext rfl) fun _ _ hf => nomatch hf
      | wait event g => exact h.set rfl rfl (hnext rfl) fun _ _ hf => nomatch hf
      | ready out =>
          have hret : svc.Returns G _ f out := ⟨hreach, choice, hG, hp⟩
          rcases out with e | _ | reply
          · exact h.endTask List.eraseIdx_subset rfl hret
          · exact h.endTask List.eraseIdx_subset rfl hret
          · refine h.set rfl rfl hreach fun reply' f' heq => ?_
            cases heq
            exact ⟨choice, hG, hp⟩
  | emitted hu hf _ =>
      have hreach := future hu
      rw [hf] at hreach
      exact h.set rfl rfl hreach fun _ _ hf => nomatch hf
  | woken hu hf =>
      have hreach := future hu
      rw [hf] at hreach
      exact h.set rfl rfl hreach fun _ _ hf => nomatch hf
  | expired hu hf =>
      have hreach := future hu
      rw [hf] at hreach
      exact h.set rfl rfl hreach fun _ _ hf => nomatch hf
  | replied hu hf _ =>
      have hreach := future hu
      rw [hf] at hreach
      exact h.endTask List.eraseIdx_subset rfl
        ⟨hreach, h.replying _ (List.mem_of_getElem? hu) _ _ hf⟩
  | abort _ _ => exact h.same List.eraseIdx_subset rfl
  | _ => exact h.same (List.Subset.refl _) rfl

/-! ## Runs -/

/-- **Delivery**: over a working transport, in every state of a run, what the
driver handed on under an ended handler's number is exactly the reply its
frame's future returned. -/
theorem delivers {run : List (Label E C × State E F)}
    (hrun : Run (Step svc connection config) State.initial run)
    (hworks : ∀ x ∈ steps State.initial run, x.2.1 ≠ .sendFailed)
    (hpolls : ∀ x ∈ steps State.initial run, PollsWithin G x.1 x.2.1) :
    ∀ s ∈ states State.initial run, ∀ r ∈ s.finished, s.replies r.num = replyOf r.out ∧
      svc.Returns G (svc.call (stampInbound connection config r.frame)) r.future r.out := by
  have hinitial : (State.initial : State E F).Follows svc connection config G :=
    ⟨fun _ ht => absurd ht List.not_mem_nil, fun _ ht => absurd ht List.not_mem_nil,
      fun _ hr => absurd hr List.not_mem_nil⟩
  have haccounted := hrun.invariant_of_guard (G := fun _ a => a ≠ .sendFailed) hworks
    accounted_initial fun _ _ _ hstep hw h => h.step hstep hw
  have hfollows := hrun.invariant_of_guard hpolls hinitial
    fun _ _ _ hstep hp h => h.step hstep hp
  exact fun s hs r hr => ⟨(haccounted s hs).settled r hr, (hfollows s hs).finished r hr⟩

/-- A driver that has closed is at rest: nothing is left to write, or to do. -/
def State.Shut (s : State E F) : Prop :=
  s.phase = .closed → s.pc = .select ∧ s.queue = [] ∧ s.tasks = []

theorem State.Shut.step {s t : State E F} {a : Label E C} (h : s.Shut)
    (hstep : Step svc connection config s a t) (hworks : a ≠ .sendFailed) : t.Shut := by
  have busy {pc : Pc} (hpc : s.pc = pc) (hne : pc ≠ .select) : s.phase ≠ .closed :=
    fun hphase => hne (hpc.symm.trans (h hphase).1)
  have notask {i : Nat} {u : Task E F} (hu : s.tasks[i]? = some u) : s.phase ≠ .closed := by
    intro hphase
    rw [(h hphase).2.2] at hu
    cases hu
  cases hstep.move with
  | take _ _ hphase => exact fun hp => absurd hp hphase
  | outboundEmpty _ _ hphase => exact fun hp => absurd (hphase.symm.trans hp) Phase.noConfusion
  | shutdownSeen _ => exact fun hp => nomatch hp
  | shutdownUnseen hpc => exact fun hp => absurd hp (busy hpc Pc.noConfusion)
  | wake hpc => exact fun hp => absurd hp (busy hpc Pc.noConfusion)
  | frame hpc => exact fun hp => absurd hp (busy hpc Pc.noConfusion)
  | recvEnd _ => exact fun hp => nomatch hp
  | sent hpc => exact fun hp => absurd hp (busy hpc Pc.noConfusion)
  | sendFailed _ => exact absurd rfl hworks
  | acquired hpc _ => exact fun hp => absurd hp (busy hpc Pc.noConfusion)
  | ready hpc => exact fun hp => absurd hp (busy hpc Pc.noConfusion)
  | notReady _ => exact fun hp => nomatch hp
  | @poll i choice u f p hu _ _ =>
      have hphase : (Service.pollTask s i u f p).phase = s.phase := by
        rcases p with _ | _ | _ | _ | out
        iterate 4 rfl
        rcases out with _ | _ | _ <;> rfl
      exact fun hp => absurd (hphase ▸ hp) (notask hu)
  | emitted hu _ _ => exact fun hp => absurd hp (notask hu)
  | woken hu _ => exact fun hp => absurd hp (notask hu)
  | replied hu _ _ => exact fun hp => absurd hp (notask hu)
  | expired hu _ => exact fun hp => absurd hp (notask hu)
  | pushed hphase _ => exact fun hp => absurd hp hphase
  | fireShutdown => exact h
  | drained _ _ => exact fun hp => nomatch hp
  | deadline _ => exact fun hp => nomatch hp
  | abort hphase _ => exact fun hp => absurd (hphase.symm.trans hp) Phase.noConfusion
  | finish hpc hqueue htasks => exact fun _ => ⟨hpc, hqueue, htasks⟩

omit [DecidableEq E] in
theorem State.Shut.written {s : State E F} (h : s.Shut) (hclosed : s.phase = .closed) :
    s.outgoing = s.written := by
  obtain ⟨hpc, hqueue, -⟩ := h hclosed
  simp [State.outgoing, hpc, hqueue, Pc.inHand]

/-- Once the driver has closed, all that was handed on is written. -/
theorem closed_written {run : List (Label E C × State E F)}
    (hrun : Run (Step svc connection config) State.initial run)
    (hworks : ∀ x ∈ steps State.initial run, x.2.1 ≠ .sendFailed) :
    ∀ s ∈ states State.initial run, s.phase = .closed → s.outgoing = s.written := by
  have hshut : ∀ s ∈ states State.initial run, s.Shut :=
    hrun.invariant_of_guard (G := fun _ a => a ≠ .sendFailed) hworks (fun h => nomatch h)
      fun s a t hstep hw h => h.step hstep hw
  exact fun s hs => (hshut s hs).written

end TurboMcp.Service
