import TurboMcp.Lib.Pool
import TurboMcp.Lib.Protocol
import TurboMcp.Lib.Traces

/-!
# Pools that keep a log

The shared state is kept beside a log of all effects, each with the thread that
performed it, what its surroundings chose, and its answer.  A thread's own entries
are a trace of the program it was started with, so what every trace of a program
meets, the log of every run meets (`Logged.own_of_run`).  `Obeys` is the case where
each effect is allowed by the trace before it.
-/

namespace TurboMcp.Lib

variable {S E : Type} {R : E → Type} {F C α β : Type}

/-! ## Partial traces -/

namespace Program

/-- `p` has performed `tr` and goes on as `q`. -/
inductive Took : Program E R α → List (Σ e, R e) → Program E R α → Prop
  | refl (p : Program E R α) : Took p [] p
  | call {e : E} {k : R e → Program E R α} {r : R e} {tr : List (Σ e, R e)}
      {q : Program E R α} (h : Took (k r) tr q) : Took (call e k) (⟨e, r⟩ :: tr) q

theorem Took.concat {p : Program E R α} {tr : List (Σ e, R e)} {e : E}
    {k : R e → Program E R α} (h : Took p tr (.call e k)) (r : R e) :
    Took p (tr ++ [⟨e, r⟩]) (k r) := by
  generalize hq : Program.call e k = q at h
  induction h with
  | refl p =>
      subst hq
      exact .call (.refl _)
  | call _ ih => exact .call (ih hq)

/-- Each effect of a trace is allowed by what was performed before it. -/
def Obeys (allowed : List (Σ e, R e) → E → Prop) (tr : List (Σ e, R e)) : Prop :=
  ∀ before x after, tr = before ++ x :: after → allowed before x.1

/-- What a program has performed so far is all it knows. -/
def tracing (allowed : List (Σ e, R e) → E → Prop) : Protocol E R (List (Σ e, R e)) where
  allows := allowed
  after before e r := before ++ [⟨e, r⟩]

/-- What it may still perform follows on what it has. -/
theorem Follows.took {allowed : List (Σ e, R e) → E → Prop} {p q : Program E R α}
    {start tr : List (Σ e, R e)} {Q : List (Σ e, R e) → α → Prop}
    (h : Follows (tracing allowed) start p Q) (htook : Took p tr q) :
    Follows (tracing allowed) (start ++ tr) q Q := by
  induction htook generalizing start with
  | refl p => rwa [List.append_nil]
  | @call e k r tr q htook ih =>
      have hq : Follows (tracing allowed) ((start ++ [⟨e, r⟩]) ++ tr) q Q := ih (h.2 r)
      rwa [List.append_assoc] at hq

theorem Follows.obeys {allowed : List (Σ e, R e) → E → Prop} {p q : Program E R α}
    {start tr : List (Σ e, R e)} {Q : List (Σ e, R e) → α → Prop}
    (h : Follows (tracing allowed) start p Q) (htook : Took p tr q) :
    ∀ before x after, tr = before ++ x :: after → allowed (start ++ before) x.1 := by
  induction htook generalizing start with
  | refl p =>
      intro before x after hsplit
      cases before <;> cases hsplit
  | @call e k r tr q htook ih =>
      obtain ⟨hallowed, hk⟩ := h
      intro before x after hsplit
      rcases before with _ | ⟨y, before⟩
      · obtain ⟨rfl, rfl⟩ := List.cons.inj hsplit
        rw [List.append_nil]
        exact hallowed
      · obtain ⟨rfl, htr⟩ := List.cons.inj hsplit
        have hx : allowed ((start ++ [⟨e, r⟩]) ++ before) x.1 := ih (hk r) before x after htr
        rwa [List.append_assoc] at hx

/-! ### Effects of another kind -/

variable {E₀ : Type}

/-- Perform the effects of `p` under other names. -/
def lift (emb : E₀ → E) (p : Program E₀ (fun e => R (emb e)) α) : Program E R α :=
  p.expand fun e => perform (emb e)

@[simp] theorem lift_ret (emb : E₀ → E) (a : α) : lift (R := R) emb (ret a) = ret a := rfl

@[simp] theorem lift_call (emb : E₀ → E) (e : E₀)
    (k : R (emb e) → Program E₀ (fun e => R (emb e)) α) :
    lift emb (call e k) = call (emb e) fun r => lift emb (k r) := rfl

/-- A trace under other names. -/
def renamed (emb : E₀ → E) (tr : List (Σ e : E₀, R (emb e))) : List (Σ e, R e) :=
  tr.map fun x => ⟨emb x.1, x.2⟩

theorem mem_renamed {emb : E₀ → E} {tr : List (Σ e : E₀, R (emb e))} {e : E₀} {r : R (emb e)}
    (h : ⟨e, r⟩ ∈ tr) : (⟨emb e, r⟩ : Σ e, R e) ∈ renamed emb tr :=
  List.mem_map.mpr ⟨_, h, rfl⟩

theorem exists_performs [∀ e, Nonempty (R e)] (p : Program E R α) : ∃ tr a, Performs p tr a := by
  induction p with
  | ret a => exact ⟨[], a, .ret a⟩
  | call e k ih =>
      obtain ⟨r⟩ := ‹∀ e, Nonempty (R e)› e
      obtain ⟨tr, a, h⟩ := ih r
      exact ⟨⟨e, r⟩ :: tr, a, .call h⟩

/-- What stands in every trace is all that a program performs. -/
theorem wp_of_performs [∀ e, Nonempty (R e)] {C : E → Prop} {p : Program E R α}
    (h : ∀ tr a, Performs p tr a → ∀ x ∈ tr, C x.1) :
    wp C (fun _ _ => True) p fun _ => True := by
  induction p with
  | ret a => trivial
  | call e k ih =>
      refine ⟨?_, fun r _ => ih r fun tr a hperforms x hx => ?_⟩
      · obtain ⟨r⟩ := ‹∀ e, Nonempty (R e)› e
        obtain ⟨tr, a, hperforms⟩ := exists_performs (k r)
        exact h _ _ (.call hperforms) ⟨e, r⟩ List.mem_cons_self
      · exact h _ _ (.call (r := r) hperforms) x (List.mem_cons_of_mem _ hx)

/-- Where all its effects are allowed anyway, a program is known by its traces. -/
theorem follows_lift {allowed : List (Σ e, R e) → E → Prop} {emb : E₀ → E}
    {p : Program E₀ (fun e => R (emb e)) α} {start : List (Σ e, R e)}
    (h : wp (fun e => ∀ before, allowed before (emb e)) (fun _ _ => True) p fun _ => True) :
    Follows (tracing allowed) start (lift emb p) fun before a =>
      ∃ tr, before = start ++ renamed emb tr ∧ Performs p tr a := by
  induction p generalizing start with
  | ret a => exact ⟨[], (List.append_nil _).symm, .ret a⟩
  | call e k ih =>
      obtain ⟨he, hk⟩ := h
      refine ⟨he start, fun r => (ih r (hk r trivial)).mono ?_⟩
      rintro before a ⟨tr, rfl, hperforms⟩
      exact ⟨⟨e, r⟩ :: tr, List.append_assoc .., .call hperforms⟩

end Program

open Program

/-! ## Logs -/

/-- One effect of the `thread`th thread, under the choice `c`. -/
structure Logged (E : Type) (R : E → Type) (C : Type) where
  thread : Nat
  choice : C
  did : Σ e, R e

namespace Logged

/-- What the `n`th thread has performed. -/
def own (n : Nat) (log : List (Logged E R C)) : List (Σ e, R e) :=
  (log.filter (·.thread = n)).map (·.did)

@[simp] theorem own_nil (n : Nat) : own n ([] : List (Logged E R C)) = [] := rfl

theorem own_concat (n : Nat) (log : List (Logged E R C)) (x : Logged E R C) :
    own n (log ++ [x]) = if x.thread = n then own n log ++ [x.did] else own n log := by
  unfold own
  rw [List.filter_append, List.map_append]
  by_cases hx : x.thread = n
  · rw [if_pos hx, List.filter_cons_of_pos (by simpa using hx)]
    rfl
  · rw [if_neg hx, List.filter_cons_of_neg (by simpa using hx)]
    exact List.append_nil _

theorem own_append (n : Nat) (log more : List (Logged E R C)) :
    own n (log ++ more) = own n log ++ own n more := by
  unfold own
  rw [List.filter_append, List.map_append]

end Logged

namespace Machine

/-- The machine, its effects logged. -/
def logged (m : Machine S E R F C) : Machine (S × List (Logged E R C)) E R F C where
  start := m.start
  exec n c s e :=
    match m.exec n c s.1 e with
    | .answer r s' => .answer r (s', s.2 ++ [⟨n, c, e, r⟩])
    | .panic s' => .panic (s', s.2)

variable {m : Machine S E R F C}

/-- Each thread has taken what the log says of it, and nothing is logged of a thread
that has not been started. -/
def Tallied (m : Machine S E R F C) (P : Pool (S × List (Logged E R C)) E R F) : Prop :=
  (∀ n f, P.born[n]? = some f → ∃ q, Took (m.start f) (Logged.own n P.shared.2) q ∧
    ∀ p, P.threads.get n = some p → q = p) ∧
  (∀ x ∈ P.shared.2, x.thread < P.next) ∧ Machine.Numbered P

theorem tallied_init (s : S) : Tallied m (Pool.init (s, [])) := by
  refine ⟨?_, ?_, ?_⟩
  · intro n f hborn
    cases hborn
  · intro x hx
    cases hx
  · intro n p hget
    cases hget

theorem Tallied.spawn {P : Pool (S × List (Logged E R C)) E R F} (h : Tallied m P) (f : F) :
    Tallied m (P.spawned f (m.start f)) := by
  obtain ⟨htook, hlog, hnum⟩ := h
  have hlt := Pool.next_lt_spawned P f (m.start f)
  refine ⟨?_, fun x hx => Nat.lt_trans (hlog x hx) hlt, ?_⟩
  · intro n g hborn
    rw [Pool.spawned, List.getElem?_append] at hborn
    split at hborn
    · rename_i hn
      obtain ⟨q, hq, hlive⟩ := htook n g hborn
      have hne : P.next ≠ n := Nat.ne_of_gt hn
      refine ⟨q, hq, fun p hget => hlive p ?_⟩
      rwa [Pool.get_spawned, if_neg hne] at hget
    · rename_i hn
      -- the new thread has done nothing yet
      rw [List.getElem?_singleton] at hborn
      split at hborn
      · rename_i hzero
        obtain rfl := Option.some.inj hborn
        have hn : n = P.next := by
          unfold Pool.next
          omega
        subst hn
        have hnone : Logged.own P.next P.shared.2 = [] := by
          unfold Logged.own
          rw [List.filter_eq_nil_iff.mpr fun x hx hthread =>
            Nat.ne_of_lt (hlog x hx) (of_decide_eq_true hthread)]
          rfl
        refine ⟨m.start f, ?_, fun p hget => ?_⟩
        · show Took _ (Logged.own P.next P.shared.2) _
          rw [hnone]
          exact .refl _
        · rw [Pool.get_spawned, if_pos rfl] at hget
          exact Option.some.inj hget
      · cases hborn
  · intro n p hget
    rw [Pool.get_spawned] at hget
    split at hget
    · rename_i heq
      exact heq ▸ hlt
    · exact Nat.lt_trans (hnum n p hget) hlt

/-- A thread that is gone has performed no more. -/
theorem Tallied.ended {P : Pool (S × List (Logged E R C)) E R F} (h : Tallied m P) (n : Nat)
    {s : S × List (Logged E R C)} (hs : s.2 = P.shared.2) : Tallied m (P.ended n s) := by
  obtain ⟨htook, hlog, hnum⟩ := h
  refine ⟨fun n' f hborn => ?_, ?_, fun n' p hget => ?_⟩
  · obtain ⟨q, hq, hlive⟩ := htook n' f hborn
    refine ⟨q, ?_, fun p hget => hlive p ?_⟩
    · show Took _ (Logged.own n' s.2) _
      rwa [hs]
    · rw [Pool.get_ended] at hget
      split at hget
      · cases hget
      · exact hget
  · show ∀ x ∈ s.2, _
    rwa [hs]
  · rw [Pool.get_ended] at hget
    split at hget
    · cases hget
    · exact hnum n' p hget

/-- The thread that moves has performed one effect more. -/
theorem Tallied.resumed {P : Pool (S × List (Logged E R C)) E R F} (h : Tallied m P) {n : Nat}
    {e : E} {k : R e → Program E R Unit} (hget : P.threads.get n = some (.call e k)) (c : C)
    (r : R e) (s : S) :
    Tallied m (P.resumed n (s, P.shared.2 ++ [⟨n, c, e, r⟩]) (k r)) := by
  obtain ⟨htook, hlog, hnum⟩ := h
  refine ⟨fun n' f hborn => ?_, fun x hx => ?_, fun n' p hget' => ?_⟩
  · obtain ⟨q, hq, hlive⟩ := htook n' f hborn
    simp only [Pool.resumed, Logged.own_concat]
    by_cases hn : n = n'
    · subst hn
      obtain rfl := hlive _ hget
      refine ⟨k r, ?_, fun p hget' => ?_⟩
      · rw [if_pos rfl]
        exact hq.concat r
      · rw [Dict.get_insert, if_pos rfl] at hget'
        exact Option.some.inj hget'
    · refine ⟨q, ?_, fun p hget' => hlive p ?_⟩
      · rwa [if_neg hn]
      · rwa [Dict.get_insert, if_neg hn] at hget'
  · rcases List.mem_append.mp hx with hx | hx
    · exact hlog x hx
    · obtain rfl := List.mem_singleton.mp hx
      exact hnum n _ hget
  · rw [Pool.get_resumed] at hget'
    split at hget'
    · rename_i heq
      exact heq ▸ hnum n _ hget
    · exact hnum n' p hget'

theorem Tallied.step {P P' : Pool (S × List (Logged E R C)) E R F} {a : Act F C}
    (hstep : m.logged.Step P a P') (h : Tallied m P) : Tallied m P' := by
  cases hstep.stepped with
  | spawn => exact h.spawn _
  | finish hget => exact h.ended _ rfl
  | answer hget hx =>
      simp only [logged] at hx
      split at hx
      · cases hx
        exact h.resumed hget _ _ _
      · cases hx
  | panic hget hx =>
      simp only [logged] at hx
      split at hx
      · cases hx
      · cases hx
        exact h.ended _ rfl

theorem tallied_of_run {s : S}
    {tr : List (Act F C × Pool (S × List (Logged E R C)) E R F)}
    (hrun : Run m.logged.Step (Pool.init (s, [])) tr) :
    ∀ P ∈ states (Pool.init (s, [])) tr, Tallied m P :=
  hrun.invariant (tallied_init s) fun _ _ _ hstep => Tallied.step hstep

/-- **Traces in a run**: where every program obeys a rule, each thread of every run has
obeyed it. -/
theorem obeys_of_run {allowed : F → List (Σ e, R e) → E → Prop}
    (hstart : ∀ f, Follows (tracing (allowed f)) [] (m.start f) fun _ _ => True) {s : S}
    {tr : List (Act F C × Pool (S × List (Logged E R C)) E R F)}
    (hrun : Run m.logged.Step (Pool.init (s, [])) tr) :
    ∀ P ∈ states (Pool.init (s, [])) tr, ∀ n f, P.born[n]? = some f →
      Obeys (allowed f) (Logged.own n P.shared.2) := by
  intro P hP n f hborn before x after hsplit
  obtain ⟨q, htook, -⟩ := (tallied_of_run hrun P hP).1 n f hborn
  have hx := (hstart f).obeys htook before x after hsplit
  rwa [List.nil_append] at hx

/-- What is logged was performed in the state of the time. -/
theorem logged_invariant {I : S → List (Logged E R C) → Prop} {s : S} (hinit : I s [])
    (hanswer : ∀ s log n c e r s', I s log → m.exec n c s e = .answer r s' →
      I s' (log ++ [⟨n, c, e, r⟩]))
    (hpanic : ∀ s log n c e s', I s log → m.exec n c s e = .panic s' → I s' log)
    {tr : List (Act F C × Pool (S × List (Logged E R C)) E R F)}
    (hrun : Run m.logged.Step (Pool.init (s, [])) tr) :
    ∀ P ∈ states (Pool.init (s, [])) tr, I P.shared.1 P.shared.2 := by
  refine hrun.invariant hinit fun P a P' hstep hI => ?_
  refine shared_step (I := fun t : S × List (Logged E R C) => I t.1 t.2) hstep hI ?_
  intro n c e k _ hget
  show I (m.logged.exec n c P.shared e).state.1 (m.logged.exec n c P.shared e).state.2
  unfold logged
  rcases hexec : m.exec n c P.shared.1 e with ⟨r, s'⟩ | s'
  · simp only [hexec]
    exact hanswer _ _ _ _ _ _ _ hI hexec
  · simp only [hexec]
    exact hpanic _ _ _ _ _ _ hI hexec

/-- **Invariants of obedient threads**: an effect is performed in the state of the time,
by a thread whose own part of the log allows it. -/
theorem logged_invariant_obeying {allowed : F → List (Σ e, R e) → E → Prop}
    (hstart : ∀ f, Follows (tracing (allowed f)) [] (m.start f) fun _ _ => True)
    {I : List F → S → List (Logged E R C) → Prop} {s : S} (hinit : I [] s [])
    (hspawn : ∀ born f s log, I born s log → I (born ++ [f]) s log)
    (hanswer : ∀ born s log n f c e r s', I born s log → born[n]? = some f →
      allowed f (Logged.own n log) e → m.exec n c s e = .answer r s' →
      I born s' (log ++ [⟨n, c, e, r⟩]))
    (hpanic : ∀ born s log n c e s', I born s log → m.exec n c s e = .panic s' → I born s' log)
    {tr : List (Act F C × Pool (S × List (Logged E R C)) E R F)}
    (hrun : Run m.logged.Step (Pool.init (s, [])) tr) :
    ∀ P ∈ states (Pool.init (s, [])) tr, I P.born P.shared.1 P.shared.2 := by
  have hall := hrun.invariant
    (P := fun P : Pool (S × List (Logged E R C)) E R F =>
      Tallied m P ∧ I P.born P.shared.1 P.shared.2)
    ⟨tallied_init s, hinit⟩ ?_
  · exact fun P hP => (hall P hP).2
  rintro P a P' hstep ⟨htallied, hI⟩
  refine ⟨htallied.step hstep, ?_⟩
  cases hstep.stepped with
  | spawn => exact hspawn _ _ _ _ hI
  | finish hget => exact hI
  | @answer n e k c r s' hget hx =>
      -- what the thread is about to do is what its program, having done so much, goes on with
      obtain ⟨f, hborn⟩ : ∃ f, P.born[n]? = some f :=
        ⟨_, List.getElem?_eq_getElem (htallied.2.2 n _ hget)⟩
      obtain ⟨q, htook, hlive⟩ := htallied.1 n f hborn
      obtain rfl := hlive _ hget
      have hallowed := ((hstart f).took htook).1
      rw [List.nil_append] at hallowed
      simp only [logged] at hx
      split at hx
      · rename_i hexec
        cases hx
        exact hanswer _ _ _ _ f _ _ _ _ hI hborn hallowed hexec
      · cases hx
  | panic hget hx =>
      simp only [logged] at hx
      split at hx
      · cases hx
      · rename_i hexec
        cases hx
        exact hpanic _ _ _ _ _ _ _ hI hexec

end Machine

end TurboMcp.Lib
