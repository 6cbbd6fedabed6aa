import TurboMcp.Lib.Dict
import TurboMcp.Lib.Program
import TurboMcp.Lib.Runs

/-!
# Pools of programs over one shared state

A pool runs any number of programs against one shared state, in any order and
one effect at a time: an effect is what one thread does without the others
getting in between.  A thread that panics is gone, and leaves the state as the
panic left it.

A property of threads is kept by a step when the thread that moves keeps it and
the state change it makes does not disturb the others (`Threads.step`).
-/

namespace TurboMcp.Lib

/-- What performing an effect comes to. -/
inductive Outcome (S A : Type)
  | answer (a : A) (s : S)
  | panic (s : S)

def Outcome.state {S A : Type} : Outcome S A → S
  | answer _ s => s
  | panic s => s

/-- Events of kind `F` start threads; `C` settles what the state leaves open. -/
structure Machine (S E : Type) (R : E → Type) (F C : Type) where
  start : F → Program E R Unit
  /-- What the `n`th thread's effect does. -/
  exec : Nat → C → S → (e : E) → Outcome S (R e)

structure Pool (S E : Type) (R : E → Type) (F : Type) where
  shared : S
  /-- The live threads, by number. -/
  threads : Dict Nat (Program E R Unit)
  /-- What the threads were started for, in the order of their numbers. -/
  born : List F

inductive Act (F C : Type)
  | spawn (f : F)
  | run (n : Nat) (c : C)

variable {S E : Type} {R : E → Type} {F C : Type}

namespace Pool

def init (s : S) : Pool S E R F := ⟨s, Dict.empty, []⟩

/-- The number of the next thread. -/
def next (P : Pool S E R F) : Nat := P.born.length

def spawned (P : Pool S E R F) (f : F) (p : Program E R Unit) : Pool S E R F :=
  ⟨P.shared, P.threads.insert P.next p, P.born ++ [f]⟩

/-- The `n`th thread has ended, leaving `s`. -/
def ended (P : Pool S E R F) (n : Nat) (s : S) : Pool S E R F :=
  ⟨s, P.threads.remove n, P.born⟩

/-- The `n`th thread goes on as `p`, in `s`. -/
def resumed (P : Pool S E R F) (n : Nat) (s : S) (p : Program E R Unit) : Pool S E R F :=
  ⟨s, P.threads.insert n p, P.born⟩

/-- Every live thread has returned. -/
def Idle (P : Pool S E R F) : Prop := ∀ n p, P.threads.get n = some p → p = .ret ()

theorem idle_of_keys {P : Pool S E R F} (h : P.threads.keys = []) : P.Idle := by
  intro n p hget
  have hkey : n ∈ P.threads.keys := by
    rw [Dict.mem_keys, hget]
    rfl
  rw [h] at hkey
  cases hkey

theorem get_spawned (P : Pool S E R F) (f : F) (p : Program E R Unit) (n : Nat) :
    (P.spawned f p).threads.get n = if P.next = n then some p else P.threads.get n :=
  Dict.get_insert ..

theorem next_lt_spawned (P : Pool S E R F) (f : F) (p : Program E R Unit) :
    P.next < (P.spawned f p).next := by
  simp [next, spawned]

theorem get_ended (P : Pool S E R F) (n : Nat) (s : S) (m : Nat) :
    (P.ended n s).threads.get m = if n = m then none else P.threads.get m :=
  Dict.get_remove ..

theorem get_resumed (P : Pool S E R F) (n : Nat) (s : S) (p : Program E R Unit) (m : Nat) :
    (P.resumed n s p).threads.get m = if n = m then some p else P.threads.get m :=
  Dict.get_insert ..

end Pool

/-! ## Steps -/

namespace Machine

def step (m : Machine S E R F C) (P : Pool S E R F) : Act F C → Option (Pool S E R F)
  | .spawn f => some (P.spawned f (m.start f))
  | .run n c =>
      match P.threads.get n with
      | none => none
      | some (.ret _) => some (P.ended n P.shared)
      | some (.call e k) =>
          match m.exec n c P.shared e with
          | .answer r s => some (P.resumed n s (k r))
          | .panic s => some (P.ended n s)

def Step (m : Machine S E R F C) (P : Pool S E R F) (a : Act F C) (P' : Pool S E R F) : Prop :=
  m.step P a = some P'

/-- What a step can do. -/
inductive Stepped (m : Machine S E R F C) (P : Pool S E R F) : Act F C → Pool S E R F → Prop
  | spawn {f : F} :
      Stepped m P (.spawn f) (P.spawned f (m.start f))
  | finish {n : Nat} {c : C} (h : P.threads.get n = some (.ret ())) :
      Stepped m P (.run n c) (P.ended n P.shared)
  | answer {n : Nat} {c : C} {e : E} {k : R e → Program E R Unit} {r : R e} {s : S}
      (h : P.threads.get n = some (.call e k)) (hx : m.exec n c P.shared e = .answer r s) :
      Stepped m P (.run n c) (P.resumed n s (k r))
  | panic {n : Nat} {c : C} {e : E} {k : R e → Program E R Unit} {s : S}
      (h : P.threads.get n = some (.call e k)) (hx : m.exec n c P.shared e = .panic s) :
      Stepped m P (.run n c) (P.ended n s)

theorem Step.stepped {m : Machine S E R F C} {P P' : Pool S E R F} {a : Act F C}
    (h : m.Step P a P') : Stepped m P a P' := by
  unfold Step step at h
  split at h
  · cases h
    exact .spawn
  · split at h
    · cases h
    · rename_i hget
      cases h
      exact .finish hget
    · rename_i hget
      split at h
      · rename_i hx
        cases h
        exact .answer hget hx
      · rename_i hx
        cases h
        exact .panic hget hx

/-- The step of a thread whose effect is answered. -/
theorem Step.resumed {m : Machine S E R F C} {P P' : Pool S E R F} {n : Nat} {c : C} {e : E}
    {k : R e → Program E R Unit} {r : R e} {s : S} (h : m.Step P (.run n c) P')
    (hget : P.threads.get n = some (.call e k)) (hx : m.exec n c P.shared e = .answer r s) :
    P' = P.resumed n s (k r) := by
  simp only [Step, step, hget, hx, Option.some.injEq] at h
  exact h.symm

/-- The step where there is one. -/
def act (m : Machine S E R F C) (P : Pool S E R F) (a : Act F C) : Pool S E R F :=
  (m.step P a).getD P

theorem step_act {m : Machine S E R F C} {P : Pool S E R F} {a : Act F C}
    (h : (m.step P a).isSome = true) : m.Step P a (m.act P a) := by
  obtain ⟨P', hP'⟩ := Option.isSome_iff_exists.mp h
  show m.step P a = some ((m.step P a).getD P)
  rw [hP', Option.getD_some]

/-- The threads' numbers have all been handed out. -/
def Numbered (P : Pool S E R F) : Prop := ∀ n p, P.threads.get n = some p → n < P.next

/-! ### What threads were started for -/

theorem born_step {m : Machine S E R F C} {P P' : Pool S E R F} {a : Act F C}
    (h : m.Step P a P') : P.born <+: P'.born := by
  cases h.stepped with
  | spawn => exact List.prefix_append _ _
  | finish | answer | panic => exact List.prefix_refl _

theorem born_of_run {m : Machine S E R F C} {P : Pool S E R F} {tr : List (Act F C × Pool S E R F)}
    (hrun : Run m.Step P tr) : P.born <+: (final P tr).born := by
  induction tr generalizing P with
  | nil => exact List.prefix_refl _
  | cons x tr ih =>
      obtain ⟨a, P'⟩ := x
      obtain ⟨hstep, hrun⟩ := run_cons.mp hrun
      exact (born_step hstep).trans (ih hrun)

/-- The frames of a run's end are those of each of its steps, and more. -/
theorem born_of_mem_steps {m : Machine S E R F C} {P : Pool S E R F}
    {tr : List (Act F C × Pool S E R F)} (hrun : Run m.Step P tr) :
    ∀ x ∈ steps P tr, x.2.2.born <+: (final P tr).born := by
  induction tr generalizing P with
  | nil => exact nofun
  | cons y tr ih =>
      obtain ⟨a, P'⟩ := y
      obtain ⟨-, hrun⟩ := run_cons.mp hrun
      rw [steps_cons, List.forall_mem_cons]
      exact ⟨born_of_run hrun, ih hrun⟩

/-- A property of the shared state is kept when every effect keeps it. -/
theorem shared_step {m : Machine S E R F C} {P P' : Pool S E R F} {a : Act F C} {I : S → Prop}
    (h : m.Step P a P') (hI : I P.shared)
    (hexec : ∀ n c e k, a = .run n c → P.threads.get n = some (.call e k) →
      I (m.exec n c P.shared e).state) : I P'.shared := by
  cases h.stepped with
  | spawn => exact hI
  | finish hget => exact hI
  | answer hget hx =>
      have := hexec _ _ _ _ rfl hget
      rwa [hx] at this
  | panic hget hx =>
      have := hexec _ _ _ _ rfl hget
      rwa [hx] at this

end Machine

/-! ## Properties of threads -/

/-- Every live thread has the property, by what it was started for and in the
shared state as it is. -/
def Threads (J : S → Nat → F → Program E R Unit → Prop) (P : Pool S E R F) : Prop :=
  ∀ n p, P.threads.get n = some p → ∃ f, P.born[n]? = some f ∧ J P.shared n f p

theorem Threads.numbered {J : S → Nat → F → Program E R Unit → Prop} {P : Pool S E R F}
    (hP : Threads J P) : Machine.Numbered P := by
  intro n p hget
  obtain ⟨f, hf, -⟩ := hP n p hget
  exact (List.getElem?_eq_some_iff.mp hf).1

/-- **Thread rule**: a step keeps a property of threads when a new thread has
it, the thread that moves keeps it, and the others are not disturbed. -/
theorem Threads.step {m : Machine S E R F C} {P P' : Pool S E R F} {a : Act F C}
    {J : S → Nat → F → Program E R Unit → Prop} (h : m.Step P a P') (hP : Threads J P)
    (hspawn : ∀ f, a = .spawn f → J P.shared P.next f (m.start f))
    (hown : ∀ n f c e k r s, a = .run n c → P.threads.get n = some (.call e k) →
      P.born[n]? = some f → J P.shared n f (.call e k) →
      m.exec n c P.shared e = .answer r s → J s n f (k r))
    (hother : ∀ n c e k n' f p, a = .run n c → P.threads.get n = some (.call e k) →
      n' ≠ n → P.threads.get n' = some p → P.born[n']? = some f → J P.shared n' f p →
      J (m.exec n c P.shared e).state n' f p) :
    Threads J P' := by
  intro n' p hn'
  cases h.stepped with
  | spawn =>
      rw [Pool.get_spawned] at hn'
      split at hn'
      · rename_i heq
        subst heq
        cases hn'
        exact ⟨_, List.getElem?_concat_length .., hspawn _ rfl⟩
      · obtain ⟨f, hf, hJ⟩ := hP n' p hn'
        refine ⟨f, ?_, hJ⟩
        rw [Pool.spawned, List.getElem?_append_left (List.getElem?_eq_some_iff.mp hf).1]
        exact hf
  | finish hget =>
      rw [Pool.get_ended] at hn'
      split at hn'
      · cases hn'
      · exact hP n' p hn'
  | answer hget hx =>
      rw [Pool.get_resumed] at hn'
      split at hn'
      · rename_i heq
        subst heq
        cases hn'
        obtain ⟨f, hf, hJ⟩ := hP _ _ hget
        exact ⟨f, hf, hown _ f _ _ _ _ _ rfl hget hf hJ hx⟩
      · rename_i hne
        obtain ⟨f, hf, hJ⟩ := hP n' p hn'
        have := hother _ _ _ _ n' f p rfl hget (Ne.symm hne) hn' hf hJ
        rw [hx] at this
        exact ⟨f, hf, this⟩
  | panic hget hx =>
      rw [Pool.get_ended] at hn'
      split at hn'
      · cases hn'
      · rename_i hne
        obtain ⟨f, hf, hJ⟩ := hP n' p hn'
        have := hother _ _ _ _ n' f p rfl hget (Ne.symm hne) hn' hf hJ
        rw [hx] at this
        exact ⟨f, hf, this⟩

/-- Some live thread has the property. -/
def SomeThread (J : Nat → Program E R Unit → Prop) (P : Pool S E R F) : Prop :=
  ∃ n p, P.threads.get n = some p ∧ J n p

/-- **Some-thread rule**: a thread with the property has one that the step makes
of it, by its own move or by another's, unless the step comes to `D`. -/
theorem SomeThread.step {m : Machine S E R F C} {P P' : Pool S E R F} {a : Act F C}
    {J I : Nat → Program E R Unit → Prop} {D : Prop} (h : m.Step P a P')
    (hnum : Machine.Numbered P) (hP : SomeThread J P)
    (hret : ∀ n, ¬ J n (.ret ()))
    (hown : ∀ n c e k r s, a = .run n c → P.threads.get n = some (.call e k) →
      J n (.call e k) → m.exec n c P.shared e = .answer r s → I n (k r) ∨ D)
    (hpanic : ∀ n c e k s, a = .run n c → P.threads.get n = some (.call e k) →
      J n (.call e k) → m.exec n c P.shared e = .panic s → D)
    (hother : ∀ n p, P.threads.get n = some p → J n p → I n p ∨ D) :
    SomeThread I P' ∨ D := by
  obtain ⟨n', p, hget', hJ⟩ := hP
  -- a thread that does not move is still there
  have hstays (h' : P'.threads.get n' = some p) : SomeThread I P' ∨ D :=
    (hother n' p hget' hJ).imp_left fun hI => ⟨n', p, h', hI⟩
  cases h.stepped with
  | spawn =>
      refine hstays ?_
      rw [Pool.get_spawned, if_neg (Ne.symm (Nat.ne_of_lt (hnum n' p hget')))]
      exact hget'
  | @finish n c hget =>
      refine hstays ?_
      rw [Pool.get_ended, if_neg]
      · exact hget'
      · rintro rfl
        rw [hget] at hget'
        cases hget'
        exact hret n hJ
  | @answer n c e k r s hget hx =>
      by_cases hne : n = n'
      · subst hne
        rw [hget] at hget'
        cases hget'
        refine (hown _ _ _ _ _ _ rfl hget hJ hx).imp_left fun hI => ⟨n, _, ?_, hI⟩
        rw [Pool.get_resumed, if_pos rfl]
      · refine hstays ?_
        rw [Pool.get_resumed, if_neg hne]
        exact hget'
  | @panic n c e k s hget hx =>
      by_cases hne : n = n'
      · subst hne
        rw [hget] at hget'
        cases hget'
        exact Or.inr (hpanic _ _ _ _ _ rfl hget hJ hx)
      · refine hstays ?_
        rw [Pool.get_ended, if_neg hne]
        exact hget'

end TurboMcp.Lib
