import TurboMcp.Client.Correlation

/-!
# Dropped and stranded calls

A future that is dropped leaves its id in the table, until a response comes or
the connection ends.  A call that registers after the table was cleared, and
whose frame the dying actor's channel still takes, has nobody left to drop its
sender: it waits out its time.
-/

namespace TurboMcp.Client.Correlation

open TurboMcp.Core TurboMcp.Lib

variable {s t : State} {n : Nat}

/-! ## Dropped calls -/

/-- Every id in the table is a running call's. -/
def State.Tidy (s : State) : Prop :=
  ∀ id n, s.pending.get id = some n → (s.calls n).isDropped = false

/-- A future is dropped whose id is in the table. -/
def Leaks (s : State) (a : Label) : Prop :=
  ∃ n, a = .drop n ∧ s.pending.get (requestId n) = some n

theorem isDropped_iff {c : Call} : c.isDropped = true ↔ c.phase = .dropped := by
  unfold Call.isDropped
  split
  · rename_i h
    exact iff_of_true rfl h
  · rename_i h
    exact iff_of_false Bool.false_ne_true h

theorem drop_spec (hstep : Step s (.drop n) t) : t = s.setPhase n .dropped := by
  unfold Step step at hstep
  dsimp only at hstep
  split at hstep
  · cases hstep
    rfl
  · cases hstep

/-- Only its own drop makes a call a dropped one. -/
theorem dropped_step {a : Label} (hstep : Step s a t) (h : (t.calls n).isDropped = true) :
    (s.calls n).isDropped = true ∨ a = .drop n := by
  rw [isDropped_iff] at h ⊢
  cases hown : a.own with
  | some m =>
      obtain ⟨phase, hmoves⟩ := moves_of_own hstep hown
      rw [hmoves.calls] at h
      by_cases hn : n = m
      · subst hn
        rw [setPhase_self] at h
        exact .inr (hmoves.drops h)
      · rw [setPhase_ne s m phase hn] at h
        exact .inl h
  | none =>
      rcases (rests_of_not_own hstep hown).phase n with hphase | ⟨-, -, hphase⟩
      · exact .inl (hphase ▸ h)
      · rw [hphase] at h
        cases h

/-- What is in the table was there before, or is the id of the call that starts. -/
theorem pending_step {a : Label} (hstep : Step s a t) {id : RequestId}
    (hget : t.pending.get id = some n) :
    s.pending.get id = some n ∨ a = .request ∧ (t.calls n).phase = .registered := by
  cases hown : a.own with
  | some m =>
      obtain ⟨phase, hmoves⟩ := moves_of_own hstep hown
      exact .inl (hmoves.pending id n hget)
  | none =>
      rcases (rests_of_not_own hstep hown).pending id n hget with hget | ⟨rfl, rfl⟩
      · exact .inl hget
      · refine .inr ⟨rfl, ?_⟩
        cases hstep
        show (Function.update s.calls s.next _ s.next).phase = .registered
        rw [Function.update_self]

theorem tidy_step_iff {a : Label} (h : s.Sound) (hstep : Step s a t) (htidy : s.Tidy) :
    t.Tidy ↔ ¬ Leaks s a := by
  constructor
  · rintro ht ⟨n, rfl, hget⟩
    have hspec := drop_spec hstep
    have hnot := ht (requestId n) n (by rw [hspec]; exact hget)
    rw [hspec, setPhase_self] at hnot
    cases hnot
  · intro hleaks id n hget
    rw [← Bool.not_eq_true]
    intro hdropped
    rcases pending_step hstep hget with hold | ⟨-, hphase⟩
    · rcases dropped_step hstep hdropped with hdropped | rfl
      · rw [htidy id n hold] at hdropped
        cases hdropped
      · exact hleaks ⟨n, rfl, h.eq_of_get hold rfl⟩
    · rw [isDropped_iff, hphase] at hdropped
      cases hdropped

theorem sent_spec (hstep : Step s (.sent n) t) :
    s.actor ≠ .gone ∧ t = s.setPhase n .awaiting := by
  unfold Step step at hstep
  dsimp only at hstep
  split at hstep
  · split at hstep
    · cases hstep
    · rename_i hgone
      cases hstep
      exact ⟨hgone, rfl⟩
  · cases hstep

/-- Another call's move leaves a call's id where it is. -/
theorem get_of_other {a : Label} (hstep : Step s a t) {m : Nat} (hown : a.own = some m)
    (hn : n ≠ m) : t.pending.get (requestId n) = s.pending.get (requestId n) := by
  unfold Step step at hstep
  cases a with
  | request | frame | deliver | stop | clear | leave => cases hown
  | forget k =>
      cases hown
      dsimp only at hstep
      split at hstep
      · cases hstep
        show (s.pending.remove (requestId m)).get (requestId n) = _
        rw [Dict.get_remove, if_neg fun heq => hn (requestId_injective heq).symm]
      · cases hstep
  | sent k =>
      obtain ⟨-, rfl⟩ := sent_spec hstep
      rfl
  | refused k | lost k =>
      dsimp only at hstep
      split at hstep
      · split at hstep
        · cases hstep
          rfl
        · cases hstep
      · cases hstep
  | receive k | elapse k | drop k =>
      dsimp only at hstep
      split at hstep
      · cases hstep
        rfl
      · cases hstep

/-- The id of a dropped call is in the table. -/
structure State.Leaked (s : State) (n : Nat) : Prop where
  held : s.pending.get (requestId n) = some n
  dropped : (s.calls n).phase = .dropped

/-- The call's response arrives, or the table is cleared. -/
def Label.releases (n : Nat) : Label → Prop
  | .frame resp => resp.id = requestId n
  | .clear => True
  | _ => False

/-- A dropped call makes no move. -/
theorem own_ne_of_dropped {a : Label} (hstep : Step s a t) (hphase : (s.calls n).phase = .dropped) :
    a.own ≠ some n := by
  intro hown
  unfold Step step at hstep
  cases a with
  | request | frame | deliver | stop | clear | leave => cases hown
  | drop m =>
      cases hown
      dsimp only at hstep
      unfold Call.isOpen at hstep
      rw [hphase] at hstep
      cases hstep
  | sent m | refused m | forget m | receive m | lost m | elapse m =>
      cases hown
      dsimp only at hstep
      rw [hphase] at hstep
      cases hstep

/-- **Step lemma**: a dropped call's id stays until the call's response arrives or the
table is cleared. -/
theorem leaked_step_iff {a : Label} (h : s.Sound) (hstep : Step s a t) (hleaked : s.Leaked n) :
    t.Leaked n ↔ ¬ a.releases n := by
  obtain ⟨hget, hphase⟩ := hleaked
  cases hown : a.own with
  | some m =>
      have hne : n ≠ m := fun heq => own_ne_of_dropped hstep hphase (heq ▸ hown)
      obtain ⟨phase, hmoves⟩ := moves_of_own hstep hown
      refine iff_of_true ⟨(get_of_other hstep hown hne).trans hget, ?_⟩ ?_
      · rw [hmoves.calls, setPhase_ne s m phase hne]
        exact hphase
      · cases a with
        | request | frame | deliver | stop | clear | leave => cases hown
        | sent | refused | forget | receive | lost | elapse | drop => exact id
  | none =>
      have hrests := rests_of_not_own hstep hown
      have hdropped : (t.calls n).phase = .dropped := by
        rcases hrests.phase n with hsame | ⟨-, rfl, -⟩
        · exact hsame.trans hphase
        · rw [(h.fresh s.next (Nat.le_refl _)).1] at hphase
          cases hphase
      have hkept : t.pending.get (requestId n) = some n ↔ ¬ a.releases n := by
        unfold Step step at hstep
        cases a with
        | sent | refused | forget | receive | lost | elapse | drop => cases hown
        | request =>
            cases hstep
            refine iff_of_true ?_ id
            have hne : requestId s.next ≠ requestId n := by
              intro heq
              rw [← requestId_injective heq, (h.fresh s.next (Nat.le_refl _)).1] at hphase
              cases hphase
            show (s.pending.insert (requestId s.next) s.next).get (requestId n) = some n
            rw [Dict.get_insert, if_neg hne]
            exact hget
        | frame resp =>
            dsimp only at hstep
            split at hstep
            · cases hstep
              show (s.pending.remove resp.id).get (requestId n) = some n ↔ resp.id ≠ requestId n
              rw [Dict.get_remove]
              split
              · rename_i heq
                exact iff_of_false (by simp) (absurd heq)
              · rename_i hne
                exact iff_of_true hget hne
            · cases hstep
        | deliver =>
            obtain ⟨x, -, hstep⟩ := Option.map_eq_some_iff.mp hstep
            cases hstep
            refine iff_of_true ?_ id
            show (s.accept x.1 x.2).pending.get (requestId n) = some n
            rw [pending_accept]
            exact hget
        | clear =>
            dsimp only at hstep
            split at hstep
            · cases hstep
              exact iff_of_false (by simp) fun hnot => hnot trivial
            · cases hstep
        | stop | leave =>
            dsimp only at hstep
            split at hstep
            · cases hstep
              exact iff_of_true hget id
            · cases hstep
      exact ⟨fun ht => hkept.mp ht.held, fun hnot => ⟨hkept.mpr hnot, hdropped⟩⟩

/-- **Run lemma**: a future that is dropped with its id in the table leaks all along
what follows exactly as long as neither its response arrives nor the table is
cleared. -/
theorem leaked_iff {after : List (Label × State)} (h : s.Sound) (hstep : Step s (.drop n) t)
    (hget : s.pending.get (requestId n) = some n) (hrun : Run Step t after) :
    (∀ u ∈ states t after, u.Leaked n) ↔ ∀ x ∈ steps t after, ¬ x.2.1.releases n := by
  have hspec := drop_spec hstep
  have hleaked : t.Leaked n := by
    rw [hspec]
    exact ⟨hget, by rw [setPhase_self]⟩
  exact hrun.forall_states_iff (I := State.Sound) (P := fun u => u.Leaked n)
    (G := fun _ a => ¬ a.releases n) (sound_step h hstep) hleaked
    (fun _ _ _ hstep h => sound_step h hstep) fun _ _ _ hstep h => leaked_step_iff h hstep

/-- **Leaks**: all along a run the table holds ids of running calls only, if and only if no
future is dropped while its id is in the table; and such a future leaks until its response
arrives or the actor ends and clears the table. -/
theorem tidy_iff {tr : List (Label × State)} (hrun : Run Step initial tr) :
    ((∀ s ∈ states initial tr, s.Tidy) ↔ ∀ x ∈ steps initial tr, ¬ Leaks x.1 x.2.1) ∧
    ∀ before n t after, tr = before ++ (.drop n, t) :: after →
      (final initial before).pending.get (requestId n) = some n →
        ((∀ u ∈ states t after, u.Leaked n) ↔ ∀ x ∈ steps t after, ¬ x.2.1.releases n) := by
  constructor
  · refine hrun.forall_states_iff (I := State.Sound) (G := fun s a => ¬ Leaks s a) sound_initial ?_
      (fun s a t hstep h => sound_step h hstep)
      fun s a t hstep h htidy => tidy_step_iff h hstep htidy
    intro id n hget
    cases hget
  · rintro before n t after rfl hget
    obtain ⟨hbefore, hrest⟩ := run_append.mp hrun
    obtain ⟨hstep, hafter⟩ := run_cons.mp hrest
    have hsound := sound_run hbefore _ (final_mem_states initial before)
    exact leaked_iff hsound hstep hget hafter

/-- The second call's id stays in the table, whatever else is answered. -/
theorem tidy_answeredTwice :
    (¬ ∀ s ∈ states initial (trace act initial answeredTwice), s.Tidy) ∧
      (final initial (trace act initial answeredTwice)).Leaked 1 := by
  obtain ⟨htidy, hleaks⟩ := tidy_iff answeredTwice_run
  let before := trace act initial (answeredTwice.take 6)
  let s := act (final initial before) (.drop 1)
  have hsplit : trace act initial answeredTwice =
      before ++ (.drop 1, s) :: trace act s (answeredTwice.drop 7) := rfl
  have hget : (final initial before).pending.get (requestId 1) = some 1 := by decide +kernel
  constructor
  · rw [htidy]
    intro h
    refine h (final initial before, .drop 1, s) ?_ ⟨1, rfl, hget⟩
    rw [hsplit, steps_append, steps_cons]
    exact List.mem_append_right _ List.mem_cons_self
  · have hstays : ∀ u ∈ states s (trace act s (answeredTwice.drop 7)), u.Leaked 1 := by
      refine (hleaks before 1 s _ hsplit hget).mpr fun x hx => ?_
      -- what is left is a second answer to the first call, and its return
      rcases List.mem_cons.mp hx with rfl | hx
      · exact fun h => nomatch requestId_injective (m := 0) (n := 1) h
      · rw [List.mem_singleton.mp hx]
        exact id
    rw [hsplit, final_append]
    exact hstays _ (final_mem_states _ _)

/-! ## The end of the connection -/

/-- The table has been cleared. -/
def State.isCleared (s : State) : Prop := s.actor = .cleared ∨ s.actor = .gone

/-- The call waits for a response that cannot come, with a sender nobody will drop. -/
structure State.Stranded (s : State) (n : Nat) : Prop where
  cleared : s.isCleared
  awaiting : (s.calls n).phase = .awaiting
  held : s.pending.get (requestId n) = some n

/-- A frame is taken for a call that registered after the table was cleared. -/
def Strands (s : State) (a : Label) : Prop :=
  ∃ n, a = .sent n ∧ s.actor = .cleared ∧ s.pending.get (requestId n) = some n

/-- A call waits after its frame was taken. -/
theorem awaiting_step {a : Label} (hstep : Step s a t) (h : (t.calls n).phase = .awaiting) :
    (s.calls n).phase = .awaiting ∨ a = .sent n := by
  cases hown : a.own with
  | some m =>
      obtain ⟨phase, hmoves⟩ := moves_of_own hstep hown
      rw [hmoves.calls] at h
      by_cases hn : n = m
      · subst hn
        rw [setPhase_self] at h
        exact .inr (hmoves.awaits h).1
      · rw [setPhase_ne s m phase hn] at h
        exact .inl h
  | none =>
      rcases (rests_of_not_own hstep hown).phase n with hphase | ⟨-, -, hphase⟩
      · exact .inl (hphase ▸ h)
      · rw [hphase] at h
        cases h

/-- Past the clearing the actor stays there; the clearing leaves nothing in the table. -/
theorem cleared_step {a : Label} (hstep : Step s a t) (h : t.isCleared) :
    s.isCleared ∨ t.pending = Dict.empty := by
  cases hown : a.own with
  | some m =>
      obtain ⟨phase, hmoves⟩ := moves_of_own hstep hown
      unfold State.isCleared at h ⊢
      rw [← hmoves.actor]
      exact .inl h
  | none =>
      rcases (rests_of_not_own hstep hown).actor with hactor | rfl | ⟨-, hempty⟩ | ⟨-, hactor⟩
      · unfold State.isCleared at h ⊢
        rw [← hactor]
        exact .inl h
      · unfold Step step at hstep
        dsimp only at hstep
        split at hstep
        · cases hstep
          rcases h with h | h
          · cases h
          · cases h
        · cases hstep
      · exact .inr hempty
      · exact .inl (.inl hactor)

theorem stranded_step_iff {a : Label} (hstep : Step s a t) (hnone : ∀ n, ¬ s.Stranded n) :
    (∀ n, ¬ t.Stranded n) ↔ ¬ Strands s a := by
  constructor
  · rintro ht ⟨n, rfl, hactor, hget⟩
    obtain ⟨-, rfl⟩ := sent_spec hstep
    exact ht n ⟨.inl hactor, congrArg Call.phase (setPhase_self ..), hget⟩
  · rintro hstrands n ⟨hcleared, hawaiting, hget⟩
    have hold : s.pending.get (requestId n) = some n := by
      rcases pending_step hstep hget with hold | ⟨-, hphase⟩
      · exact hold
      · rw [hphase] at hawaiting
        cases hawaiting
    rcases cleared_step hstep hcleared with hcleared | hempty
    · rcases awaiting_step hstep hawaiting with hawaiting | rfl
      · exact hnone n ⟨hcleared, hawaiting, hold⟩
      · obtain ⟨hgone, -⟩ := sent_spec hstep
        exact hstrands ⟨n, rfl, hcleared.resolve_right hgone, hold⟩
    · rw [hempty] at hget
      cases hget

/-- The label ends the call's waiting without its timeout. -/
def Label.settles (n : Nat) : Label → Bool
  | .refused m | .forget m | .receive m | .lost m => m = n
  | _ => false

/-- Once the actor is gone a call that is not stranded goes on by itself. -/
theorem settles_of_gone (h : s.Sound) (hgone : s.actor = .gone)
    (hwaiting : (s.calls n).waiting = true) (hstranded : ¬ s.Stranded n) :
    ∃ a t, a.settles n = true ∧ Step s a t := by
  have hhand : s.hand = none := h.halted (by rw [hgone]; exact ActorPc.noConfusion)
  -- By what the call waits for: room in the channel, its response, or the lock to forget its id.
  rcases hphase : (s.calls n).phase with _ | _ | _ | e | out | _
  · unfold Call.waiting at hwaiting
    rw [hphase] at hwaiting
    cases hwaiting
  · refine ⟨.refused n, s.setPhase n (.giving .closed), decide_eq_true rfl, ?_⟩
    show step s (.refused n) = _
    simp only [step, hphase, hgone, if_true]
  · rcases hslot : (s.calls n).slot with _ | resp
    · -- No sender is left anywhere: not in the table, nor in the actor's hand.
      have hnone : s.pending.get (requestId n) = none := by
        rcases hget : s.pending.get (requestId n) with _ | m
        · rfl
        · have hm := requestId_injective (h.keyed _ m hget).1
          subst hm
          exact absurd ⟨.inr hgone, hphase, hget⟩ hstranded
      refine ⟨.lost n, s.setPhase n (.returned (.error .closed)), decide_eq_true rfl, ?_⟩
      show step s (.lost n) = _
      simp [step, hphase, hslot, State.senderless, hnone, hhand]
    · refine ⟨.receive n, s.setPhase n (.returned (completePending resp)), decide_eq_true rfl, ?_⟩
      show step s (.receive n) = _
      simp only [step, hphase, hslot]
  · refine ⟨.forget n, { s.setPhase n (.returned (.error e)) with
      pending := s.pending.remove (requestId n) }, decide_eq_true rfl, ?_⟩
    show step s (.forget n) = _
    simp only [step, hphase]
  · unfold Call.waiting at hwaiting
    rw [hphase] at hwaiting
    cases hwaiting
  · unfold Call.waiting at hwaiting
    rw [hphase] at hwaiting
    cases hwaiting

/-- A stranded call's own moves are to run out of time and to be dropped. -/
theorem own_of_stranded {a : Label} (h : s.Sound) (hstep : Step s a t) (hstranded : s.Stranded n)
    (hown : a.own = some n) : a = .elapse n ∨ a = .drop n := by
  obtain ⟨-, hphase, hget⟩ := hstranded
  unfold Step step at hstep
  cases a with
  | request | frame | deliver | stop | clear | leave => cases hown
  | elapse m =>
      cases hown
      exact .inl rfl
  | drop m =>
      cases hown
      exact .inr rfl
  | receive m =>
      cases hown
      dsimp only at hstep
      split at hstep
      · rename_i resp _ hslot
        rw [(h.filled n resp hslot).2.1] at hget
        cases hget
      · cases hstep
  | lost m =>
      cases hown
      dsimp only at hstep
      split at hstep
      · split at hstep
        · rename_i hsenderless
          unfold State.senderless at hsenderless
          rw [hget] at hsenderless
          cases hsenderless
        · cases hstep
      · cases hstep
  | sent m | refused m | forget m =>
      cases hown
      dsimp only at hstep
      rw [hphase] at hstep
      cases hstep

/-- **Step lemma**: a stranded call stays stranded until its time runs out or it is dropped. -/
theorem stranded_stays {a : Label} (h : s.Sound) (hstep : Step s a t) (hstranded : s.Stranded n)
    (helapse : a ≠ .elapse n) (hdrop : a ≠ .drop n) : t.Stranded n := by
  have hrunning : s.actor ≠ .running := by
    rcases hstranded.cleared with hactor | hactor
    · rw [hactor]
      exact ActorPc.noConfusion
    · rw [hactor]
      exact ActorPc.noConfusion
  cases hown : a.own with
  | some m =>
      by_cases hn : n = m
      · subst hn
        rcases own_of_stranded h hstep hstranded hown with rfl | rfl
        · exact absurd rfl helapse
        · exact absurd rfl hdrop
      · obtain ⟨phase, hmoves⟩ := moves_of_own hstep hown
        refine ⟨?_, ?_, (get_of_other hstep hown hn).trans hstranded.held⟩
        · unfold State.isCleared
          rw [hmoves.actor]
          exact hstranded.cleared
        · rw [hmoves.calls, setPhase_ne s m phase hn]
          exact hstranded.awaiting
  | none =>
      obtain ⟨hcleared, hawaiting, hget⟩ := hstranded
      unfold Step step at hstep
      cases a with
      | sent | refused | forget | receive | lost | elapse | drop => cases hown
      | request =>
          cases hstep
          have hne : n ≠ s.next := by
            rintro rfl
            rw [(h.fresh s.next (Nat.le_refl _)).1] at hawaiting
            cases hawaiting
          refine ⟨hcleared, ?_, ?_⟩
          · show (Function.update s.calls s.next _ n).phase = .awaiting
            rw [Function.update_of_ne hne]
            exact hawaiting
          · show (s.pending.insert (requestId s.next) s.next).get (requestId n) = some n
            rw [Dict.get_insert, if_neg fun heq => hne (requestId_injective heq).symm]
            exact hget
      | deliver =>
          obtain ⟨x, hhand, -⟩ := Option.map_eq_some_iff.mp hstep
          rw [h.halted hrunning] at hhand
          cases hhand
      | frame | stop =>
          dsimp only at hstep
          split at hstep
          · rename_i hactor
            exact absurd hactor.1 hrunning
          · cases hstep
      | clear =>
          dsimp only at hstep
          split at hstep
          · rename_i hactor
            rcases hcleared with hcleared | hcleared
            · cases hactor.symm.trans hcleared
            · cases hactor.symm.trans hcleared
          · cases hstep
      | leave =>
          dsimp only at hstep
          split at hstep
          · cases hstep
            exact ⟨.inr rfl, hawaiting, hget⟩
          · cases hstep

/-- **The end of a connection**: no call is ever stranded if and only if no frame is taken for
a call that registered after the table was cleared.  When the actor is gone every running call
that is not stranded goes on by itself; a stranded one stays so until its time runs out or its
caller drops it. -/
theorem closing {tr : List (Label × State)} (hrun : Run Step initial tr) :
    ((∀ s ∈ states initial tr, ∀ n, ¬ s.Stranded n) ↔
      ∀ x ∈ steps initial tr, ¬ Strands x.1 x.2.1) ∧
    (∀ s ∈ states initial tr, s.actor = .gone → ∀ n, (s.calls n).waiting = true →
      s.Stranded n ∨ ∃ a t, a.settles n = true ∧ Step s a t) ∧
    ∀ x ∈ steps initial tr, ∀ n, x.1.Stranded n → x.2.1 ≠ .elapse n → x.2.1 ≠ .drop n →
      x.2.2.Stranded n := by
  refine ⟨?_, ?_, ?_⟩
  · -- no invariant is needed here: a step is judged by the two states it joins
    refine hrun.forall_states_iff (I := fun _ => True) (P := fun s => ∀ n, ¬ s.Stranded n)
      (G := fun s a => ¬ Strands s a) trivial ?_ (fun _ _ _ _ _ => trivial)
      fun s a t hstep _ hnone => stranded_step_iff hstep hnone
    rintro n ⟨-, hphase, -⟩
    cases hphase
  · intro s hs hgone n hwaiting
    by_cases hstranded : s.Stranded n
    · exact .inl hstranded
    · exact .inr (settles_of_gone (sound_run hrun s hs) hgone hwaiting hstranded)
  · intro x hx n hstranded helapse hdrop
    have hsound := sound_run hrun x.1 (source_mem_states hx)
    exact stranded_stays hsound (hrun x hx) hstranded helapse hdrop

/-- A call registers between the clearing of the table and the end of the receiver. -/
def registeredLate : List Label := [.stop, .clear, .request, .sent 0, .leave]

theorem registeredLate_run : Run Step initial (trace act initial registeredLate) :=
  run_of_enabled (by decide +kernel)

theorem closing_registeredLate :
    ¬ ∀ s ∈ states initial (trace act initial registeredLate), ∀ n, ¬ s.Stranded n := by
  rw [(closing registeredLate_run).1]
  intro h
  have hactor : (final initial (trace act initial (registeredLate.take 3))).actor = .cleared := by
    decide +kernel
  have hget : (final initial (trace act initial (registeredLate.take 3))).pending.get
      (requestId 0) = some 0 := by decide +kernel
  exact h (final initial (trace act initial (registeredLate.take 3)), .sent 0,
    act (final initial (trace act initial (registeredLate.take 3))) (.sent 0))
    (by simp [registeredLate, trace, steps, final]) ⟨0, rfl, hactor, hget⟩

end TurboMcp.Client.Correlation
