import Mathlib.Data.List.Forall2

/-!
# Fuel

A recursion that may run for ever is followed for so many calls, and gives up with
nothing.  Where more fuel changes no answer, the answer is a matter of the input
alone; a list of inputs with an answer each has enough fuel for all of them.
-/

namespace TurboMcp.Lib

variable {α β : Type*} {f : Nat → α → Option β}

/-- More fuel changes no answer. -/
def Lasting (f : Nat → α → Option β) : Prop :=
  ∀ n a b, f n a = some b → f (n + 1) a = some b

/-- With enough fuel, `b` is the answer. -/
def Settles (f : Nat → α → Option β) (a : α) (b : β) : Prop := ∃ n, f n a = some b

theorem Lasting.le (hf : Lasting f) {n k : Nat} (hle : n ≤ k) {a : α} {b : β}
    (h : f n a = some b) : f k a = some b := by
  induction hle with
  | refl => exact h
  | step _ ih => exact hf _ a b ih

theorem Settles.unique (hf : Lasting f) {a : α} {b c : β} (hb : Settles f a b)
    (hc : Settles f a c) : b = c := by
  obtain ⟨n, hb⟩ := hb
  obtain ⟨k, hc⟩ := hc
  have hmax := (hf.le (Nat.le_max_left n k) hb).symm.trans (hf.le (Nat.le_max_right n k) hc)
  exact Option.some.inj hmax

/-! ## Lists -/

theorem mapM_eq_some_iff {g : α → Option β} {l : List α} {l' : List β} :
    l.mapM g = some l' ↔ List.Forall₂ (fun a b => g a = some b) l l' := by
  induction l generalizing l' with
  | nil =>
      constructor
      · rintro ⟨⟩
        exact .nil
      · rintro ⟨⟩
        rfl
  | cons a l ih =>
      rw [List.mapM_cons]
      constructor
      · intro h
        obtain ⟨b, hb, h⟩ := Option.bind_eq_some_iff.mp h
        obtain ⟨bs, hbs, h⟩ := Option.bind_eq_some_iff.mp h
        cases h
        exact .cons hb (ih.mp hbs)
      · rintro (_ | ⟨hb, hbs⟩)
        rw [hb, ih.mpr hbs]
        rfl

theorem Lasting.mapM (hf : Lasting f) : Lasting fun n (l : List α) => l.mapM (f n) := by
  intro n l l' h
  rw [mapM_eq_some_iff] at h ⊢
  exact h.imp fun a b => hf n a b

/-- Enough fuel for each is enough for all. -/
theorem settles_mapM_iff (hf : Lasting f) {l : List α} {l' : List β} :
    Settles (fun n (l : List α) => l.mapM (f n)) l l' ↔ List.Forall₂ (Settles f) l l' := by
  constructor
  · rintro ⟨n, h⟩
    exact (mapM_eq_some_iff.mp h).imp fun a b hab => ⟨n, hab⟩
  · intro h
    induction h with
    | nil => exact ⟨0, rfl⟩
    | @cons a b l l' hb _ ih =>
        obtain ⟨n, hb⟩ := hb
        obtain ⟨k, hbs⟩ := ih
        refine ⟨max n k, ?_⟩
        show (a :: l).mapM (f (max n k)) = some (b :: l')
        rw [List.mapM_cons, hf.le (Nat.le_max_left n k) hb,
          hf.mapM.le (Nat.le_max_right n k) (a := l) hbs]
        rfl

theorem exists_forall₂ {R : α → β → Prop} {l : List α} (h : ∀ a ∈ l, ∃ b, R a b) :
    ∃ l', List.Forall₂ R l l' := by
  induction l with
  | nil => exact ⟨[], .nil⟩
  | cons a l ih =>
      obtain ⟨b, hb⟩ := h a List.mem_cons_self
      obtain ⟨bs, hbs⟩ := ih fun a ha => h a (List.mem_cons_of_mem _ ha)
      exact ⟨b :: bs, .cons hb hbs⟩

theorem forall₂_mem_left {R : α → β → Prop} {l : List α} {l' : List β} (h : List.Forall₂ R l l')
    {a : α} (ha : a ∈ l) : ∃ b ∈ l', R a b := by
  induction h with
  | nil => cases ha
  | @cons a' b l l' hab _ ih =>
      rcases List.mem_cons.mp ha with rfl | ha
      · exact ⟨b, List.mem_cons_self, hab⟩
      · obtain ⟨b', hb', hab'⟩ := ih ha
        exact ⟨b', List.mem_cons_of_mem _ hb', hab'⟩

theorem forall₂_mem_right {R : α → β → Prop} {l : List α} {l' : List β}
    (h : List.Forall₂ R l l') {b : β} (hb : b ∈ l') : ∃ a ∈ l, R a b :=
  forall₂_mem_left h.flip hb

theorem forall₂_split {R : α → β → Prop} {l : List α} {bs cs : List β} {b : β}
    (h : List.Forall₂ R l (bs ++ b :: cs)) :
    ∃ before a after, l = before ++ a :: after ∧ List.Forall₂ R before bs ∧ R a b := by
  induction bs generalizing l with
  | nil =>
      rcases h with _ | ⟨hab, -⟩
      exact ⟨[], _, _, rfl, .nil, hab⟩
  | cons b' bs ih =>
      rcases h with _ | ⟨hab, hrest⟩
      obtain ⟨before, a, after, rfl, hbefore, ha⟩ := ih hrest
      exact ⟨_ :: before, a, after, rfl, .cons hab hbefore, ha⟩

end TurboMcp.Lib
