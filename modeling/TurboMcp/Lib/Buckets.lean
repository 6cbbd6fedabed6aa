import Mathlib.Logic.Function.Basic
import Mathlib.Order.Lattice
import TurboMcp.Lib.Dict

/-!
# Keyed buckets

A keyed limiter charges a bucket for each key, and now and then forgets buckets.
Its laws (`KeyedLimiter.Lawful`) say what its operations do to the bucket each key
has; a bucket may be forgotten once it is charged as none would be.  Then each key
is served as by a bucket of its own that is never forgotten and that nobody else
charges (`KeyedLimiter.Mirrors`).
-/

namespace TurboMcp.Lib

/-- What charging a bucket at a time comes to: the verdict, and the bucket then. -/
structure BucketRule (B V : Type) where
  charge : Nat → Option B → V × B

variable {κ S B V : Type}

namespace BucketRule

/-- What a private bucket answers when it is charged at these times. -/
def answers (rule : BucketRule B V) : Option B → List Nat → List V
  | _, [] => []
  | b, t :: ts => (rule.charge t b).1 :: answers rule (some (rule.charge t b).2) ts

/-- What becomes of a private bucket. -/
def charged (rule : BucketRule B V) : Option B → List Nat → Option B
  | b, [] => b
  | b, t :: ts => charged rule (some (rule.charge t b).2) ts

theorem answers_append (rule : BucketRule B V) (b : Option B) (ts ts' : List Nat) :
    rule.answers b (ts ++ ts') = rule.answers b ts ++ rule.answers (rule.charged b ts) ts' := by
  induction ts generalizing b with
  | nil => rfl
  | cons t ts ih => exact congrArg _ (ih _)

theorem charged_append (rule : BucketRule B V) (b : Option B) (ts ts' : List Nat) :
    rule.charged b (ts ++ ts') = rule.charged (rule.charged b ts) ts' := by
  induction ts generalizing b with
  | nil => rfl
  | cons t ts ih => exact ih _

/-- From `now` on, the two buckets are charged alike. -/
def ChargedAlike (rule : BucketRule B V) (now : Nat) (b b' : Option B) : Prop :=
  b = b' ∨ ∀ later, now ≤ later → rule.charge later b = rule.charge later b'

variable {rule : BucketRule B V} {now later : Nat} {b b' b'' : Option B}

theorem ChargedAlike.charge (h : rule.ChargedAlike now b b') (hle : now ≤ later) :
    rule.charge later b = rule.charge later b' := by
  rcases h with rfl | h
  · rfl
  · exact h later hle

theorem ChargedAlike.weaken (h : rule.ChargedAlike now b b') (hle : now ≤ later) :
    rule.ChargedAlike later b b' :=
  h.imp_right fun h t ht => h t (Nat.le_trans hle ht)

theorem ChargedAlike.trans (h : rule.ChargedAlike now b b') (h' : rule.ChargedAlike now b' b'') :
    rule.ChargedAlike now b b'' := by
  refine .inr fun later hle => ?_
  rw [h.charge hle, h'.charge hle]

end BucketRule

/-! ## The keyed limiter -/

/-- The operations of a keyed limiter. -/
structure KeyedLimiter (κ S V : Type) where
  new : S
  checkKey : Nat → κ → S → V × S
  retainRecent : Nat → S → S

namespace KeyedLimiter

/-- The limiter keeps its keys apart, each with the bucket that `view` shows of it:
a check charges the bucket of its key and no other, and a bucket is forgotten only
when it is, from then on, charged as a fresh one. -/
structure Lawful (limiter : KeyedLimiter κ S V) (rule : BucketRule B V) (view : S → κ → Option B) :
    Prop where
  fresh : ∀ key, view limiter.new key = none
  answer : ∀ now key s, (limiter.checkKey now key s).1 = (rule.charge now (view s key)).1
  charged : ∀ now key s,
    view (limiter.checkKey now key s).2 key = some (rule.charge now (view s key)).2
  apart : ∀ now key s key', key' ≠ key → view (limiter.checkKey now key s).2 key' = view s key'
  retained : ∀ now s key, view (limiter.retainRecent now s) key = view s key ∨
    view (limiter.retainRecent now s) key = none ∧ rule.ChargedAlike now none (view s key)

variable {limiter : KeyedLimiter κ S V} {rule : BucketRule B V} {view : S → κ → Option B} {s : S}

/-- From `now` on, each key's bucket is charged as the private one of these charges. -/
def Mirrors (rule : BucketRule B V) (view : S → κ → Option B) (now : Nat)
    (charges : κ → List Nat) (s : S) : Prop :=
  ∀ key, rule.ChargedAlike now (view s key) (rule.charged none (charges key))

variable {now later : Nat} {charges : κ → List Nat}

theorem Lawful.mirrors_new (h : limiter.Lawful rule view) (now : Nat) :
    Mirrors rule view now (fun _ => []) limiter.new :=
  fun key => .inl (h.fresh key)

/-- A key is answered as its private bucket answers it. -/
theorem Mirrors.answer (hs : Mirrors rule view now charges s) (h : limiter.Lawful rule view)
    (key : κ) :
    (limiter.checkKey now key s).1 = (rule.charge now (rule.charged none (charges key))).1 := by
  rw [h.answer, (hs key).charge (Nat.le_refl now)]

/-- A check at `now` keeps what is mirrored from any time on. -/
theorem Mirrors.checkKey [DecidableEq κ] (hs : Mirrors rule view later charges s)
    (h : limiter.Lawful rule view) (hnow : Mirrors rule view now charges s) (key : κ) :
    Mirrors rule view later (Function.update charges key (charges key ++ [now]))
      (limiter.checkKey now key s).2 := by
  intro key'
  by_cases hkey : key' = key
  · subst hkey
    left
    rw [h.charged, Function.update_self, BucketRule.charged_append,
      (hnow key').charge (Nat.le_refl now)]
    rfl
  · rw [h.apart now key s key' hkey, Function.update_of_ne hkey]
    exact hs key'

theorem Mirrors.retainRecent (hs : Mirrors rule view later charges s)
    (h : limiter.Lawful rule view) (hle : now ≤ later) :
    Mirrors rule view later charges (limiter.retainRecent now s) := by
  intro key
  rcases h.retained now s key with hkept | ⟨hnone, halike⟩
  · rw [hkept]
    exact hs key
  · rw [hnone]
    exact (halike.weaken hle).trans (hs key)

end KeyedLimiter

/-! ## The generic cell rate algorithm, over a table -/

/-- A bucket of `burst` cells, one of which comes back every `period`: it keeps the time
at which it is full again. -/
def gcra (period burst : Nat) : BucketRule Nat (Option Nat) where
  charge now b :=
    let full := max now (b.getD now)
    if full + period ≤ now + burst * period then (none, full + period)
    else (some (full + period - (now + burst * period)), full)

variable [DecidableEq κ]

def gcraLimiter (period burst : Nat) : KeyedLimiter κ (Dict κ Nat) (Option Nat) where
  new := Dict.empty
  checkKey now key buckets :=
    let (verdict, bucket) := (gcra period burst).charge now (buckets.get key)
    (verdict, buckets.insert key bucket)
  retainRecent now buckets := buckets.retain fun _ full => now < full

theorem gcraLimiter_lawful (period burst : Nat) :
    (gcraLimiter period burst : KeyedLimiter κ _ _).Lawful (gcra period burst) Dict.get where
  fresh _ := rfl
  answer _ _ _ := rfl
  charged now key buckets := Dict.get_insert_self ..
  apart now key buckets key' hne := (Dict.get_insert ..).trans (if_neg hne.symm)
  retained now buckets key := by
    simp only [gcraLimiter, Dict.get_retain]
    rcases hget : buckets.get key with _ | full
    · exact .inl rfl
    · -- A bucket that is full again is charged as a fresh one.
      by_cases hrecent : now < full
      · exact .inl (Option.filter_some_pos (decide_eq_true hrecent))
      · refine .inr ⟨Option.filter_some_neg (by simpa using hrecent), .inr fun later hle => ?_⟩
        have hfull : full ≤ later := by omega
        simp only [gcra, Option.getD_some, Option.getD_none, max_eq_left hfull, max_self]

end TurboMcp.Lib
