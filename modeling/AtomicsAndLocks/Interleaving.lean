import Mathlib.Algebra.BigOperators.Group.Multiset.Basic
import Mathlib.Algebra.Order.BigOperators.Group.Multiset
import Mathlib.Algebra.Order.Group.Nat
import Mathlib.Logic.Relation

/-! # Interleavings of interchangeable threads — the execution model

    A shared-memory program run by any number of threads is a configuration:
    the shared memory and the multiset of the threads' local states.  One step
    is one atomic action of one thread (`solo`), or a hand-off that moves two
    threads at once (`duo`: a value passed from one thread to another, a futex
    wake).  Every interleaving of the threads' atomic actions is a path of
    `Step`, so a property of every reachable configuration is a property of
    every order of steps, for any number of threads.

    Threads are anonymous, so the counting facts a proof needs are sums over
    the multiset (`tally`), and a step changes a tally only at the threads it
    moves.  Nothing here names a particular program: a model instantiates
    `solo` and `duo` with its own step relations. -/

namespace Interleaving

open Relation

/-- The shared memory and the local states of the threads. -/
structure Conf (S L : Type) where
  shared : S
  threads : Multiset L

variable {S L : Type}

/-- No hand-offs: the threads of a program that only ever act alone. -/
def noHandOff : S → L → L → S → L → L → Prop := fun _ _ _ _ _ _ => False

section Steps

variable (solo : S → L → S → L → Prop) (duo : S → L → L → S → L → L → Prop)

/-- One atomic step of the whole program: one thread acts alone, or two threads
    act together; every other thread keeps its local state. -/
inductive Step : Conf S L → Conf S L → Prop
  | solo {sh sh' : S} {t t' : L} (rest : Multiset L) :
      solo sh t sh' t' → Step ⟨sh, t ::ₘ rest⟩ ⟨sh', t' ::ₘ rest⟩
  | duo {sh sh' : S} {t u t' u' : L} (rest : Multiset L) :
      duo sh t u sh' t' u' → Step ⟨sh, t ::ₘ u ::ₘ rest⟩ ⟨sh', t' ::ₘ u' ::ₘ rest⟩

variable {solo duo}

/-- A step neither creates nor ends a thread. -/
theorem Step.card_eq {c c' : Conf S L} (h : Step solo duo c c') :
    Multiset.card c'.threads = Multiset.card c.threads := by
  cases h with
  | solo rest _ => simp
  | duo rest _ => simp

/-- Runs keep the number of threads. -/
theorem card_eq_of_reach {c c' : Conf S L} (h : ReflTransGen (Step solo duo) c c') :
    Multiset.card c'.threads = Multiset.card c.threads := by
  induction h with
  | refl => rfl
  | tail _ hstep ih => rw [hstep.card_eq, ih]

/-- **BOUNDED INVARIANT**: a predicate kept by every step taken while the
    number of threads meets a bound holds at the end of every run that ends
    within the bound. -/
theorem invariant_of_reach_card {B : Nat → Prop} {P : Conf S L → Prop}
    (hstep : ∀ a b, B (Multiset.card a.threads) → P a → Step solo duo a b → P b)
    {a b : Conf S L} (hr : ReflTransGen (Step solo duo) a b) (ha : P a)
    (hB : B (Multiset.card b.threads)) : P b := by
  induction hr with
  | refl => exact ha
  | tail _ hs ih =>
      -- no step changes the number of threads, so the bound holds all along
      have hB' := hs.card_eq ▸ hB
      exact hstep _ _ hB' (ih hB') hs

/-- One step of a single thread, whatever the others are doing. -/
theorem reach_solo {sh sh' : S} {t t' : L} (rest : Multiset L)
    (h : solo sh t sh' t') :
    ReflTransGen (Step solo duo) ⟨sh, t ::ₘ rest⟩ ⟨sh', t' ::ₘ rest⟩ :=
  ReflTransGen.single (Step.solo rest h)

/-- One hand-off between two threads, whatever the others are doing. -/
theorem reach_duo {sh sh' : S} {t u t' u' : L} (rest : Multiset L)
    (h : duo sh t u sh' t' u') :
    ReflTransGen (Step solo duo) ⟨sh, t ::ₘ u ::ₘ rest⟩ ⟨sh', t' ::ₘ u' ::ₘ rest⟩ :=
  ReflTransGen.single (Step.duo rest h)

/-- **MANY THREADS, ONE STEP EACH**: if a thread in local state `a` can step to
    `b` while the shared memory moves from `mem i` to `mem (i + 1)`, for each
    of the first `k` values of `i`, then `k` threads in state `a` reach state
    `b` one after another. -/
theorem reach_replicate (mem : Nat → S) {a b : L} :
    ∀ (k : Nat), (∀ i < k, solo (mem i) a (mem (i + 1)) b) → ∀ (rest : Multiset L),
      ReflTransGen (Step solo duo) ⟨mem 0, Multiset.replicate k a + rest⟩
        ⟨mem k, Multiset.replicate k b + rest⟩ := by
  intro k
  induction k with
  | zero => intro _ rest; exact ReflTransGen.refl
  | succ k ih =>
      intro h rest
      -- the first `k` threads move past a waiting `a`-thread, which moves last
      have h1 : Multiset.replicate (k + 1) a + rest
          = Multiset.replicate k a + a ::ₘ rest := by
        rw [Multiset.replicate_succ, Multiset.cons_add, Multiset.add_cons]
      have h2 : Multiset.replicate k b + a ::ₘ rest
          = a ::ₘ (Multiset.replicate k b + rest) := Multiset.add_cons ..
      have h3 : Multiset.replicate (k + 1) b + rest
          = b ::ₘ (Multiset.replicate k b + rest) := by
        rw [Multiset.replicate_succ, Multiset.cons_add]
      rw [h1, h3]
      refine (ih (fun i hi => h i (Nat.lt_succ_of_lt hi)) (a ::ₘ rest)).trans ?_
      rw [h2]
      exact reach_solo _ (h k (Nat.lt_succ_self k))

end Steps

/-- **INDUCTIVE INVARIANT**: a predicate that holds at the start and is kept by
    every step holds at the end of every run. -/
theorem invariant_of_reach {α : Type} {R : α → α → Prop} {P : α → Prop}
    (hstep : ∀ a b, P a → R a b → P b) {a b : α} (hr : ReflTransGen R a b)
    (ha : P a) : P b := by
  induction hr with
  | refl => exact ha
  | tail _ hab ih => exact hstep _ _ ih hab

/-! ## Tallies over the threads -/

/-- The sum of `f` over the threads: how many strong references they hold, how
    many of them stand at some program point, and so on. -/
def tally (f : L → Nat) (m : Multiset L) : Nat := (m.map f).sum

@[simp] theorem tally_zero (f : L → Nat) : tally f 0 = 0 := by
  simp [tally]

@[simp] theorem tally_cons (f : L → Nat) (t : L) (m : Multiset L) :
    tally f (t ::ₘ m) = f t + tally f m := by
  simp [tally]

@[simp] theorem tally_add (f : L → Nat) (m m' : Multiset L) :
    tally f (m + m') = tally f m + tally f m' := by
  simp [tally, Multiset.map_add, Multiset.sum_add]

@[simp] theorem tally_replicate (f : L → Nat) (k : Nat) (t : L) :
    tally f (Multiset.replicate k t) = k * f t := by
  simp [tally]

/-- Tallying the images of the threads is tallying the threads. -/
theorem tally_map {L' : Type} (f : L → Nat) (g : L' → L) (m : Multiset L') :
    tally f (m.map g) = tally (fun t => f (g t)) m := by
  simp [tally, Multiset.map_map]

/-- The tally of a sum of shares is the sum of the tallies. -/
theorem tally_add_shares (f g : L → Nat) (m : Multiset L) :
    tally (fun t => f t + g t) m = tally f m + tally g m := by
  simp [tally, Multiset.sum_map_add]

/-- One thread's share is at most the tally. -/
theorem le_tally {f : L → Nat} {t : L} {m : Multiset L} (h : t ∈ m) :
    f t ≤ tally f m := by
  obtain ⟨rest, rfl⟩ := Multiset.exists_cons_of_mem h
  rw [tally_cons]
  omega

/-- The tally split at one thread: its share and the others'. -/
theorem tally_erase [DecidableEq L] (f : L → Nat) {t : L} {m : Multiset L} (h : t ∈ m) :
    tally f m = f t + tally f (m.erase t) := by
  conv_lhs => rw [← Multiset.cons_erase h]
  exact tally_cons f t (m.erase t)

/-- Tallies are monotone in the share. -/
theorem tally_le_tally {f g : L → Nat} {m : Multiset L} (h : ∀ t ∈ m, f t ≤ g t) :
    tally f m ≤ tally g m :=
  Multiset.sum_map_le_sum_map f g h

/-- A tally vanishes exactly when every thread's share does. -/
theorem tally_eq_zero {f : L → Nat} {m : Multiset L} :
    tally f m = 0 ↔ ∀ t ∈ m, f t = 0 := by
  induction m using Multiset.induction_on with
  | empty => simp
  | cons t m ih =>
      rw [tally_cons, Nat.add_eq_zero_iff, ih]
      simp

/-- A tally is positive exactly when some thread's share is. -/
theorem tally_pos_iff {f : L → Nat} {m : Multiset L} :
    0 < tally f m ↔ ∃ t ∈ m, 0 < f t := by
  simp only [Nat.pos_iff_ne_zero, Ne, tally_eq_zero, not_forall, exists_prop]

/-- A tally of shares of at most one is at most the number of threads. -/
theorem tally_le_card {f : L → Nat} {m : Multiset L} (h : ∀ t ∈ m, f t ≤ 1) :
    tally f m ≤ Multiset.card m := by
  induction m using Multiset.induction_on with
  | empty => simp
  | cons t m ih =>
      rw [tally_cons, Multiset.card_cons]
      have ht := h t (Multiset.mem_cons_self t m)
      have hm := ih (fun u hu => h u (Multiset.mem_cons_of_mem hu))
      omega

/-- Two shares that never both count one thread tally to at most the threads. -/
theorem tally_add_le_card {f g : L → Nat} {m : Multiset L}
    (h : ∀ t ∈ m, f t + g t ≤ 1) :
    tally f m + tally g m ≤ Multiset.card m := by
  rw [← tally_add_shares]
  exact tally_le_card h

end Interleaving
