import AtomicsAndLocks.Mutex.Invariant
import Mathlib.Data.Nat.SuccPred

/-! # The futex mutexes — one guard at a time, and no stranded sleeper

    Read off `inv_reachable` for each of the three `Mutex`es:

    * at most one thread holds a guard, and the state is 0 exactly when none
      does; the critical section between its read and its write sees no
      other write, so the value is `f` applied once per finished critical
      section — for `*m.lock() += 1`, the start value plus the number of
      increments;
    * whenever a thread sleeps in `wait`, the state is the "maybe sleepers"
      value (1 in `09-01`, 2 in the others), or a `drop` is about to call
      `wake_one`, or a thread is about to `swap` in the contended loop; so
      some thread that is not asleep is inside `lock`, holds the guard, or
      is inside `drop`.  A `drop` that swaps out 1 and skips `wake_one`
      leaves nobody stranded. -/

namespace Mutex

open Interleaving Relation

variable {α : Type}

namespace Pc

theorem sleeping_pos {p : Pc α} : 0 < p.sleeping ↔ p = .blocked := by
  cases p <;> simp

theorem waking_pos {p : Pc α} : 0 < p.waking ↔ p = .wake := by
  cases p <;> simp

theorem swapping_pos {p : Pc α} : 0 < p.swapping ↔ p = .swap := by
  cases p <;> simp

end Pc

/-- Threads asleep in `wait` are the ones the futex counts. -/
theorem sleeping_pos_iff {m : Multiset (Pc α)} : 0 < tally Pc.sleeping m ↔ .blocked ∈ m := by
  rw [tally_pos_iff]
  constructor
  · rintro ⟨t, ht, hp⟩
    exact Pc.sleeping_pos.mp hp ▸ ht
  · intro h
    exact ⟨_, h, by simp⟩

/-- Each `Mutex` with its own "maybe sleepers" state. -/
theorem inv_of_mutex {f : α → α} {v : α} {c : Conf α} {w : Nat}
    (hr : (w = 1 ∧ Reachable TwoStateLock f v c) ∨
      (w = 2 ∧ (Reachable avoidingSystemCall f v c ∨ Reachable furtherImprovements f v c))) :
    Inv w f v c := by
  rcases hr with ⟨rfl, hr⟩ | ⟨rfl, hr | hr⟩
  · exact inv_reachable keeps_twoStateLock hr
  · exact inv_reachable keeps_avoidingSystemCall hr
  · exact inv_reachable keeps_furtherImprovements hr

/-- A sleeper has a thread awake inside the `Mutex`: the state `w` means a
    guard is held, otherwise a `wake_one` or a `swap` is coming. -/
theorem awake_of_sleeper {w : Nat} {f : α → α} {v : α} {c : Conf α} (hw : 0 < w)
    (h : Inv w f v c) (hb : .blocked ∈ c.threads) :
    ∃ u ∈ c.threads, u ≠ .idle ∧ u ≠ .blocked := by
  rcases h.sleepers (sleeping_pos_iff.mpr hb) with hs | hk | hsw
  · -- the state is not 0, so some thread holds the guard
    have hH : 0 < tally Pc.holding c.threads := by
      have := h.state_eq_zero
      omega
    obtain ⟨u, hu, hp⟩ := tally_pos_iff.mp hH
    refine ⟨u, hu, ?_, ?_⟩ <;> rintro rfl <;> simp at hp
  · obtain ⟨u, hu, hp⟩ := tally_pos_iff.mp hk
    refine ⟨u, hu, ?_, ?_⟩ <;> rintro rfl <;> simp at hp
  · obtain ⟨u, hu, hp⟩ := tally_pos_iff.mp hsw
    refine ⟨u, hu, ?_, ?_⟩ <;> rintro rfl <;> simp at hp

/-- Two threads under `09-01-01`: the first holds the guard, the second has
    found the state 1, set it to 2 and gone to sleep. -/
def oneAsleep : Conf Nat := ⟨⟨2, 1, 0, 0⟩, .blocked ::ₘ {.read}⟩

theorem reach_oneAsleep : ReflTransGen (Step avoidingSystemCall Nat.succ) (init 0 2) oneAsleep := by
  have s1 : ReflTransGen (Step avoidingSystemCall Nat.succ) (init 0 2)
      ⟨⟨1, 0, 0, 0⟩, .read ::ₘ {.idle}⟩ :=
    reach_solo {Pc.idle} (Or.inl (ThreeStateLock.lock rfl))
  have hswap : (.read ::ₘ {.idle} : Multiset (Pc Nat)) = .idle ::ₘ {.read} :=
    Multiset.cons_swap _ _ 0
  have s2 : ReflTransGen (Step avoidingSystemCall Nat.succ) ⟨⟨1, 0, 0, 0⟩, .idle ::ₘ {.read}⟩
      ⟨⟨1, 0, 0, 0⟩, .swap ::ₘ {.read}⟩ :=
    reach_solo {Pc.read} (Or.inl (ThreeStateLock.lockFail (by decide)))
  have s3 : ReflTransGen (Step avoidingSystemCall Nat.succ) ⟨⟨1, 0, 0, 0⟩, .swap ::ₘ {.read}⟩
      ⟨⟨2, 0, 0, 0⟩, .wait ::ₘ {.read}⟩ :=
    reach_solo {Pc.read} (Or.inl (ThreeStateLock.swapLocked (by decide)))
  have s4 : ReflTransGen (Step avoidingSystemCall Nat.succ) ⟨⟨2, 0, 0, 0⟩, .wait ::ₘ {.read}⟩
      oneAsleep :=
    reach_solo {Pc.read} (Or.inl (ThreeStateLock.waitSleep rfl))
  rw [hswap] at s1
  exact s1.trans (s2.trans (s3.trans s4))

/-- For `*m.lock() += 1`, the value is the start value plus the number of
    finished increments. -/
theorem value_eq_add_done {lock : Futex Nat → Pc Nat → Futex Nat → Pc Nat → Prop} {w : Nat}
    (hk : Keeps w lock) {v : Nat} {c : Conf Nat} (hr : Reachable lock Nat.succ v c) :
    c.shared.value = v + c.shared.done := by
  rw [(inv_reachable hk hr).value_eq, Nat.succ_iterate]

/-- **NO STRANDED SLEEPER.** In every reachable configuration of `09-01`
    (with `w = 1`) or of `09-01-01` or `09-01-02` (with `w = 2`): no thread
    sleeps in `wait` while every other thread is idle; whenever one sleeps,
    the state is `w`, or a `drop` is about to call `wake_one`, or a thread is
    about to `swap` in the contended loop; and some thread that is not asleep
    is inside `lock`, holds the guard, or is inside `drop`. -/
theorem sleeper_not_stranded [DecidableEq α] (f : α → α) (v : α) (c : Conf α) (w : Nat)
    (hr : (w = 1 ∧ Reachable TwoStateLock f v c) ∨
      (w = 2 ∧ (Reachable avoidingSystemCall f v c ∨ Reachable furtherImprovements f v c))) :
    (∀ t ∈ c.threads, t = .blocked → ∃ u ∈ c.threads.erase t, u ≠ .idle) ∧
    (.blocked ∈ c.threads →
      c.shared.state = w ∨ .wake ∈ c.threads ∨ .swap ∈ c.threads) ∧
    (.blocked ∈ c.threads → ∃ u ∈ c.threads, u ≠ .idle ∧ u ≠ .blocked) := by
  have h := inv_of_mutex hr
  have hw : 0 < w := by omega
  refine ⟨?_, ?_, awake_of_sleeper hw h⟩
  · rintro t ht rfl
    obtain ⟨u, hu, hui, hub⟩ := awake_of_sleeper hw h ht
    exact ⟨u, (Multiset.mem_erase_of_ne hub).mpr hu, hui⟩
  · intro hb
    rcases h.sleepers (sleeping_pos_iff.mpr hb) with hs | hk | hsw
    · exact .inl hs
    · obtain ⟨u, hu, hp⟩ := tally_pos_iff.mp hk
      exact .inr (.inl (Pc.waking_pos.mp hp ▸ hu))
    · obtain ⟨u, hu, hp⟩ := tally_pos_iff.mp hsw
      exact .inr (.inr (Pc.swapping_pos.mp hp ▸ hu))

theorem sleeper_not_stranded_oneAsleep :
    ((2 = 1 ∧ Reachable TwoStateLock Nat.succ 0 oneAsleep) ∨
      (2 = 2 ∧ (Reachable avoidingSystemCall Nat.succ 0 oneAsleep ∨
        Reachable furtherImprovements Nat.succ 0 oneAsleep))) ∧
    ((∀ t ∈ oneAsleep.threads, t = .blocked → ∃ u ∈ oneAsleep.threads.erase t, u ≠ .idle) ∧
    (.blocked ∈ oneAsleep.threads →
      oneAsleep.shared.state = 2 ∨ .wake ∈ oneAsleep.threads ∨ .swap ∈ oneAsleep.threads) ∧
    (.blocked ∈ oneAsleep.threads → ∃ u ∈ oneAsleep.threads, u ≠ .idle ∧ u ≠ .blocked)) :=
  have hr : (2 = 1 ∧ Reachable TwoStateLock Nat.succ 0 oneAsleep) ∨
      (2 = 2 ∧ (Reachable avoidingSystemCall Nat.succ 0 oneAsleep ∨
        Reachable furtherImprovements Nat.succ 0 oneAsleep)) :=
    .inr ⟨rfl, .inl ⟨2, reach_oneAsleep⟩⟩
  ⟨hr, sleeper_not_stranded Nat.succ 0 oneAsleep 2 hr⟩

end Mutex
