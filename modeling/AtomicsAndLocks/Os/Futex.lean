import AtomicsAndLocks.Memory.Views

/-! # Waiting on a futex (08-03-01_futex.rs)

    `main` loops while `a.load(Relaxed)` is 0, calling `wait(&a, 0)`; a
    scoped thread sleeps three seconds, stores 1 (`Relaxed`) and calls
    `wake_one(&a)`.  `wait` and `wake_one` are the futex system calls
    `FUTEX_WAIT` and `FUTEX_WAKE`, as documented: `wait` compares the
    futex word with `expected` and goes to sleep in one step, atomically
    with respect to the other calls on the word, so it reads the word's
    latest write; it returns at once if the word differs, and a sleeper may
    return spuriously; `wake_one` wakes one sleeper if there is one.

    A `Relaxed` load may still return the stale 0 after the store: `main`
    then calls `wait`, which sees the 1 and returns.  `main` sleeps only
    while the 0 is the latest write, so only before the store, and the
    `wake_one` after the store finds it asleep: `main` is never asleep once
    the other thread has returned, and it prints `Done!` only after loading
    the 1 (`wake_not_lost`). -/

namespace FutexWait

open Views Relation

/-- `a`. -/
inductive Loc
  | a
  deriving DecidableEq

/-- `main`, by the statement that is next. -/
inductive Main
  /-- `while a.load(Ordering::Relaxed) == 0` -/
  | load
  /-- `wait(&a, 0)` -/
  | wait
  /-- Asleep in `FUTEX_WAIT`. -/
  | asleep
  /-- Out of the loop: `println!("Done!")`. -/
  | done
  deriving DecidableEq

/-- The scoped thread, by the statement that is next. -/
inductive Child
  /-- After the sleep: `a.store(1, Ordering::Relaxed)`. -/
  | store
  /-- `wake_one(&a)` -/
  | wake
  | returned
  deriving DecidableEq

structure Conf where
  mem : Memory Loc Nat
  main : Main
  mview : TView Loc
  child : Child
  cview : TView Loc

/-- The value of the latest write of `a`: what the futex compares. -/
def latest (M : Memory Loc Nat) : Option Nat := (M .a).getLast?.map Msg.val

inductive Step : Conf → Conf → Prop
  | loadZero {c : Conf} {T : TView Loc} (h : c.main = .load)
      (hl : Load .relaxed .a c.mview c.mem 0 T) : Step c { c with main := .wait, mview := T }
  | loadDone {c : Conf} {v : Nat} {T : TView Loc} (h : c.main = .load)
      (hl : Load .relaxed .a c.mview c.mem v T) (hv : v ≠ 0) :
      Step c { c with main := .done, mview := T }
  /-- `FUTEX_WAIT` finds `a` equal to `expected` and sleeps. -/
  | waitSleep {c : Conf} (h : c.main = .wait) (ha : latest c.mem = some 0) :
      Step c { c with main := .asleep }
  /-- `FUTEX_WAIT` finds `a` different from `expected` and returns. -/
  | waitReturn {c : Conf} (h : c.main = .wait) (ha : latest c.mem ≠ some 0) :
      Step c { c with main := .load }
  /-- A sleeper returns from `FUTEX_WAIT` on its own. -/
  | spurious {c : Conf} (h : c.main = .asleep) : Step c { c with main := .load }
  | store {c : Conf} (h : c.child = .store) :
      Step c { c with mem := c.mem.store c.cview .relaxed .a 1, child := .wake,
                      cview := c.cview.write .a (c.mem .a).length }
  /-- `FUTEX_WAKE` wakes the sleeping `main`. -/
  | wakeAsleep {c : Conf} (h : c.child = .wake) (hm : c.main = .asleep) :
      Step c { c with main := .load, child := .returned }
  /-- `FUTEX_WAKE` with nobody asleep. -/
  | wakeNone {c : Conf} (h : c.child = .wake) (hm : c.main ≠ .asleep) :
      Step c { c with child := .returned }

/-- `a` 0; the scoped thread is spawned first, and nothing either thread
    does before its first access touches memory. -/
def init : Conf := ⟨Memory.init fun _ => 0, .load, TView.init, .store, TView.init⟩

def Reachable (c : Conf) : Prop := ReflTransGen Step init c

/-! ## The invariant -/

/-- The values of `a`'s writes at each point of the scoped thread. -/
def stored : Child → List Nat
  | .store => [0]
  | .wake | .returned => [0, 1]

structure Inv (c : Conf) : Prop where
  mem_eq : (c.mem .a).map Msg.val = stored c.child
  /-- `main` sleeps only while the store is still to come, or its
      `wake_one` is. -/
  asleep : c.main = .asleep → c.child = .store ∨ c.child = .wake
  /-- `main` leaves its loop only on loading the 1, once it is stored. -/
  done : c.main = .done → c.mview.cur .a = 1 ∧ c.child ≠ .store

theorem inv_init : Inv init where
  mem_eq := rfl
  asleep h := by cases h
  done h := by cases h

/-- A load of `a` returns the value at the timestamp it read, which is the
    timestamp: `a`'s writes are 0 and then 1. -/
theorem Inv.load {c : Conf} (h : Inv c) {v : Nat} {T : TView Loc}
    (hl : Load .relaxed .a c.mview c.mem v T) : T.cur .a = v := by
  have hc : c.mem.Counts .a := by
    have hlen := congrArg List.length h.mem_eq
    rw [List.length_map] at hlen
    unfold Memory.Counts
    rw [h.mem_eq, hlen]
    cases c.child <;> rfl
  obtain ⟨hge, -, R, rfl⟩ := Load.of_counts hc hl
  exact TView.read_cur_self rfl hge

/-- A value of `a` other than 0 is the 1, stored. -/
theorem one_of_mem_stored {v : Nat} {ch : Child} (hv : v ∈ stored ch) (h0 : v ≠ 0) :
    v = 1 ∧ ch ≠ .store := by
  cases ch <;> simp_all [stored]

/-- The futex compares with 0 and finds it only before the store. -/
theorem Inv.store_of_latest {c : Conf} (h : Inv c) (ha : latest c.mem = some 0) :
    c.child = .store := by
  have hl : ((c.mem .a).map Msg.val).getLast? = some 0 := by
    rw [List.getLast?_map]
    exact ha
  rw [h.mem_eq] at hl
  cases hc : c.child with
  | store => rfl
  | wake | returned =>
      rw [hc] at hl
      cases hl

theorem inv_step {c c' : Conf} (h : Inv c) (hs : Step c c') : Inv c' := by
  cases hs with
  | loadZero hm hl => exact { h with asleep := by simp, done := by simp }
  | @loadDone v T hm hl hv =>
      -- the value read is one of `a`'s, and not 0: the 1, stored
      have hv1 := hl.mem_map
      rw [h.mem_eq] at hv1
      obtain ⟨rfl, hc⟩ := one_of_mem_stored hv1 hv
      exact { h with asleep := by simp, done := fun _ => ⟨h.load hl, hc⟩ }
  | waitSleep hm ha => exact { h with asleep := fun _ => .inl (h.store_of_latest ha), done := by simp }
  | waitReturn hm ha => exact { h with asleep := by simp, done := by simp }
  | spurious hm => exact { h with asleep := by simp, done := by simp }
  | store hc =>
      refine ⟨?_, fun hm => .inr rfl, fun hm => ⟨(h.done hm).1, by simp⟩⟩
      have hm := h.mem_eq
      rw [hc] at hm
      simp [hm, stored]
  | wakeAsleep hc hm =>
      have hmem := h.mem_eq
      rw [hc] at hmem
      exact ⟨hmem, by simp, by simp⟩
  | wakeNone hc hm =>
      have hmem := h.mem_eq
      rw [hc] at hmem
      exact ⟨hmem, fun hm' => absurd hm' hm, fun hd => ⟨(h.done hd).1, by simp⟩⟩

theorem inv_reachable {c : Conf} (hr : Reachable c) : Inv c := by
  induction hr with
  | refl => exact inv_init
  | tail _ hs ih => exact inv_step ih hs

/-- In every run, `main` is asleep in the futex only while the store or the
    `wake_one` is still to come, so never once the scoped thread has
    returned; and `main` prints `Done!` only after loading the 1. -/
theorem wake_not_lost (c : Conf) (hr : Reachable c) :
    (c.main = .asleep → c.child = .store ∨ c.child = .wake) ∧
      (c.main = .done → c.mview.cur .a = 1 ∧ (c.mem .a).map Msg.val = [0, 1]) := by
  have h := inv_reachable hr
  refine ⟨h.asleep, fun hm => ⟨(h.done hm).1, ?_⟩⟩
  rw [h.mem_eq]
  cases hc : c.child with
  | store => exact absurd hc (h.done hm).2
  | wake | returned => rfl

/-- `main` loaded the 0 and fell asleep in `wait`; the scoped thread then
    stored the 1, and its `wake_one` is next. -/
def asleepBeforeWake : Conf :=
  ⟨(Memory.init fun _ => 0).store TView.init .relaxed .a 1, .asleep,
    TView.init.read .relaxed .a 0 ⊥, .wake, TView.init.write .a 1⟩

theorem reach_asleepBeforeWake : Reachable asleepBeforeWake := by
  have hr : Reads TView.init (Memory.init fun _ => 0) Loc.a 0 ⟨0, ⊥⟩ := ⟨le_refl 0, rfl⟩
  -- `main` sleeps on the 0 before the store, which then leaves the `wake_one` to come
  exact ((ReflTransGen.single (Step.loadZero (c := init) rfl (Load.read hr))).tail
    (Step.waitSleep rfl rfl)).tail (Step.store rfl)

theorem wake_not_lost_asleepBeforeWake :
    Reachable asleepBeforeWake ∧ asleepBeforeWake.main = .asleep ∧
      ((asleepBeforeWake.main = .asleep →
          asleepBeforeWake.child = .store ∨ asleepBeforeWake.child = .wake) ∧
        (asleepBeforeWake.main = .done → asleepBeforeWake.mview.cur .a = 1 ∧
          (asleepBeforeWake.mem .a).map Msg.val = [0, 1])) :=
  ⟨reach_asleepBeforeWake, rfl, wake_not_lost asleepBeforeWake reach_asleepBeforeWake⟩

end FutexWait
