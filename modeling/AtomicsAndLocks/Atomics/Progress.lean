import AtomicsAndLocks.Memory.Views

/-! # Progress reporting (02-01-02_progress-report.rs, 02-01-02-01_progress-report-with-parking.rs)

    A background thread processes items 0 to 99 and after item `i` stores
    `i + 1` to `num_done` (`Relaxed`); `main` loops: it loads `num_done`
    (`Relaxed`), breaks on 100, and otherwise prints the number and sleeps a
    second.  In the version with parking the background thread calls
    `main_thread.unpark()` after each store, and `main` waits in
    `thread::park_timeout` instead of sleeping.  `parking` selects the
    version: the two differ in nothing else.

    `num_done`'s writes are `0, 1, …`, each value at its own timestamp, so a
    load returns the timestamp it read, and `main`'s view of `num_done`
    never goes back: the progress printed never decreases, stays below 100,
    and the loop ends only once all 100 items are done (`reports_progress`).
    With parking, `main` is parked only with an empty token, and a store made
    since it parked has its `unpark` still to come, which wakes it
    (`unpark_not_lost`). -/

namespace Progress

open Views Relation

/-- `num_done`. -/
inductive Loc
  | numDone
  deriving DecidableEq

/-- The background thread, by the statement that is next. -/
inductive Worker
  /-- Iteration `i`: `num_done.store(i + 1, Relaxed)` (`process_item(i)`
      changes no memory). -/
  | store (i : Nat)
  /-- `main_thread.unpark()` after the store of `i + 1`. -/
  | unpark (i : Nat)
  | returned
  deriving DecidableEq

/-- `main`, by the statement that is next. -/
inductive Main
  /-- The loop's `num_done.load(Relaxed)`. -/
  | load
  /-- After the `println!`: `thread::sleep`, or `thread::park_timeout`. -/
  | wait
  /-- Parked in `thread::park_timeout`. -/
  | parked
  /-- Broke out of the loop: the scope's end joins the background thread. -/
  | joining
  /-- The scope has ended; `println!("Done!")`. -/
  | done
  deriving DecidableEq

structure Conf where
  mem : Memory Loc Nat
  worker : Worker
  wview : TView Loc
  main : Main
  mview : TView Loc
  /-- `main`'s park token. -/
  token : Bool
  /-- The numbers `main` printed: a ghost. -/
  printed : List Nat
  /-- The number of writes to `num_done` when `main` last parked: a ghost. -/
  parkedAt : Nat

/-- The iteration after `i`: the `for` loop over `0..100` ends after 99. -/
def Worker.next (i : Nat) : Worker := if i + 1 < 100 then .store (i + 1) else .returned

inductive Step (parking : Bool) : Conf → Conf → Prop
  | store {c : Conf} {i : Nat} (h : c.worker = .store i) :
      Step parking c { c with mem := c.mem.store c.wview .relaxed .numDone (i + 1),
                              wview := c.wview.write .numDone (c.mem .numDone).length,
                              worker := if parking then .unpark i else Worker.next i }
  /-- `unpark` wakes a parked `main`, which takes the token at once. -/
  | unparkParked {c : Conf} {i : Nat} (h : c.worker = .unpark i) (hm : c.main = .parked) :
      Step parking c { c with worker := Worker.next i, main := .load }
  /-- `unpark` of a `main` that is not parked sets its token. -/
  | unpark {c : Conf} {i : Nat} (h : c.worker = .unpark i) (hm : c.main ≠ .parked) :
      Step parking c { c with worker := Worker.next i, token := true }
  /-- `if n == 100 { break; }` -/
  | loadBreak {c : Conf} {T : TView Loc} (h : c.main = .load)
      (hl : Load .relaxed .numDone c.mview c.mem 100 T) :
      Step parking c { c with main := .joining, mview := T }
  /-- `println!("Working.. {n}/100 done")` -/
  | loadPrint {c : Conf} {n : Nat} {T : TView Loc} (h : c.main = .load)
      (hl : Load .relaxed .numDone c.mview c.mem n T) (hn : n ≠ 100) :
      Step parking c { c with main := .wait, mview := T, printed := c.printed ++ [n] }
  | sleep {c : Conf} (h : c.main = .wait) (hp : parking = false) :
      Step parking c { c with main := .load }
  /-- `park_timeout` returns at once on a set token, and empties it. -/
  | parkToken {c : Conf} (h : c.main = .wait) (hp : parking = true) (ht : c.token = true) :
      Step parking c { c with main := .load, token := false }
  | park {c : Conf} (h : c.main = .wait) (hp : parking = true) (ht : c.token = false) :
      Step parking c { c with main := .parked, parkedAt := (c.mem .numDone).length }
  /-- The second of `park_timeout` runs out, or it returns spuriously. -/
  | timeout {c : Conf} (h : c.main = .parked) : Step parking c { c with main := .load }
  | join {c : Conf} (h : c.main = .joining) (hw : c.worker = .returned) :
      Step parking c { c with main := .done }

def init : Conf :=
  ⟨Memory.init fun _ => 0, .store 0, TView.init, .load, TView.init, false, [], 0⟩

def Reachable (parking : Bool) (c : Conf) : Prop := ReflTransGen (Step parking) init c

/-! ## The invariant -/

/-- How many values the background thread has stored. -/
def Worker.stored : Worker → Nat
  | .store i => i
  | .unpark i => i + 1
  | .returned => 100

@[simp] theorem Worker.stored_next {i : Nat} (hi : i < 100) : (Worker.next i).stored = i + 1 := by
  unfold Worker.next
  by_cases h : i + 1 < 100
  · simp [h, Worker.stored]
  · simp only [h, if_false, Worker.stored]
    omega

structure Inv (parking : Bool) (c : Conf) : Prop where
  mem_eq : (c.mem .numDone).map Msg.val = List.range (c.worker.stored + 1)
  worker_lt : ∀ i, c.worker = .store i ∨ c.worker = .unpark i → i < 100
  unparking : ∀ i, c.worker = .unpark i → parking = true
  mview_le : c.mview.cur .numDone ≤ c.worker.stored
  printed_le : ∀ n ∈ c.printed, n ≤ c.mview.cur .numDone
  sorted : c.printed.Pairwise (· ≤ ·)
  printed_lt : ∀ n ∈ c.printed, n < 100
  /-- `main` leaves the loop only once all 100 values are stored. -/
  broke : c.main = .joining ∨ c.main = .done → c.worker.stored = 100
  /-- Parked, `main` has an empty token, and a store made since it parked
      has its `unpark` still to come. -/
  parked : c.main = .parked → parking = true ∧ c.token = false ∧
    ((c.mem .numDone).length = c.parkedAt ∨ ∃ i, c.worker = .unpark i)

theorem inv_init (parking : Bool) : Inv parking init where
  mem_eq := rfl
  worker_lt i h := by
    rcases h with h | h <;> cases h
    decide
  unparking i h := by cases h
  mview_le := Nat.zero_le _
  printed_le n h := by cases h
  sorted := List.Pairwise.nil
  printed_lt n h := by cases h
  broke h := by rcases h with h | h <;> cases h
  parked h := by cases h

theorem Inv.stored_le {parking : Bool} {c : Conf} (h : Inv parking c) : c.worker.stored ≤ 100 := by
  cases hw : c.worker with
  | store i => exact Nat.le_of_lt (h.worker_lt i (.inl hw))
  | unpark i => exact h.worker_lt i (.inr hw)
  | returned => exact le_refl _

theorem Inv.length_eq {parking : Bool} {c : Conf} (h : Inv parking c) :
    (c.mem .numDone).length = c.worker.stored + 1 := by
  have hl := congrArg List.length h.mem_eq
  rwa [List.length_map, List.length_range] at hl

/-- A load of `num_done` returns the timestamp it read: no less than what
    `main` knew, no more than what was stored, and now what `main` knows. -/
theorem Inv.load {parking : Bool} {c : Conf} (h : Inv parking c) {n : Nat} {T : TView Loc}
    (hl : Load .relaxed .numDone c.mview c.mem n T) :
    c.mview.cur .numDone ≤ n ∧ n ≤ c.worker.stored ∧ T.cur .numDone = n := by
  have hc : c.mem.Counts .numDone := by
    unfold Memory.Counts
    rw [h.mem_eq, h.length_eq]
  obtain ⟨hge, hlt, R, rfl⟩ := Load.of_counts hc hl
  rw [h.length_eq] at hlt
  exact ⟨hge, Nat.le_of_lt_succ hlt, TView.read_cur_self rfl hge⟩

/-- The background thread's store appends the next value of `num_done`. -/
theorem Inv.store {parking : Bool} {c : Conf} (h : Inv parking c) {i : Nat}
    (hw : c.worker = .store i) {w : Worker} (hs : w.stored = i + 1) :
    ((c.mem.store c.wview .relaxed .numDone (i + 1)) .numDone).map Msg.val =
      List.range (w.stored + 1) := by
  have hm := h.mem_eq
  rw [hw] at hm
  rw [Memory.store_self, List.map_append, hm, hs]
  simp only [Worker.stored, List.map_cons, List.map_nil]
  exact List.range_succ.symm

/-- The iteration after any is below 100, or there is none. -/
theorem Worker.next_lt {i j : Nat} (h : Worker.next i = .store j ∨ Worker.next i = .unpark j) :
    j < 100 := by
  unfold Worker.next at h
  split at h <;> rcases h with h | h <;> cases h
  assumption

theorem Worker.next_ne_unpark (i j : Nat) : Worker.next i ≠ .unpark j := by
  unfold Worker.next
  split <;> simp

/-- Leaving `unpark i` for the next iteration, the thread has stored as
    much as before. -/
theorem Inv.stored_next_unpark {parking : Bool} {c : Conf} {i : Nat} (h : Inv parking c)
    (hw : c.worker = .unpark i) : (Worker.next i).stored = c.worker.stored := by
  rw [Worker.stored_next (h.worker_lt i (.inr hw)), hw]
  rfl

theorem inv_step {parking : Bool} {c c' : Conf} (h : Inv parking c) (hs : Step parking c c') :
    Inv parking c' := by
  cases hs with
  | @store i hw =>
      have hi := h.worker_lt i (.inl hw)
      -- with or without parking, the thread's new state has stored `i + 1`
      have hs' : (if parking then Worker.unpark i else Worker.next i).stored = i + 1 := by
        cases parking
        · exact Worker.stored_next hi
        · rfl
      -- `main` is still in its loop: it cannot have read 100 yet
      have hmain : ¬ (c.main = .joining ∨ c.main = .done) := by
        intro hm
        have h100 := h.broke hm
        rw [hw] at h100
        exact absurd h100 (Nat.ne_of_lt hi)
      have hv := h.mview_le
      rw [hw] at hv
      refine ⟨h.store hw hs', fun j hj => ?_, fun j hj => ?_, ?_, h.printed_le, h.sorted,
        h.printed_lt, fun hm => absurd hm hmain, fun hm => ?_⟩
      · cases parking
        · exact Worker.next_lt hj
        · rcases hj with hj | hj <;> cases hj
          exact hi
      · cases parking
        · exact absurd hj (Worker.next_ne_unpark i j)
        · rfl
      · rw [hs']
        exact Nat.le_succ_of_le hv
      · obtain ⟨hp, ht, -⟩ := h.parked hm
        exact ⟨hp, ht, .inr ⟨i, by simp [hp]⟩⟩
  | @unparkParked i hw hm =>
      have hn := h.stored_next_unpark hw
      refine { h with mem_eq := ?_, worker_lt := fun j hj => Worker.next_lt hj,
                      unparking := fun j hj => absurd hj (Worker.next_ne_unpark i j),
                      mview_le := ?_, broke := by simp, parked := by simp }
      · rw [hn]
        exact h.mem_eq
      · rw [hn]
        exact h.mview_le
  | @unpark i hw hm =>
      have hn := h.stored_next_unpark hw
      refine { h with mem_eq := ?_, worker_lt := fun j hj => Worker.next_lt hj,
                      unparking := fun j hj => absurd hj (Worker.next_ne_unpark i j),
                      mview_le := ?_, broke := fun hb => ?_, parked := fun hp => absurd hp hm }
      · rw [hn]
        exact h.mem_eq
      · rw [hn]
        exact h.mview_le
      · rw [hn]
        exact h.broke hb
  | @loadBreak T hm hl =>
      obtain ⟨-, hle, hT⟩ := h.load hl
      have h100 := le_antisymm h.stored_le hle
      refine { h with mview_le := ?_, printed_le := fun n hn => ?_, broke := fun _ => h100,
                      parked := by simp }
      · rw [hT, h100]
      · rw [hT]
        exact Nat.le_trans (h.printed_le n hn) (Nat.le_trans h.mview_le h.stored_le)
  | @loadPrint n T hm hl hn =>
      obtain ⟨hge, hle, hT⟩ := h.load hl
      refine { h with mview_le := by rwa [hT], printed_le := fun k hk => ?_, sorted := ?_,
                      printed_lt := fun k hk => ?_, broke := by simp, parked := by simp }
      · rw [hT]
        rcases List.mem_append.mp hk with hk | hk
        · exact Nat.le_trans (h.printed_le k hk) hge
        · exact le_of_eq (List.mem_singleton.mp hk)
      -- every number printed before is at most what `main` knew, hence at most `n`
      · refine List.pairwise_append.mpr ⟨h.sorted, List.pairwise_singleton _ _, ?_⟩
        intro a ha b hb
        rw [List.mem_singleton.mp hb]
        exact Nat.le_trans (h.printed_le a ha) hge
      · rcases List.mem_append.mp hk with hk | hk
        · exact h.printed_lt k hk
        · rw [List.mem_singleton.mp hk]
          have := h.stored_le
          omega
  | sleep hm hp =>
      exact { h with broke := by simp, parked := by simp }
  | parkToken hm hp ht =>
      exact { h with broke := by simp, parked := by simp }
  | park hm hp ht =>
      exact { h with broke := by simp, parked := fun _ => ⟨hp, ht, .inl rfl⟩ }
  | timeout hm =>
      exact { h with broke := by simp, parked := by simp }
  | join hm hw =>
      exact { h with broke := fun _ => h.broke (.inl hm), parked := by simp }

theorem inv_reachable {parking : Bool} {c : Conf} (hr : Reachable parking c) : Inv parking c := by
  induction hr with
  | refl => exact inv_init parking
  | tail _ hs ih => exact inv_step ih hs

/-- In every run of either version, the numbers `main` prints never
    decrease and stay below 100, and `main` leaves its loop only once
    `num_done`'s writes are all of `0, 1, …, 100`. -/
theorem reports_progress (parking : Bool) (c : Conf) (hr : Reachable parking c) :
    c.printed.Pairwise (· ≤ ·) ∧ (∀ n ∈ c.printed, n < 100) ∧
      (c.main = .joining ∨ c.main = .done → (c.mem .numDone).map Msg.val = List.range 101) := by
  have h := inv_reachable hr
  refine ⟨h.sorted, h.printed_lt, fun hm => ?_⟩
  rw [h.mem_eq, h.broke hm]

/-- `num_done` after the first store. -/
def storedOne : Memory Loc Nat := (Memory.init fun _ => 0).store TView.init .relaxed .numDone 1

/-- Without parking: the background thread stored 1, and `main` loaded and
    printed it. -/
def printedOne : Conf :=
  ⟨storedOne, .store 1, TView.init.write .numDone 1, .wait,
    TView.init.read .relaxed .numDone 1 (TView.init.released .relaxed .numDone 1 ⊥), false, [1], 0⟩

theorem reach_printedOne : Reachable false printedOne := by
  have hr : Reads TView.init storedOne .numDone 1
      ⟨1, TView.init.released .relaxed .numDone 1 ⊥⟩ := ⟨Nat.zero_le 1, rfl⟩
  exact (ReflTransGen.single (Step.store (c := init) rfl)).tail
    (Step.loadPrint rfl (Load.read hr) (by decide))

theorem reports_progress_printedOne :
    Reachable false printedOne ∧ printedOne.printed = [1] ∧
      (printedOne.printed.Pairwise (· ≤ ·) ∧ (∀ n ∈ printedOne.printed, n < 100) ∧
        (printedOne.main = .joining ∨ printedOne.main = .done →
          (printedOne.mem .numDone).map Msg.val = List.range 101)) :=
  ⟨reach_printedOne, rfl, reports_progress false printedOne reach_printedOne⟩

/-- In every run of the version with parking, `main` is parked only with an
    empty token, and if a value was stored since it parked, the `unpark`
    after that store is still to come: no wake-up is lost. -/
theorem unpark_not_lost (c : Conf) (hr : Reachable true c) (hm : c.main = .parked) :
    c.token = false ∧ ((c.mem .numDone).length = c.parkedAt ∨ ∃ i, c.worker = .unpark i) :=
  ((inv_reachable hr).parked hm).2

/-- With parking: `main` printed 0 and parked on an empty token; then the
    background thread stored 1, and its `unpark` is next. -/
def parkedThenStored : Conf :=
  ⟨storedOne, .unpark 0, TView.init.write .numDone 1, .parked,
    TView.init.read .relaxed .numDone 0 ⊥, false, [0], 1⟩

theorem reach_parkedThenStored : Reachable true parkedThenStored := by
  have hr : Reads TView.init (Memory.init fun _ => 0) Loc.numDone 0 ⟨0, ⊥⟩ := ⟨le_refl 0, rfl⟩
  have run := (ReflTransGen.single (Step.loadPrint (c := init) rfl (Load.read hr) (by decide))).tail
    (Step.park rfl rfl rfl)
  exact run.tail (Step.store rfl)

theorem unpark_not_lost_parkedThenStored :
    Reachable true parkedThenStored ∧ parkedThenStored.main = .parked ∧
      (parkedThenStored.token = false ∧
        ((parkedThenStored.mem .numDone).length = parkedThenStored.parkedAt ∨
          ∃ i, parkedThenStored.worker = .unpark i)) :=
  ⟨reach_parkedThenStored, rfl,
    unpark_not_lost parkedThenStored reach_parkedThenStored rfl⟩

end Progress
