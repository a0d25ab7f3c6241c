import Mathlib
import AtomicsAndLocks.Interleaving
import AtomicsAndLocks.Memory.Views

/-! # Statistics (02-02-02_statistics.rs)

    Four background threads process 25 items each and record how long each
    item took: `inaccurate_statistics` in three `Relaxed` atomics
    (`num_done.fetch_add(1)`, `total_time.fetch_add(t)`,
    `max_time.fetch_max(t)`), `accurate_statistics` in a `Statistics` behind
    a `Mutex`, updated field by field while the guard is held.  `main`
    loops: it reads the three values, breaks when `num_done` is 100, and
    otherwise calls `print_statistics` and sleeps a second.

    Under the `Mutex`, `main` reads the fields only while no update is half
    done: every line it prints is the statistics of the items finished so
    far, so the average it prints is at most the peak and the peak at most
    the total, and it leaves its loop only once all 100 items are recorded
    (`statistics_consistent`).  With the atomics `main` can read an update
    half done and print an average above the peak; but `num_done`'s writes
    are 0, 1, … in order, so the progress printed still never decreases,
    and the loop still ends only after all 100 `fetch_add`s of `num_done`
    (`progress_never_decreases`). -/

namespace Stats

open Interleaving Relation

/-- What `print_statistics` prints. -/
inductive Line
  /-- `"Working.. nothing done yet."` -/
  | nothingDone
  /-- `"Working.. {num_done}/100 done, {:?} average, {:?} peak"` from
      `num_done`, `total_time` and `max_time`; the average is
      `total_time / num_done`. -/
  | working (numDone totalTime maxTime : Nat)
  deriving DecidableEq

/-- `print_statistics`. -/
def printStatistics (numDone totalTime maxTime : Nat) : Line :=
  if numDone = 0 then .nothingDone else .working numDone totalTime maxTime

/-- How many items a line says are done. -/
def Line.numDone : Line → Nat
  | .nothingDone => 0
  | .working n _ _ => n

@[simp] theorem numDone_printStatistics (n t m : Nat) : (printStatistics n t m).numDone = n := by
  unfold printStatistics
  by_cases hn : n = 0
  · simp [hn, Line.numDone]
  · simp [hn, Line.numDone]

theorem eq_of_printStatistics {n t m n' t' m' : Nat}
    (h : printStatistics n t m = .working n' t' m') : n' = n ∧ t' = t ∧ m' = m := by
  unfold printStatistics at h
  by_cases hn : n = 0
  · simp [hn] at h
  · simp only [hn, if_false, Line.working.injEq] at h
    exact ⟨h.1.symm, h.2.1.symm, h.2.2.symm⟩

/-! ## The statistics of the items' times -/

/-- `Statistics`. -/
structure Statistics where
  numDone : Nat
  totalTime : Nat
  maxTime : Nat
  deriving DecidableEq

/-- What the updates for items that took `ts`, in order, make of
    `Statistics::default()`. -/
def Statistics.of (ts : List Nat) : Statistics := ⟨ts.length, ts.sum, ts.foldl max 0⟩

/-- The running maximum is at least where it started. -/
theorem le_foldl_max_init : ∀ (l : List Nat) (a : Nat), a ≤ l.foldl max a
  | [], _ => le_refl _
  | y :: l, a => Nat.le_trans (Nat.le_max_left a y) (le_foldl_max_init l (max a y))

/-- The running maximum is at least every time it ran over. -/
theorem le_foldl_max {x : Nat} : ∀ {l : List Nat} {a : Nat}, x ∈ l → x ≤ l.foldl max a
  | y :: l, a, hx => by
      rw [List.foldl_cons]
      rcases List.mem_cons.mp hx with rfl | hx
      · exact Nat.le_trans (Nat.le_max_right a x) (le_foldl_max_init l (max a x))
      · exact le_foldl_max hx

/-- The running maximum from `a` is at most `a` or the sum. -/
theorem foldl_max_le : ∀ (l : List Nat) (a : Nat), l.foldl max a ≤ max a l.sum
  | [], a => by simp
  | y :: l, a => by
      rw [List.foldl_cons, List.sum_cons]
      calc l.foldl max (max a y) ≤ max (max a y) l.sum := foldl_max_le l (max a y)
        _ ≤ max a (y + l.sum) :=
          max_le (max_le (le_max_left _ _) (le_max_of_le_right (Nat.le_add_right y _)))
            (le_max_of_le_right (Nat.le_add_left _ y))

/-- The statistics of the finished items: the peak is at most the total,
    and the total at most the count times the peak. -/
theorem Statistics.of_bounds (ts : List Nat) :
    (Statistics.of ts).maxTime ≤ (Statistics.of ts).totalTime ∧
      (Statistics.of ts).totalTime ≤ (Statistics.of ts).numDone * (Statistics.of ts).maxTime := by
  constructor
  · show ts.foldl max 0 ≤ ts.sum
    simpa using foldl_max_le ts 0
  · have h := List.sum_le_card_nsmul ts (ts.foldl max 0) (fun x hx => le_foldl_max hx)
    rwa [smul_eq_mul] at h

/-- One more item's update. -/
theorem Statistics.of_append (ts : List Nat) (d : Nat) :
    Statistics.of (ts ++ [d]) = ⟨ts.length + 1, ts.sum + d, max (ts.foldl max 0) d⟩ := by
  simp [Statistics.of, List.foldl_append]

/-! ## `accurate_statistics` -/

namespace Accurate

structure Shared where
  /-- The `Mutex`'s lock. -/
  locked : Bool
  statistics : Statistics
  /-- The times of the items whose update is complete, in order: a ghost. -/
  times : List Nat
  /-- The lines `main` printed: a ghost. -/
  printed : List Line

/-- Where a thread stands. -/
inductive Pc
  /-- A background thread with `k` items still to process; the next item's
      `process_item` and its timing are next. -/
  | worker (k : Nat)
  /-- The item took `d` microseconds: `statistics_in_thread.lock()` is next. -/
  | lock (k d : Nat)
  /-- Holding the guard: `guard.num_done += 1` is next. -/
  | addDone (k d : Nat)
  /-- `guard.total_time += time_taken` -/
  | addTime (k d : Nat)
  /-- `guard.max_time = guard.max_time.max(time_taken)` -/
  | setMax (k d : Nat)
  /-- The guard is dropped at the end of the iteration. -/
  | unlock (k : Nat)
  /-- `main`: `statistics.lock()` is next. -/
  | mainLock
  | readTotal
  | readMax (totalTime : Nat)
  | readN (totalTime maxTime : Nat)
  /-- `drop(guard)` is next. -/
  | drop (totalTime maxTime n : Nat)
  /-- `main` broke out of its loop. -/
  | broke
  deriving DecidableEq

inductive Act : Shared → Pc → Shared → Pc → Prop
  /-- `process_item` took `d` microseconds. -/
  | process {s : Shared} {k d : Nat} : Act s (.worker (k + 1)) s (.lock k d)
  /-- `lock()` takes the free lock. -/
  | lock {s : Shared} {k d : Nat} (h : s.locked = false) :
      Act s (.lock k d) { s with locked := true } (.addDone k d)
  | addDone {s : Shared} {k d : Nat} :
      Act s (.addDone k d)
        { s with statistics := { s.statistics with numDone := s.statistics.numDone + 1 } }
        (.addTime k d)
  | addTime {s : Shared} {k d : Nat} :
      Act s (.addTime k d)
        { s with statistics := { s.statistics with totalTime := s.statistics.totalTime + d } }
        (.setMax k d)
  /-- The last field is written: the item's update is complete. -/
  | setMax {s : Shared} {k d : Nat} :
      Act s (.setMax k d)
        { s with statistics := { s.statistics with maxTime := max s.statistics.maxTime d },
                 times := s.times ++ [d] }
        (.unlock k)
  | unlock {s : Shared} {k : Nat} : Act s (.unlock k) { s with locked := false } (.worker k)
  | mainLock {s : Shared} (h : s.locked = false) :
      Act s .mainLock { s with locked := true } .readTotal
  | readTotal {s : Shared} : Act s .readTotal s (.readMax s.statistics.totalTime)
  | readMax {s : Shared} {t : Nat} : Act s (.readMax t) s (.readN t s.statistics.maxTime)
  | readN {s : Shared} {t m : Nat} : Act s (.readN t m) s (.drop t m s.statistics.numDone)
  /-- `drop(guard)`; `n == 100` breaks the loop. -/
  | dropBreak {s : Shared} {t m : Nat} : Act s (.drop t m 100) { s with locked := false } .broke
  /-- `drop(guard)`, `print_statistics(n, total_time, max_time)` and the
      second's sleep. -/
  | dropPrint {s : Shared} {t m n : Nat} (hn : n ≠ 100) :
      Act s (.drop t m n)
        { s with locked := false, printed := s.printed ++ [printStatistics n t m] } .mainLock

abbrev Conf := Interleaving.Conf Shared Pc

abbrev Step : Conf → Conf → Prop := Interleaving.Step Act noHandOff

/-- `Statistics::default()`, `main` and the four background threads. -/
def init : Conf :=
  ⟨⟨false, ⟨0, 0, 0⟩, [], []⟩, .mainLock ::ₘ Multiset.replicate 4 (.worker 25)⟩

def Reachable (c : Conf) : Prop := ReflTransGen Step init c

/-! ### The invariant -/

@[simp] def Pc.holding : Pc → Nat
  | .addDone _ _ | .addTime _ _ | .setMax _ _ | .unlock _ | .readTotal | .readMax _ | .readN _ _
  | .drop _ _ _ => 1
  | _ => 0

/-- The items a thread has still to record. -/
@[simp] def Pc.items : Pc → Nat
  | .worker k | .unlock k => k
  | .lock k _ | .addDone k _ | .addTime k _ | .setMax k _ => k + 1
  | _ => 0

/-- What a thread holding the guard knows of the `Statistics`: every field
    that its own update has not reached is as the finished items left it,
    and what `main` read is what they left. -/
def Pc.Sees : Pc → Statistics → List Nat → Prop
  | .addDone _ _, st, ts | .unlock _, st, ts | .readTotal, st, ts => st = .of ts
  | .addTime _ _, st, ts => st = ⟨ts.length + 1, ts.sum, ts.foldl max 0⟩
  | .setMax _ d, st, ts => st = ⟨ts.length + 1, ts.sum + d, ts.foldl max 0⟩
  | .readMax t, st, ts => st = .of ts ∧ t = ts.sum
  | .readN t m, st, ts => st = .of ts ∧ t = ts.sum ∧ m = ts.foldl max 0
  | .drop t m n, st, ts => st = .of ts ∧ Statistics.mk n t m = .of ts
  | _, _, _ => True

theorem Pc.sees_of_holding {p : Pc} (h : p.holding = 0) (st : Statistics) (ts : List Nat) :
    p.Sees st ts := by
  cases p <;> simp_all [Pc.Sees]

structure Inv (c : Conf) : Prop where
  /-- The `Mutex` is locked exactly when a thread holds the guard. -/
  locked_eq : c.shared.locked.toNat = tally Pc.holding c.threads
  /-- With the lock free, the `Statistics` are those of the finished items. -/
  quiet : c.shared.locked = false → c.shared.statistics = .of c.shared.times
  sees : ∀ t ∈ c.threads, t.Sees c.shared.statistics c.shared.times
  items : c.shared.times.length + tally Pc.items c.threads = 100
  /-- Every line printed is of the statistics of the first items finished. -/
  printed : ∀ l ∈ c.shared.printed, ∃ p, p <+: c.shared.times ∧ p.length < 100 ∧
    l = printStatistics p.length p.sum (p.foldl max 0)
  sorted : c.shared.printed.Pairwise (fun l l' => l.numDone ≤ l'.numDone)
  broke : Pc.broke ∈ c.threads → c.shared.times.length = 100

theorem inv_init : Inv init where
  locked_eq := by simp [init, tally]
  quiet _ := rfl
  sees t ht := by
    have ht' : t ∈ Pc.mainLock ::ₘ Multiset.replicate 4 (Pc.worker 25) := ht
    rcases Multiset.mem_cons.mp ht' with rfl | ht
    · trivial
    · rw [Multiset.eq_of_mem_replicate ht]
      trivial
  items := by simp [init, tally]
  printed l hl := by cases hl
  sorted := List.Pairwise.nil
  broke hb := by
    have hb' : Pc.broke ∈ Pc.mainLock ::ₘ Multiset.replicate 4 (Pc.worker 25) := hb
    rcases Multiset.mem_cons.mp hb' with hb | hb
    · cases hb
    · cases Multiset.eq_of_mem_replicate hb

section Act

variable {s s' : Shared} {t t' : Pc}

theorem Act.locked_eq (ha : Act s t s' t') {H : Nat} (hl : s.locked.toNat = t.holding + H) :
    s'.locked.toNat = t'.holding + H := by
  have hle := Bool.toNat_le s.locked
  cases ha <;> simp_all

theorem Act.items_eq (ha : Act s t s' t') :
    s'.times.length + t'.items = s.times.length + t.items := by
  cases ha <;> simp
  omega

theorem Act.times_prefix (ha : Act s t s' t') : s.times <+: s'.times := by
  cases ha
  case setMax => exact List.prefix_append _ _
  all_goals exact List.prefix_refl _

/-- A thread that does not hold the guard changes neither the
    `Statistics` nor the ghosts. -/
theorem Act.frame (ha : Act s t s' t') (ht : t.holding = 0) :
    s'.statistics = s.statistics ∧ s'.times = s.times ∧ s'.printed = s.printed := by
  cases ha <;> simp_all

/-- A thread's own step keeps what it knows. -/
theorem Act.sees (ha : Act s t s' t') (hs : t.Sees s.statistics s.times)
    (hq : s.locked = false → s.statistics = .of s.times) : t'.Sees s'.statistics s'.times := by
  cases ha with
  | process | unlock | dropBreak | dropPrint => trivial
  | lock h => exact hq h
  | mainLock h => exact hq h
  | addDone =>
      simp only [Pc.Sees] at hs ⊢
      rw [hs]
      rfl
  | addTime =>
      simp only [Pc.Sees] at hs ⊢
      rw [hs]
  | @setMax k d =>
      simp only [Pc.Sees] at hs ⊢
      rw [hs, Statistics.of_append]
  | readTotal =>
      simp only [Pc.Sees] at hs ⊢
      exact ⟨hs, by rw [hs]; rfl⟩
  | readMax =>
      simp only [Pc.Sees] at hs ⊢
      obtain ⟨hst, ht⟩ := hs
      exact ⟨hst, ht, by rw [hst]; rfl⟩
  | readN =>
      simp only [Pc.Sees] at hs ⊢
      obtain ⟨hst, ht, hm⟩ := hs
      refine ⟨hst, ?_⟩
      rw [ht, hm, hst]
      rfl

/-- The lock is freed only by a holder whose statistics are complete. -/
theorem Act.quiet (ha : Act s t s' t') (hs : t.Sees s.statistics s.times)
    (hq : s.locked = false → s.statistics = .of s.times)
    (hl : t.holding = 1 → s.locked = true) :
    s'.locked = false → s'.statistics = .of s'.times := by
  intro hf
  cases ha with
  | process => exact hq hf
  | unlock => exact hs
  | dropBreak => exact hs.1
  | dropPrint => exact hs.1
  | lock | mainLock => cases hf
  | addDone | addTime | setMax | readTotal | readMax | readN =>
      exact absurd (hl rfl) (by simp_all)

/-- What `main` printed stays the statistics of a prefix of the finished
    items: the times only grow, and a new line is of all of them. -/
theorem Act.printed (ha : Act s t s' t') (hs : t.Sees s.statistics s.times)
    (hlen : s.times.length ≤ 100)
    (hp : ∀ l ∈ s.printed, ∃ p, p <+: s.times ∧ p.length < 100 ∧
      l = printStatistics p.length p.sum (p.foldl max 0)) :
    ∀ l ∈ s'.printed, ∃ p, p <+: s'.times ∧ p.length < 100 ∧
      l = printStatistics p.length p.sum (p.foldl max 0) := by
  have hold : ∀ l ∈ s.printed, ∃ p, p <+: s'.times ∧ p.length < 100 ∧
      l = printStatistics p.length p.sum (p.foldl max 0) := by
    intro l hl
    obtain ⟨p, hpre, hlt, rfl⟩ := hp l hl
    exact ⟨p, hpre.trans ha.times_prefix, hlt, rfl⟩
  intro l hl
  cases ha with
  | @dropPrint t0 m0 n0 hn =>
      rcases List.mem_append.mp hl with hl | hl
      · exact hold l hl
      -- the line just printed is of every item finished
      · obtain ⟨-, hof⟩ := hs
        simp only [Statistics.of, Statistics.mk.injEq] at hof
        obtain ⟨rfl, rfl, rfl⟩ := hof
        rw [List.mem_singleton.mp hl]
        exact ⟨s.times, List.prefix_refl _, lt_of_le_of_ne hlen hn, rfl⟩
  | process | lock | addDone | addTime | setMax | unlock | mainLock | readTotal | readMax | readN
  | dropBreak => exact hold l hl

/-- A new line reports at least as many items as every line before it. -/
theorem Act.sorted (ha : Act s t s' t') (hs : t.Sees s.statistics s.times)
    (hle : ∀ l ∈ s.printed, l.numDone ≤ s.times.length)
    (hsort : s.printed.Pairwise (fun l l' => l.numDone ≤ l'.numDone)) :
    s'.printed.Pairwise (fun l l' => l.numDone ≤ l'.numDone) := by
  cases ha with
  | @dropPrint t0 m0 n0 hn =>
      obtain ⟨-, hof⟩ := hs
      simp only [Statistics.of, Statistics.mk.injEq] at hof
      refine List.pairwise_append.mpr ⟨hsort, List.pairwise_singleton _ _, fun a ha b hb => ?_⟩
      rw [List.mem_singleton.mp hb, numDone_printStatistics, hof.1]
      exact hle a ha
  | process | lock | addDone | addTime | setMax | unlock | mainLock | readTotal | readMax | readN
  | dropBreak => exact hsort

/-- `main` breaks only on reading that all 100 items are finished. -/
theorem Act.broke (ha : Act s t s' t') (hs : t.Sees s.statistics s.times) (hb : t' = .broke) :
    s'.times.length = 100 := by
  cases ha with
  | dropBreak =>
      obtain ⟨-, hof⟩ := hs
      simp only [Statistics.of, Statistics.mk.injEq] at hof
      exact hof.1.symm
  | process | lock | addDone | addTime | setMax | unlock | mainLock | readTotal | readMax | readN
  | dropPrint => cases hb

end Act

theorem Inv.printed_le {c : Conf} (h : Inv c) : ∀ l ∈ c.shared.printed, l.numDone ≤ c.shared.times.length := by
  intro l hl
  obtain ⟨p, hpre, -, rfl⟩ := h.printed l hl
  rw [numDone_printStatistics]
  exact hpre.length_le

theorem inv_step {c c' : Conf} (h : Inv c) (hs : Step c c') : Inv c' := by
  cases hs with
  | duo rest hh => exact hh.elim
  | @solo s s' t t' rest ha =>
      -- each tally split at the thread that moves
      have hl : s.locked.toNat = t.holding + tally Pc.holding rest := by
        rw [← tally_cons]
        exact h.locked_eq
      have hi : s.times.length + (t.items + tally Pc.items rest) = 100 := by
        rw [← tally_cons]
        exact h.items
      have hst : t.Sees s.statistics s.times := h.sees t (Multiset.mem_cons_self _ _)
      have hheld : t.holding = 1 → s.locked = true := by
        intro h1
        cases hb : s.locked
        · rw [hb, h1, Bool.toNat_false] at hl
          omega
        · rfl
      have hie := ha.items_eq
      have hlen : s.times.length ≤ 100 := by omega
      refine ⟨?_, ha.quiet hst h.quiet hheld, ?_, ?_, ha.printed hst hlen h.printed,
        ha.sorted hst h.printed_le h.sorted, ?_⟩
      · rw [tally_cons]
        exact ha.locked_eq hl
      · intro u hu
        rcases Multiset.mem_cons.mp hu with rfl | hu
        · exact ha.sees hst h.quiet
        · by_cases h0 : t.holding = 0
          -- the thread that moved changed nothing the others see
          · obtain ⟨hs1, hs2, -⟩ := ha.frame h0
            rw [hs1, hs2]
            exact h.sees u (Multiset.mem_cons_of_mem hu)
          -- it holds the guard, so `u` does not
          · have hu0 : u.holding = 0 := by
              have := le_tally (f := Pc.holding) hu
              have := Bool.toNat_le s.locked
              omega
            exact Pc.sees_of_holding hu0 _ _
      · show s'.times.length + tally Pc.items (t' ::ₘ rest) = 100
        rw [tally_cons]
        omega
      · intro hb
        rcases Multiset.mem_cons.mp hb with hb | hb
        · exact ha.broke hst hb.symm
        -- `main` broke earlier: every item is recorded, so nothing moves the times
        · have h100 : s.times.length = 100 := h.broke (Multiset.mem_cons_of_mem hb)
          have := ha.times_prefix.length_le
          show s'.times.length = 100
          omega

theorem inv_reachable {c : Conf} (hr : Reachable c) : Inv c := by
  induction hr with
  | refl => exact inv_init
  | tail _ hs ih => exact inv_step ih hs

/-- In every run of `accurate_statistics`, every line `main` prints is
    `print_statistics` of the statistics of the first items finished, fewer
    than 100 of them, so its average is at most its peak and its peak at
    most its total; the lines never report fewer items than the ones before;
    and `main` leaves its loop only once all 100 items are recorded. -/
theorem statistics_consistent (c : Conf) (hr : Reachable c) :
    (∀ l ∈ c.shared.printed, ∃ p, p <+: c.shared.times ∧ p.length < 100 ∧
        l = printStatistics p.length p.sum (p.foldl max 0)) ∧
      (∀ n t m, Line.working n t m ∈ c.shared.printed → m ≤ t ∧ t ≤ n * m) ∧
      c.shared.printed.Pairwise (fun l l' => l.numDone ≤ l'.numDone) ∧
      (Pc.broke ∈ c.threads → c.shared.times.length = 100) := by
  have h := inv_reachable hr
  refine ⟨h.printed, fun n t m hl => ?_, h.sorted, h.broke⟩
  obtain ⟨p, -, -, hp⟩ := h.printed _ hl
  obtain ⟨rfl, rfl, rfl⟩ := eq_of_printStatistics hp.symm
  exact Statistics.of_bounds p

/-- A background thread recorded an item that took 5 microseconds; `main`
    then read the statistics under the lock and printed them. -/
def printedOne : Conf :=
  ⟨⟨false, ⟨1, 5, 5⟩, [5], [printStatistics 1 5 5]⟩,
    .mainLock ::ₘ .worker 24 ::ₘ Multiset.replicate 3 (.worker 25)⟩

theorem reach_printedOne : Reachable printedOne := by
  have e : init = ⟨⟨false, ⟨0, 0, 0⟩, [], []⟩,
      .worker 25 ::ₘ .mainLock ::ₘ Multiset.replicate 3 (.worker 25)⟩ := by
    show Interleaving.Conf.mk _ (Pc.mainLock ::ₘ Multiset.replicate (3 + 1) (Pc.worker 25)) = _
    rw [Multiset.replicate_succ, Multiset.cons_swap]
  -- the background thread's whole iteration, the lock held from `lock` to `unlock`
  have hw : ReflTransGen Step init
      ⟨⟨false, ⟨1, 5, 5⟩, [5], []⟩, .worker 24 ::ₘ .mainLock ::ₘ Multiset.replicate 3 (.worker 25)⟩ := by
    rw [e]
    exact (((((reach_solo _ (Act.process (k := 24) (d := 5))).trans (reach_solo _ (Act.lock rfl))).trans
      (reach_solo _ Act.addDone)).trans (reach_solo _ Act.addTime)).trans
      (reach_solo _ Act.setMax)).trans (reach_solo _ Act.unlock)
  rw [Multiset.cons_swap (Pc.worker 24)] at hw
  -- then `main`'s iteration
  have hm : ReflTransGen Step
      ⟨⟨false, ⟨1, 5, 5⟩, [5], []⟩, .mainLock ::ₘ .worker 24 ::ₘ Multiset.replicate 3 (.worker 25)⟩
      printedOne :=
    ((((reach_solo _ (Act.mainLock rfl)).trans (reach_solo _ Act.readTotal)).trans
      (reach_solo _ Act.readMax)).trans (reach_solo _ Act.readN)).trans
      (reach_solo _ (Act.dropPrint (by decide)))
  exact hw.trans hm

theorem statistics_consistent_printedOne :
    Reachable printedOne ∧ printedOne.shared.printed = [.working 1 5 5] ∧
      ((∀ l ∈ printedOne.shared.printed, ∃ p, p <+: printedOne.shared.times ∧ p.length < 100 ∧
          l = printStatistics p.length p.sum (p.foldl max 0)) ∧
        (∀ n t m, Line.working n t m ∈ printedOne.shared.printed → m ≤ t ∧ t ≤ n * m) ∧
        printedOne.shared.printed.Pairwise (fun l l' => l.numDone ≤ l'.numDone) ∧
        (Pc.broke ∈ printedOne.threads → printedOne.shared.times.length = 100)) :=
  ⟨reach_printedOne, rfl, statistics_consistent printedOne reach_printedOne⟩

end Accurate

/-! ## `inaccurate_statistics` -/

namespace Inaccurate

open Views

/-- `num_done`, `total_time` and `max_time`. -/
inductive Loc
  | numDone
  | totalTime
  | maxTime
  deriving DecidableEq

structure Shared where
  mem : Memory Loc Nat
  /-- The lines `main` printed: a ghost. -/
  printed : List Line

/-- Where a thread stands, with its view. -/
inductive Thread
  /-- A background thread with `k` items still to process; the next item's
      `process_item` and its timing are next. -/
  | worker (k : Nat) (T : TView Loc)
  /-- The item took `d` microseconds: `num_done.fetch_add(1, Relaxed)` is next. -/
  | addDone (k d : Nat) (T : TView Loc)
  /-- `total_time.fetch_add(time_taken, Relaxed)` -/
  | addTime (k d : Nat) (T : TView Loc)
  /-- `max_time.fetch_max(time_taken, Relaxed)` -/
  | setMax (k d : Nat) (T : TView Loc)
  /-- `main`: `total_time.load(Relaxed)` is next. -/
  | loadTotal (T : TView Loc)
  | loadMax (totalTime : Nat) (T : TView Loc)
  | loadN (totalTime maxTime : Nat) (T : TView Loc)
  /-- `main` broke out of its loop. -/
  | broke (T : TView Loc)

inductive Act : Shared → Thread → Shared → Thread → Prop
  /-- `process_item` took `d` microseconds. -/
  | process {s : Shared} {k d : Nat} {T : TView Loc} :
      Act s (.worker (k + 1) T) s (.addDone k d T)
  | addDone {s : Shared} {k d v : Nat} {T T' : TView Loc} {M' : Memory Loc Nat}
      (h : Update .relaxed .numDone (· + 1) T s.mem v T' M') :
      Act s (.addDone k d T) ⟨M', s.printed⟩ (.addTime k d T')
  | addTime {s : Shared} {k d v : Nat} {T T' : TView Loc} {M' : Memory Loc Nat}
      (h : Update .relaxed .totalTime (· + d) T s.mem v T' M') :
      Act s (.addTime k d T) ⟨M', s.printed⟩ (.setMax k d T')
  | setMax {s : Shared} {k d v : Nat} {T T' : TView Loc} {M' : Memory Loc Nat}
      (h : Update .relaxed .maxTime (max · d) T s.mem v T' M') :
      Act s (.setMax k d T) ⟨M', s.printed⟩ (.worker k T')
  | loadTotal {s : Shared} {t : Nat} {T T' : TView Loc}
      (h : Load .relaxed .totalTime T s.mem t T') : Act s (.loadTotal T) s (.loadMax t T')
  | loadMax {s : Shared} {t m : Nat} {T T' : TView Loc}
      (h : Load .relaxed .maxTime T s.mem m T') : Act s (.loadMax t T) s (.loadN t m T')
  /-- `if n == 100 { break; }` -/
  | loadBreak {s : Shared} {t m : Nat} {T T' : TView Loc}
      (h : Load .relaxed .numDone T s.mem 100 T') : Act s (.loadN t m T) s (.broke T')
  /-- `print_statistics(n, total_time, max_time)` and the second's sleep. -/
  | loadPrint {s : Shared} {t m n : Nat} {T T' : TView Loc}
      (h : Load .relaxed .numDone T s.mem n T') (hn : n ≠ 100) :
      Act s (.loadN t m T) ⟨s.mem, s.printed ++ [printStatistics n t m]⟩ (.loadTotal T')

abbrev Conf := Interleaving.Conf Shared Thread

abbrev Step : Conf → Conf → Prop := Interleaving.Step Act noHandOff

/-- The three atomics 0, `main` and the four background threads. -/
def init : Conf :=
  ⟨⟨Memory.init fun _ => 0, []⟩,
    .loadTotal TView.init ::ₘ Multiset.replicate 4 (.worker 25 TView.init)⟩

def Reachable (c : Conf) : Prop := ReflTransGen Step init c

/-! ### The invariant -/

/-- The `fetch_add`s of `num_done` a thread has still to make. -/
@[simp] def Thread.pending : Thread → Nat
  | .worker k _ => k
  | .addDone k _ _ => k + 1
  | .addTime k _ _ | .setMax k _ _ => k
  | _ => 0

@[simp] def Thread.isMain : Thread → Nat
  | .loadTotal _ | .loadMax _ _ | .loadN _ _ _ | .broke _ => 1
  | _ => 0

/-- What `main` knows: the lines it printed report no more than its view of
    `num_done` has reached, and once it broke, all 100 `fetch_add`s are
    done. -/
def Thread.Ok : Thread → Shared → Prop
  | .loadTotal T, s | .loadMax _ T, s | .loadN _ _ T, s =>
      ∀ l ∈ s.printed, l.numDone ≤ T.cur .numDone
  | .broke _, s => (s.mem .numDone).length = 101
  | _, _ => True

theorem Thread.ok_of_not_main {u : Thread} (hu : u.isMain = 0) (s : Shared) : u.Ok s := by
  cases u <;> simp_all [Thread.Ok]

structure Inv (c : Conf) : Prop where
  counts : c.shared.mem.Counts .numDone
  pending : (c.shared.mem .numDone).length + tally Thread.pending c.threads = 101
  main : tally Thread.isMain c.threads = 1
  sorted : c.shared.printed.Pairwise (fun l l' => l.numDone ≤ l'.numDone)
  printed_lt : ∀ l ∈ c.shared.printed, l.numDone < 100
  threads : ∀ t ∈ c.threads, t.Ok c.shared

theorem inv_init : Inv init where
  counts := Memory.counts_init _
  pending := by simp [init, tally, Memory.init]
  main := by simp [init, tally]
  sorted := List.Pairwise.nil
  printed_lt l hl := by cases hl
  threads t ht := by
    have ht' : t ∈ Thread.loadTotal TView.init ::ₘ Multiset.replicate 4 (.worker 25 TView.init) := ht
    rcases Multiset.mem_cons.mp ht' with rfl | ht
    · intro l hl
      cases hl
    · rw [Multiset.eq_of_mem_replicate ht]
      trivial

section Act

variable {s s' : Shared} {t t' : Thread}

/-- Each `fetch_add(1)` of `num_done` appends the next value; nothing else
    writes it. -/
theorem Act.counts (ha : Act s t s' t') (hc : s.mem.Counts .numDone) :
    s'.mem.Counts .numDone ∧
      (s'.mem .numDone).length + t'.pending = (s.mem .numDone).length + t.pending ∧
      t'.pending ≤ t.pending := by
  cases ha with
  | addDone h =>
      obtain ⟨-, hlen, hc'⟩ := Update.of_counts hc h
      refine ⟨hc', ?_, by simp⟩
      simp only [Thread.pending]
      rw [hlen]
      omega
  | addTime h =>
      have hf := h.frame (show Loc.numDone ≠ _ by decide)
      exact ⟨hc.of_eq hf, by simp only [hf, Thread.pending], le_refl _⟩
  | setMax h =>
      have hf := h.frame (show Loc.numDone ≠ _ by decide)
      exact ⟨hc.of_eq hf, by simp only [hf, Thread.pending], le_refl _⟩
  | process | loadTotal | loadMax | loadBreak | loadPrint => exact ⟨hc, rfl, by simp⟩

theorem Act.isMain_eq (ha : Act s t s' t') : t'.isMain = t.isMain := by
  cases ha <;> rfl

/-- Only `main` prints. -/
theorem Act.printed_eq (ha : Act s t s' t') (ht : t.isMain = 0) : s'.printed = s.printed := by
  cases ha <;> simp_all

/-- `main`'s loads of `total_time` and `max_time` leave its view of
    `num_done`; a load of `num_done` moves it to the timestamp read, which is
    the value printed. -/
theorem Act.ok (ha : Act s t s' t') (hc : s.mem.Counts .numDone)
    (hlen : (s.mem .numDone).length ≤ 101) (hok : t.Ok s) : t'.Ok s' := by
  cases ha with
  | process | addDone | addTime | setMax => trivial
  | loadTotal h =>
      cases h with
      | read _ =>
          intro l hl
          rw [TView.read_cur_ne rfl (by decide)]
          exact hok l hl
  | loadMax h =>
      cases h with
      | read _ =>
          intro l hl
          rw [TView.read_cur_ne rfl (by decide)]
          exact hok l hl
  | loadBreak h =>
      obtain ⟨-, hn, -⟩ := Load.of_counts hc h
      show (s.mem .numDone).length = 101
      omega
  | @loadPrint t0 m0 n T T' h hn =>
      obtain ⟨hge, -, R, rfl⟩ := Load.of_counts hc h
      intro l hl
      rw [TView.read_cur_self rfl hge]
      rcases List.mem_append.mp hl with hl | hl
      · exact Nat.le_trans (hok l hl) hge
      · rw [List.mem_singleton.mp hl, numDone_printStatistics]

/-- A line `main` prints reports at least what every earlier line did, and
    fewer than 100 items. -/
theorem Act.printed (ha : Act s t s' t') (hc : s.mem.Counts .numDone)
    (hlen : (s.mem .numDone).length ≤ 101) (hok : t.Ok s)
    (hsort : s.printed.Pairwise (fun l l' => l.numDone ≤ l'.numDone))
    (hlt : ∀ l ∈ s.printed, l.numDone < 100) :
    s'.printed.Pairwise (fun l l' => l.numDone ≤ l'.numDone) ∧
      ∀ l ∈ s'.printed, l.numDone < 100 := by
  cases ha with
  | @loadPrint t0 m0 n T T' h hn =>
      obtain ⟨hge, hn', -⟩ := Load.of_counts hc h
      refine ⟨List.pairwise_append.mpr ⟨hsort, List.pairwise_singleton _ _, ?_⟩, ?_⟩
      · intro a ha b hb
        rw [List.mem_singleton.mp hb, numDone_printStatistics]
        exact Nat.le_trans (hok a ha) hge
      · intro l hl
        rcases List.mem_append.mp hl with hl | hl
        · exact hlt l hl
        · rw [List.mem_singleton.mp hl, numDone_printStatistics]
          omega
  | process | addDone | addTime | setMax | loadTotal | loadMax | loadBreak => exact ⟨hsort, hlt⟩

end Act

/-- What another thread knows survives a step that prints nothing and,
    once all 100 `fetch_add`s are done, makes no more. -/
theorem Thread.Ok.frame {u : Thread} {s s' : Shared} (hok : u.Ok s) (hp : s'.printed = s.printed)
    (hlen : (s.mem .numDone).length = 101 → (s'.mem .numDone).length = 101) : u.Ok s' := by
  cases u with
  | loadTotal T | loadMax _ T | loadN _ _ T =>
      intro l hl
      rw [hp] at hl
      exact hok l hl
  | broke T => exact hlen hok
  | worker | addDone | addTime | setMax => trivial

theorem inv_step {c c' : Conf} (h : Inv c) (hs : Step c c') : Inv c' := by
  cases hs with
  | duo rest hh => exact hh.elim
  | @solo s s' t t' rest ha =>
      -- the tallies split at the thread that moves
      have hp : (s.mem .numDone).length + (t.pending + tally Thread.pending rest) = 101 := by
        rw [← tally_cons]
        exact h.pending
      have hm : t.isMain + tally Thread.isMain rest = 1 := by
        rw [← tally_cons]
        exact h.main
      have hok : t.Ok s := h.threads t (Multiset.mem_cons_self _ _)
      obtain ⟨hc', hlen', hdec⟩ := ha.counts h.counts
      have hlen : (s.mem .numDone).length ≤ 101 := by omega
      obtain ⟨hsort, hlt⟩ := ha.printed h.counts hlen hok h.sorted h.printed_lt
      refine ⟨hc', ?_, ?_, hsort, hlt, ?_⟩
      · show (s'.mem .numDone).length + tally Thread.pending (t' ::ₘ rest) = 101
        rw [tally_cons]
        omega
      · show tally Thread.isMain (t' ::ₘ rest) = 1
        rw [tally_cons, ha.isMain_eq]
        exact hm
      · intro u hu
        rcases Multiset.mem_cons.mp hu with rfl | hu
        · exact ha.ok h.counts hlen hok
        · by_cases h0 : t.isMain = 0
          -- a background thread moved: it printed nothing, and with all 100
          -- `fetch_add`s done it has none left to make
          · refine (h.threads u (Multiset.mem_cons_of_mem hu)).frame (ha.printed_eq h0) ?_
            intro (h101 : (s.mem .numDone).length = 101)
            show (s'.mem .numDone).length = 101
            omega
          -- `main` moved, and `u` is not `main`
          · have hu0 : u.isMain = 0 := by
              have := le_tally (f := Thread.isMain) hu
              omega
            exact Thread.ok_of_not_main hu0 _

theorem inv_reachable {c : Conf} (hr : Reachable c) : Inv c := by
  induction hr with
  | refl => exact inv_init
  | tail _ hs ih => exact inv_step ih hs

/-- In every run of `inaccurate_statistics`, the lines `main` prints never
    report fewer items than the ones before and report fewer than 100, and
    `main` leaves its loop only once `num_done`'s writes are all of
    `0, 1, …, 100`. -/
theorem progress_never_decreases (c : Conf) (hr : Reachable c) :
    c.shared.printed.Pairwise (fun l l' => l.numDone ≤ l'.numDone) ∧
      (∀ l ∈ c.shared.printed, l.numDone < 100) ∧
      (∀ T, Thread.broke T ∈ c.threads → (c.shared.mem .numDone).map Msg.val = List.range 101) := by
  have h := inv_reachable hr
  refine ⟨h.sorted, h.printed_lt, fun T hT => ?_⟩
  have h101 : (c.shared.mem .numDone).length = 101 := h.threads _ hT
  rw [h.counts, h101]

/-- A background thread's view after its `fetch_add` of `num_done` read the
    initial 0. -/
def addedOne : TView Loc := (TView.init.read .relaxed .numDone 0 ⊥).write .numDone 1

/-- The memory after a background thread's first two updates, for an item
    that took 5 microseconds: `num_done` is 1 and `total_time` 5, but
    `max_time` is still 0. -/
def halfUpdated : Memory Loc Nat :=
  ((Memory.init fun _ => 0).append .numDone
      ⟨1, (TView.init.read .relaxed .numDone 0 ⊥).released .relaxed .numDone 1 ⊥⟩).append .totalTime
    ⟨5, (addedOne.read .relaxed .totalTime 0 ⊥).released .relaxed .totalTime 1 ⊥⟩

/-- `main`'s view after loading the 5 of `total_time`, the 0 of `max_time`
    and the 1 of `num_done`. -/
def readHalf : TView Loc :=
  ((TView.init.read .relaxed .totalTime 1
      ((addedOne.read .relaxed .totalTime 0 ⊥).released .relaxed .totalTime 1 ⊥)).read
    .relaxed .maxTime 0 ⊥).read .relaxed .numDone 1
    ((TView.init.read .relaxed .numDone 0 ⊥).released .relaxed .numDone 1 ⊥)

/-- `main` read the statistics between a background thread's `fetch_add`
    of `total_time` and its `fetch_max`, and printed one item done with an
    average of 5 and a peak of 0. -/
def averageAbovePeak : Conf :=
  ⟨⟨halfUpdated, [printStatistics 1 5 0]⟩,
    .loadTotal readHalf ::ₘ .setMax 24 5 ((addedOne.read .relaxed .totalTime 0 ⊥).write .totalTime 1) ::ₘ
      Multiset.replicate 3 (.worker 25 TView.init)⟩

theorem reach_averageAbovePeak : Reachable averageAbovePeak := by
  have e : init = ⟨⟨Memory.init fun _ => 0, []⟩, .worker 25 TView.init ::ₘ .loadTotal TView.init ::ₘ
      Multiset.replicate 3 (.worker 25 TView.init)⟩ := by
    show Interleaving.Conf.mk _
      (Thread.loadTotal TView.init ::ₘ Multiset.replicate (3 + 1) (Thread.worker 25 TView.init)) = _
    rw [Multiset.replicate_succ, Multiset.cons_swap]
  -- the background thread's `fetch_add`s of `num_done` and `total_time`, each reading the 0
  have a1 : Act ⟨Memory.init fun _ => 0, []⟩ (.worker 25 TView.init) ⟨Memory.init fun _ => 0, []⟩
      (.addDone 24 5 TView.init) := Act.process
  have a2 : Act ⟨Memory.init fun _ => 0, []⟩ (.addDone 24 5 TView.init)
      ⟨(Memory.init fun _ => 0).append .numDone
        ⟨1, (TView.init.read .relaxed .numDone 0 ⊥).released .relaxed .numDone 1 ⊥⟩, []⟩
      (.addTime 24 5 addedOne) :=
    Act.addDone (Update.latest (m := ⟨0, ⊥⟩) rfl)
  have a3 : Act ⟨(Memory.init fun _ => 0).append .numDone
        ⟨1, (TView.init.read .relaxed .numDone 0 ⊥).released .relaxed .numDone 1 ⊥⟩, []⟩
      (.addTime 24 5 addedOne) ⟨halfUpdated, []⟩
      (.setMax 24 5 ((addedOne.read .relaxed .totalTime 0 ⊥).write .totalTime 1)) :=
    Act.addTime (Update.latest (m := ⟨0, ⊥⟩) rfl)
  have hw : ReflTransGen Step init ⟨⟨halfUpdated, []⟩,
      .setMax 24 5 ((addedOne.read .relaxed .totalTime 0 ⊥).write .totalTime 1) ::ₘ
        .loadTotal TView.init ::ₘ Multiset.replicate 3 (.worker 25 TView.init)⟩ := by
    rw [e]
    exact ((reach_solo _ a1).trans (reach_solo _ a2)).trans (reach_solo _ a3)
  rw [Multiset.cons_swap (Thread.setMax 24 5 _)] at hw
  -- `main` loads the newest `total_time`, the initial `max_time` and the newest `num_done`
  have r1 : Reads TView.init halfUpdated .totalTime 1
      ⟨5, (addedOne.read .relaxed .totalTime 0 ⊥).released .relaxed .totalTime 1 ⊥⟩ :=
    ⟨Nat.zero_le 1, rfl⟩
  have r2 : Reads (TView.init.read .relaxed .totalTime 1
      ((addedOne.read .relaxed .totalTime 0 ⊥).released .relaxed .totalTime 1 ⊥)) halfUpdated
      .maxTime 0 ⟨0, ⊥⟩ := ⟨by decide, rfl⟩
  have r3 : Reads ((TView.init.read .relaxed .totalTime 1
      ((addedOne.read .relaxed .totalTime 0 ⊥).released .relaxed .totalTime 1 ⊥)).read
        .relaxed .maxTime 0 ⊥) halfUpdated .numDone 1
      ⟨1, (TView.init.read .relaxed .numDone 0 ⊥).released .relaxed .numDone 1 ⊥⟩ :=
    ⟨by decide, rfl⟩
  have b3 : Act ⟨halfUpdated, []⟩ (.loadN 5 0 ((TView.init.read .relaxed .totalTime 1
      ((addedOne.read .relaxed .totalTime 0 ⊥).released .relaxed .totalTime 1 ⊥)).read
        .relaxed .maxTime 0 ⊥)) ⟨halfUpdated, [printStatistics 1 5 0]⟩ (.loadTotal readHalf) :=
    Act.loadPrint (Load.read r3) (by decide)
  have hm : ReflTransGen Step ⟨⟨halfUpdated, []⟩, .loadTotal TView.init ::ₘ
      .setMax 24 5 ((addedOne.read .relaxed .totalTime 0 ⊥).write .totalTime 1) ::ₘ
        Multiset.replicate 3 (.worker 25 TView.init)⟩ averageAbovePeak :=
    ((reach_solo _ (Act.loadTotal (Load.read r1))).trans
      (reach_solo _ (Act.loadMax (Load.read r2)))).trans (reach_solo _ b3)
  exact hw.trans hm

theorem progress_never_decreases_averageAbovePeak :
    Reachable averageAbovePeak ∧ averageAbovePeak.shared.printed = [.working 1 5 0] ∧
      (averageAbovePeak.shared.printed.Pairwise (fun l l' => l.numDone ≤ l'.numDone) ∧
        (∀ l ∈ averageAbovePeak.shared.printed, l.numDone < 100) ∧
        (∀ T, Thread.broke T ∈ averageAbovePeak.threads →
          (averageAbovePeak.shared.mem .numDone).map Msg.val = List.range 101)) :=
  ⟨reach_averageAbovePeak, rfl, progress_never_decreases averageAbovePeak reach_averageAbovePeak⟩

end Inaccurate

end Stats
