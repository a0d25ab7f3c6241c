import AtomicsAndLocks.Memory.Views

/-! # An acquire fence after relaxed loads (03-08_fence.rs)

    Ten spawned threads: the `i`-th computes `some_calculation(i)`, `i * i`,
    writes it to `DATA[i]`, a `static mut`, and stores `true` to `READY[i]`
    (`Release`).  The main thread, which spawns them before it touches
    memory, sleeps, loads every `READY[i]` (`Relaxed`) into `ready`, and if
    one of them is `true` runs `fence(Acquire)` and prints `DATA[i]` for
    every `i` with `ready[i]`.  `READY`'s `false` and `true` are 0 and 1.

    `DATA[i]` is not atomic, and its accesses are modelled as relaxed ones:
    the theorem shows that when the main thread reads `DATA[i]` it already
    knows the write of `i * i`, the only write after the initial 0, so its
    read happens after that write and races with no other access.  The
    relaxed loads of `READY` acquire nothing themselves; each adds the view
    its `true` released to `acq`, which the one fence joins. -/

namespace Fence

open Views Relation

inductive Loc
  | data (i : Fin 10)
  | ready (i : Fin 10)
  deriving DecidableEq

/-- A spawned thread. -/
inductive Worker
  /-- `DATA[i] = data` is next. -/
  | start
  /-- `READY[i].store(true, Release)` is next. -/
  | written
  | done

/-- The main thread. -/
inductive Main
  /-- `from_fn` has loaded `READY[j]` for each `j` below the length of `ready`. -/
  | load (ready : List Bool)
  /-- After the fence, in `for i in 0..10`, at `i`. -/
  | print (i : Nat) (ready : List Bool)
  | done

structure Conf where
  mem : Memory Loc Nat
  workers : Fin 10 → Worker
  wviews : Fin 10 → TView Loc
  main : Main
  mview : TView Loc
  /-- What `println!` printed: `i` and `DATA[i]`. -/
  printed : List (Nat × Nat)

inductive Step : Conf → Conf → Prop
  | write {c : Conf} {i : Fin 10} (h : c.workers i = .start) :
      Step c { c with mem := c.mem.store (c.wviews i) .relaxed (.data i) (i * i),
                      workers := Function.update c.workers i .written,
                      wviews := Function.update c.wviews i
                        ((c.wviews i).write (.data i) (c.mem (.data i)).length) }
  | storeReady {c : Conf} {i : Fin 10} (h : c.workers i = .written) :
      Step c { c with mem := c.mem.store (c.wviews i) .release (.ready i) 1,
                      workers := Function.update c.workers i .done,
                      wviews := Function.update c.wviews i
                        ((c.wviews i).write (.ready i) (c.mem (.ready i)).length) }
  /-- `READY[k].load(Relaxed)`, `k` the number loaded so far. -/
  | loadReady {c : Conf} {rd : List Bool} {v : Nat} {T : TView Loc} (h : c.main = .load rd)
      (hk : rd.length < 10) (hl : Load .relaxed (.ready ⟨rd.length, hk⟩) c.mview c.mem v T) :
      Step c { c with main := .load (rd ++ [decide (v = 1)]), mview := T }
  /-- `ready.contains(&true)`: `fence(Acquire)`. -/
  | fence {c : Conf} {rd : List Bool} (h : c.main = .load rd) (hk : rd.length = 10)
      (ht : true ∈ rd) : Step c { c with main := .print 0 rd, mview := c.mview.fence .acquire }
  /-- No `READY` was `true`: nothing is printed. -/
  | noneReady {c : Conf} {rd : List Bool} (h : c.main = .load rd) (hk : rd.length = 10)
      (ht : true ∉ rd) : Step c { c with main := .done }
  | skip {c : Conf} {i : Nat} {rd : List Bool} (h : c.main = .print i rd) (hi : i < 10)
      (hr : rd[i]? = some false) : Step c { c with main := .print (i + 1) rd }
  /-- `ready[i]`: `DATA[i]` is read and printed. -/
  | printData {c : Conf} {i : Nat} {rd : List Bool} {v : Nat} {T : TView Loc}
      (h : c.main = .print i rd) (hi : i < 10) (hr : rd[i]? = some true)
      (hl : Load .relaxed (.data ⟨i, hi⟩) c.mview c.mem v T) :
      Step c { c with main := .print (i + 1) rd, mview := T, printed := c.printed ++ [(i, v)] }
  | printDone {c : Conf} {rd : List Bool} (h : c.main = .print 10 rd) :
      Step c { c with main := .done }

/-- `DATA` and `READY` zero, the ten threads spawned, nothing loaded. -/
def init : Conf :=
  ⟨Memory.init fun _ => 0, fun _ => .start, fun _ => TView.init, .load [], TView.init, []⟩

def Reachable (c : Conf) : Prop := ReflTransGen Step init c

/-! ## The invariant -/

/-- The writes to `DATA[i]` and `READY[i]` at each point of the `i`-th
    thread: `READY[i]`'s `true` releases a view that knows `DATA[i]`'s write. -/
def Written (i : Fin 10) : Worker → TView Loc → Memory Loc Nat → Prop
  | .start, _, M => M (.data i) = [⟨0, ⊥⟩] ∧ M (.ready i) = [⟨0, ⊥⟩]
  | .written, T, M => (∃ V, M (.data i) = [⟨0, ⊥⟩, ⟨i * i, V⟩]) ∧ M (.ready i) = [⟨0, ⊥⟩] ∧
      1 ≤ T.cur (.data i)
  | .done, _, M => (∃ V, M (.data i) = [⟨0, ⊥⟩, ⟨i * i, V⟩]) ∧
      ∃ R, M (.ready i) = [⟨0, ⊥⟩, ⟨1, R⟩] ∧ 1 ≤ R (.data i)

/-- `DATA[i]`'s write is out, and the view `v` knows it. -/
def Knows (c : Conf) (v : View Loc) (i : Fin 10) : Prop :=
  (∃ V, c.mem (.data i) = [⟨0, ⊥⟩, ⟨i * i, V⟩]) ∧ 1 ≤ v (.data i)

structure Inv (c : Conf) : Prop where
  written : ∀ i, Written i (c.workers i) (c.wviews i) c.mem
  /-- Each `true` loaded so far added a view that knows `DATA[j]` to `acq`. -/
  loaded : ∀ rd, c.main = .load rd →
    rd.length ≤ 10 ∧ ∀ j (hj : j < 10), rd[j]? = some true → Knows c c.mview.acq ⟨j, hj⟩
  /-- After the fence, the main thread knows `DATA[j]` for each `true`. -/
  printing : ∀ i rd, c.main = .print i rd →
    i ≤ 10 ∧ ∀ j (hj : j < 10), rd[j]? = some true → Knows c c.mview.cur ⟨j, hj⟩
  printed : ∀ p ∈ c.printed, p.2 = p.1 * p.1

theorem inv_init : Inv init where
  written _ := ⟨rfl, rfl⟩
  loaded rd h := by
    cases h
    exact ⟨by decide, fun j _ hj => by simp at hj⟩
  printing i rd h := by cases h
  printed p hp := by cases hp

/-! ## The spawned threads' steps -/

/-- The `i`-th thread's write leaves every other thread's locations alone. -/
theorem Written.store_ne {i j : Fin 10} (hij : j ≠ i) {w : Worker} {T T' : TView Loc}
    {M : Memory Loc Nat} {o : Views.Ordering} {l : Loc} (hl : l = .data i ∨ l = .ready i) {v : Nat}
    (h : Written j w T M) : Written j w T (M.store T' o l v) := by
  have hd : Loc.data j ≠ l := by rcases hl with rfl | rfl <;> simp [hij]
  have hr : Loc.ready j ≠ l := by rcases hl with rfl | rfl <;> simp [hij]
  cases w with
  | start => exact ⟨by rw [Memory.store_ne _ _ _ _ hd]; exact h.1,
      by rw [Memory.store_ne _ _ _ _ hr]; exact h.2⟩
  | written => exact ⟨by rw [Memory.store_ne _ _ _ _ hd]; exact h.1,
      by rw [Memory.store_ne _ _ _ _ hr]; exact h.2.1, h.2.2⟩
  | done => exact ⟨by rw [Memory.store_ne _ _ _ _ hd]; exact h.1,
      by rw [Memory.store_ne _ _ _ _ hr]; exact h.2⟩

/-- A write to the `i`-th thread's locations keeps what any view knows of `DATA[j]`
    for the others, and for `i` once `DATA[i]` is written. -/
theorem Knows.store {c : Conf} {v : View Loc} {j : Fin 10} (h : Knows c v j)
    {T : TView Loc} {o : Views.Ordering} {l : Loc} (hl : l ≠ .data j) {x : Nat} :
    Knows { c with mem := c.mem.store T o l x } v j := by
  obtain ⟨⟨V, hV⟩, hk⟩ := h
  exact ⟨⟨V, by simp only [Memory.store_ne _ _ _ _ hl.symm]; exact hV⟩, hk⟩

theorem inv_write {c : Conf} {i : Fin 10} (h : Inv c) (hw : c.workers i = .start) :
    Inv { c with mem := c.mem.store (c.wviews i) .relaxed (.data i) (i * i),
                 workers := Function.update c.workers i .written,
                 wviews := Function.update c.wviews i
                   ((c.wviews i).write (.data i) (c.mem (.data i)).length) } := by
  have hW := h.written i
  rw [hw] at hW
  obtain ⟨hd, hr⟩ := hW
  -- nobody knows `DATA[i]` yet: no `true` of `READY[i]` has been read
  have hnk : ∀ v, ¬ Knows c v i := by
    rintro v ⟨⟨V, hV⟩, -⟩
    rw [hd] at hV
    simp at hV
  refine ⟨fun j => ?_, fun rd hm => ?_, fun k rd hm => ?_, h.printed⟩
  · by_cases hj : j = i
    · subst hj
      simp only [Function.update_self]
      refine ⟨⟨(c.wviews j).released .relaxed (.data j) 1 ⊥, by simp [hd]⟩, ?_, ?_⟩
      · rw [Memory.store_ne _ _ _ _ (by simp)]
        exact hr
      -- the thread knows its own write, at timestamp 1
      · show 1 ≤ max _ _
        simp [hd]
    · simp only [Function.update_of_ne hj]
      exact (h.written j).store_ne hj (.inl rfl)
  · obtain ⟨hlen, hk⟩ := h.loaded rd hm
    refine ⟨hlen, fun j hj hrj => ?_⟩
    have hK := hk j hj hrj
    refine hK.store ?_
    intro he
    cases he
    exact hnk _ hK
  · obtain ⟨hle, hk⟩ := h.printing k rd hm
    refine ⟨hle, fun j hj hrj => ?_⟩
    have hK := hk j hj hrj
    refine hK.store ?_
    intro he
    cases he
    exact hnk _ hK

theorem inv_storeReady {c : Conf} {i : Fin 10} (h : Inv c) (hw : c.workers i = .written) :
    Inv { c with mem := c.mem.store (c.wviews i) .release (.ready i) 1,
                 workers := Function.update c.workers i .done,
                 wviews := Function.update c.wviews i
                   ((c.wviews i).write (.ready i) (c.mem (.ready i)).length) } := by
  have hW := h.written i
  rw [hw] at hW
  obtain ⟨hd, hr, hk⟩ := hW
  refine ⟨fun j => ?_, fun rd hm => ?_, fun k rd hm => ?_, h.printed⟩
  · by_cases hj : j = i
    · subst hj
      simp only [Function.update_self]
      refine ⟨by rw [Memory.store_ne _ _ _ _ (by simp)]; exact hd,
        (c.wviews j).released .release (.ready j) 1 ⊥, by simp [hr], ?_⟩
      -- the release store releases the thread's view, which knows its write
      exact Nat.le_trans hk (TView.le_released rfl (Loc.data j))
    · simp only [Function.update_of_ne hj]
      exact (h.written j).store_ne hj (.inr rfl)
  · obtain ⟨hlen, hk⟩ := h.loaded rd hm
    exact ⟨hlen, fun j hj hrj => (hk j hj hrj).store (by simp)⟩
  · obtain ⟨hle, hk⟩ := h.printing k rd hm
    exact ⟨hle, fun j hj hrj => (hk j hj hrj).store (by simp)⟩

/-! ## The main thread's steps -/

/-- A relaxed load of `READY[k]` that returns `true` adds to `acq` a view that
    knows `DATA[k]`. -/
theorem load_ready {c : Conf} (h : Inv c) {k : Fin 10} {v : Nat} {T : TView Loc}
    (hl : Load .relaxed (.ready k) c.mview c.mem v T) (hv : v = 1) : Knows c T.acq k := by
  cases hl with
  | @read ts m hm =>
      have hW := h.written k
      cases hc : c.workers k with
      | start =>
          rw [hc] at hW
          rw [(Reads.of_singleton hW.2 hm).2] at hv
          cases hv
      | written =>
          rw [hc] at hW
          rw [(Reads.of_singleton hW.2.1 hm).2] at hv
          cases hv
      | done =>
          rw [hc] at hW
          obtain ⟨hd, R, hR, hRd⟩ := hW
          rcases Reads.of_pair hR hm with ⟨-, rfl⟩ | ⟨-, rfl⟩
          · cases hv
          · exact ⟨hd, Nat.le_trans hRd (TView.le_read_acq (Loc.data k))⟩

/-- The main thread's read of `DATA[i]`, knowing its write, reads `i * i`. -/
theorem load_data {c : Conf} {i : Fin 10} (hK : Knows c c.mview.cur i) {v : Nat} {T : TView Loc}
    (hl : Load .relaxed (.data i) c.mview c.mem v T) : v = i * i := by
  obtain ⟨⟨V, hV⟩, hk⟩ := hK
  cases hl with
  | @read ts m hm =>
      rcases Reads.of_pair hV hm with ⟨rfl, -⟩ | ⟨-, rfl⟩
      · exact absurd hm.visible (by omega)
      · rfl

theorem inv_loadReady {c : Conf} {rd : List Bool} {v : Nat} {T : TView Loc} (h : Inv c)
    (hm : c.main = .load rd) (hk : rd.length < 10)
    (hl : Load .relaxed (.ready ⟨rd.length, hk⟩) c.mview c.mem v T) :
    Inv { c with main := .load (rd ++ [decide (v = 1)]), mview := T } := by
  obtain ⟨-, hkn⟩ := h.loaded rd hm
  have hacq : c.mview.acq ≤ T.acq := by
    cases hl with
    | read => exact TView.acq_le_read
  refine ⟨h.written, fun rd' hm' => ?_, (fun i rd' hm' => by cases hm'), h.printed⟩
  cases hm'
  refine ⟨by simp; omega, fun j hj hrj => ?_⟩
  rw [List.getElem?_append] at hrj
  split at hrj
  -- an earlier `true`: what `acq` knew, it still knows
  · obtain ⟨hd, hle⟩ := hkn j hj hrj
    exact ⟨hd, Nat.le_trans hle (hacq _)⟩
  -- this load's `true`
  · have hjk : j = rd.length := by
      rw [List.getElem?_singleton] at hrj
      split at hrj <;> [omega; cases hrj]
    subst hjk
    have hv : v = 1 := by
      rw [List.getElem?_singleton] at hrj
      simpa using hrj
    exact load_ready h hl hv

theorem inv_fence {c : Conf} {rd : List Bool} (h : Inv c) (hm : c.main = .load rd) :
    Inv { c with main := .print 0 rd, mview := c.mview.fence .acquire } := by
  obtain ⟨-, hkn⟩ := h.loaded rd hm
  refine ⟨h.written, (fun rd' hm' => by cases hm'), fun i rd' hm' => ?_, h.printed⟩
  cases hm'
  refine ⟨Nat.zero_le 10, fun j hj hrj => ?_⟩
  -- the fence joins `acq` into what the thread knows
  obtain ⟨hd, hle⟩ := hkn j hj hrj
  exact ⟨hd, Nat.le_trans hle (TView.acq_le_fence rfl _)⟩

theorem inv_printData {c : Conf} {i : Nat} {rd : List Bool} {v : Nat} {T : TView Loc}
    (h : Inv c) (hm : c.main = .print i rd) (hi : i < 10) (hr : rd[i]? = some true)
    (hl : Load .relaxed (.data ⟨i, hi⟩) c.mview c.mem v T) :
    Inv { c with main := .print (i + 1) rd, mview := T, printed := c.printed ++ [(i, v)] } := by
  obtain ⟨-, hkn⟩ := h.printing i rd hm
  have hcur : c.mview.cur ≤ T.cur := by
    cases hl with
    | read => exact TView.cur_le_read
  refine ⟨h.written, (fun rd' hm' => by cases hm'), fun k rd' hm' => ?_, fun p hp => ?_⟩
  · cases hm'
    refine ⟨hi, fun j hj hrj => ?_⟩
    obtain ⟨hd, hle⟩ := hkn j hj hrj
    exact ⟨hd, Nat.le_trans hle (hcur _)⟩
  · rcases List.mem_append.mp hp with hp | hp
    · exact h.printed p hp
    · rw [List.mem_singleton] at hp
      subst hp
      exact load_data (hkn i hi hr) hl

theorem inv_step {c c' : Conf} (h : Inv c) (hs : Step c c') : Inv c' := by
  cases hs with
  | write hw => exact inv_write h hw
  | storeReady hw => exact inv_storeReady h hw
  | loadReady hm hk hl => exact inv_loadReady h hm hk hl
  | fence hm => exact inv_fence h hm
  | noneReady hm =>
      exact ⟨h.written, (fun rd hm' => by cases hm'), (fun i rd hm' => by cases hm'), h.printed⟩
  | skip hm hi hr =>
      obtain ⟨-, hkn⟩ := h.printing _ _ hm
      refine ⟨h.written, (fun rd hm' => by cases hm'), fun i rd hm' => ?_, h.printed⟩
      cases hm'
      exact ⟨hi, hkn⟩
  | printData hm hi hr hl => exact inv_printData h hm hi hr hl
  | printDone hm =>
      exact ⟨h.written, (fun rd hm' => by cases hm'), (fun i rd hm' => by cases hm'), h.printed⟩

theorem inv_reachable {c : Conf} (hr : Reachable c) : Inv c := by
  induction hr with
  | refl => exact inv_init
  | tail _ hs ih => exact inv_step ih hs

/-- In every run: every value the main thread prints for `DATA[i]` is
    `i * i`; and whenever it is about to read `DATA[i]`, `DATA[i]` holds the
    initial 0 and then `i * i`, and the main thread already knows the write
    of `i * i`, so its read of the `static mut` comes after that write. -/
theorem prints_calculated_data (c : Conf) (hr : Reachable c) :
    (∀ p ∈ c.printed, p.2 = p.1 * p.1) ∧
    (∀ i rd (hi : i < 10), c.main = .print i rd → rd[i]? = some true →
      (∃ V, c.mem (.data ⟨i, hi⟩) = [⟨0, ⊥⟩, ⟨i * i, V⟩]) ∧ 1 ≤ c.mview.cur (.data ⟨i, hi⟩)) := by
  have h := inv_reachable hr
  refine ⟨h.printed, fun i rd hi hm hrd => ?_⟩
  exact (h.printing i rd hm).2 i hi hrd

/-- The fourth thread writes `DATA[3]` and releases `READY[3]`; the main
    thread loads the ten `READY`s, each at its latest write, finds only
    `READY[3]` true, runs the fence and prints `DATA[3]`, which is 9. -/
theorem reach_printedNine : ∃ c, Reachable c ∧ c.printed = [(3, 9)] := by
  have w := (ReflTransGen.single (Step.write (c := init) (i := 3) rfl)).tail
    (Step.storeReady (i := 3) rfl)
  have l := w.tail (Step.loadReady rfl (by decide) (Load.read (Reads.latest (by decide) rfl)))
  have l := l.tail (Step.loadReady rfl (by decide) (Load.read (Reads.latest (by decide) rfl)))
  have l := l.tail (Step.loadReady rfl (by decide) (Load.read (Reads.latest (by decide) rfl)))
  have l := l.tail (Step.loadReady rfl (by decide) (Load.read (Reads.latest (by decide) rfl)))
  have l := l.tail (Step.loadReady rfl (by decide) (Load.read (Reads.latest (by decide) rfl)))
  have l := l.tail (Step.loadReady rfl (by decide) (Load.read (Reads.latest (by decide) rfl)))
  have l := l.tail (Step.loadReady rfl (by decide) (Load.read (Reads.latest (by decide) rfl)))
  have l := l.tail (Step.loadReady rfl (by decide) (Load.read (Reads.latest (by decide) rfl)))
  have l := l.tail (Step.loadReady rfl (by decide) (Load.read (Reads.latest (by decide) rfl)))
  have l := l.tail (Step.loadReady rfl (by decide) (Load.read (Reads.latest (by decide) rfl)))
  have p := l.tail (Step.fence rfl (by decide) (by decide))
  have p := p.tail (Step.skip rfl (by decide) (by decide))
  have p := p.tail (Step.skip rfl (by decide) (by decide))
  have p := p.tail (Step.skip rfl (by decide) (by decide))
  -- the fence joined the view `READY[3]`'s `true` released, which knows `DATA[3]`
  have p := p.tail (Step.printData rfl (by decide) (by decide)
    (Load.read (Reads.latest (by decide) rfl)))
  have p := p.tail (Step.skip rfl (by decide) (by decide))
  have p := p.tail (Step.skip rfl (by decide) (by decide))
  have p := p.tail (Step.skip rfl (by decide) (by decide))
  have p := p.tail (Step.skip rfl (by decide) (by decide))
  have p := p.tail (Step.skip rfl (by decide) (by decide))
  have p := p.tail (Step.skip rfl (by decide) (by decide))
  exact ⟨_, p.tail (Step.printDone rfl), by decide⟩

theorem prints_calculated_data_printedNine :
    ∃ c, Reachable c ∧ c.printed = [(3, 9)] ∧
      ((∀ p ∈ c.printed, p.2 = p.1 * p.1) ∧
        (∀ i rd (hi : i < 10), c.main = .print i rd → rd[i]? = some true →
          (∃ V, c.mem (.data ⟨i, hi⟩) = [⟨0, ⊥⟩, ⟨i * i, V⟩]) ∧
            1 ≤ c.mview.cur (.data ⟨i, hi⟩))) := by
  obtain ⟨c, hr, hp⟩ := reach_printedNine
  exact ⟨c, hr, hp, prints_calculated_data c hr⟩

end Fence
