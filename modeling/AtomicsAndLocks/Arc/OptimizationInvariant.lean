import AtomicsAndLocks.Arc.Optimization

/-! # The optimised `Arc` — the counting invariant

    While no overflow guard has fired, both counters count exactly what the
    threads hold:

    * `data_ref_count` is the number of `Arc`s, owned or leaked;
    * `alloc_ref_count` is the number of `Weak`s, owned or leaked, plus the
      implicit weak: one for all `Arc`s while `data_ref_count > 0`, then owned
      by the `Arc::drop` that took the count to zero until it drops it —
      except inside `get_mut`'s window, where it holds `usize::MAX` and the
      count it replaced is exactly 1.

    The rest of `Inv` ties the ghost record to the counters (`T` is dropped
    once the strong count is gone, the allocation is freed once the weak count
    is gone) and keeps the borrows: a thread in the middle of an operation on
    a handle still owns that handle.  `inv_step` proves one step keeps `Inv`;
    `inv_reachable` lifts it to every run. -/

namespace Optimization

open Interleaving Usize

namespace Pc

/-- Program points at which the thread borrows one of its `Arc`s. -/
@[simp] def needsArc : Pc → Nat
  | .downgradeLoop _ => 1
  | .getMutLoad => 1
  | .getMutStore _ => 1
  | .getMutHeld => 1
  | _ => 0

/-- Program points at which the thread borrows one of its `Weak`s. -/
@[simp] def needsWeak : Pc → Nat
  | .upgradeLoop _ => 1
  | _ => 0

/-- Program points at which the thread owns the implicit weak. -/
@[simp] def implicitWeak : Pc → Nat
  | .dropData => 1
  | .dropWeak => 1
  | _ => 0

/-- Program points at which `get_mut` has parked the sentinel. -/
@[simp] def window : Pc → Nat
  | .getMutLoad => 1
  | .getMutStore _ => 1
  | _ => 0

/-- `get_mut` has seen `data_ref_count == 1` and is about to restore the count. -/
@[simp] def uniqueStore : Pc → Nat
  | .getMutStore true => 1
  | _ => 0

/-- The thread holds the `&mut T` that `get_mut` returned. -/
@[simp] def held : Pc → Nat
  | .getMutHeld => 1
  | _ => 0

/-- `T` is about to be dropped. -/
@[simp] def dropping : Pc → Nat
  | .dropData => 1
  | _ => 0

/-- The allocation is about to be freed. -/
@[simp] def freeing : Pc → Nat
  | .free => 1
  | _ => 0

/-- `abort()` is about to run. -/
@[simp] def pendingAbort : Pc → Nat
  | .aborting => 1
  | _ => 0

theorem window_add_held_le (p : Pc) : p.window + p.held ≤ p.needsArc := by
  cases p <;> simp [window, held, needsArc]

theorem uniqueStore_le_window (p : Pc) : p.uniqueStore ≤ p.window := by
  cases p with
  | getMutStore b => cases b <;> simp [uniqueStore, window]
  | _ => simp [uniqueStore, window]

theorem dropping_le_implicitWeak (p : Pc) : p.dropping ≤ p.implicitWeak := by
  cases p <;> simp [dropping, implicitWeak]

/-- Every program point but `idle` is one of the counted kinds. -/
theorem eq_idle_of_counts {p : Pc}
    (h : p.needsArc + p.needsWeak + p.implicitWeak + p.freeing + p.pendingAbort = 0) :
    p = .idle := by
  cases p <;> simp_all [needsArc, needsWeak, implicitWeak, freeing, pendingAbort]

end Pc

/-- A thread in the middle of an operation on a handle still owns it. -/
def Borrows (t : Thread) : Prop :=
  t.pc.needsArc ≤ t.arcs ∧ t.pc.needsWeak ≤ t.weaks

/-- How many threads stand where the indicator `f` says. -/
def count (f : Pc → Nat) (c : Conf) : Nat := tally (fun t => f t.pc) c.threads

@[simp] theorem count_eq (f : Pc → Nat) (c : Conf) :
    count f c = tally (fun t => f t.pc) c.threads := rfl

/-- What `alloc_ref_count` would hold outside `get_mut`'s window: the live
    `Weak`s and the implicit weak, owned by the `Arc`s or by a dropping thread. -/
def weakCount (c : Conf) : Nat :=
  liveWeaks c + count Pc.implicitWeak c + min 1 c.shared.dataRefCount

/-- The invariant of every configuration reached without an overflow guard firing. -/
structure Inv (c : Conf) : Prop where
  /-- `data_ref_count` counts the live `Arc`s. -/
  strong : c.shared.dataRefCount = liveArcs c
  data_le : c.shared.dataRefCount ≤ MAX
  /-- Outside the window `alloc_ref_count` counts the weak references. -/
  alloc_closed : count Pc.window c = 0 → c.shared.allocRefCount = weakCount c
  /-- Inside it, it holds the sentinel, and the count it replaced was 1. -/
  alloc_open : 0 < count Pc.window c → c.shared.allocRefCount = MAX ∧ weakCount c = 1
  window_le : count Pc.window c ≤ 1
  weak_le : weakCount c ≤ MAX - 1
  /-- At most one owner of the implicit weak. -/
  implicit_le : min 1 c.shared.dataRefCount + count Pc.implicitWeak c ≤ 1
  /-- `T` is alive, being dropped, or dropped once. -/
  drops : c.shared.dataDrops + count Pc.dropping c + min 1 c.shared.dataRefCount = 1
  /-- The allocation is in use, being freed, or freed once. -/
  frees : c.shared.frees + count Pc.freeing c + min 1 (weakCount c) = 1
  /-- A `get_mut` that saw a unique `Arc` still sees one. -/
  unique : 0 < count Pc.uniqueStore c → c.shared.dataRefCount = 1
  /-- While the `&mut T` is held there is one `Arc`, no weak, and no window. -/
  held : 0 < count Pc.held c →
    c.shared.dataRefCount = 1 ∧ weakCount c = 1 ∧ count Pc.window c = 0
  borrows : ∀ t ∈ c.threads, Borrows t
  no_abort : count Pc.pendingAbort c = 0

/-- The threads not stepping keep their borrows; summed up, these bounds. -/
theorem rest_bounds {m : Multiset Thread} (h : ∀ u ∈ m, Borrows u) :
    tally (fun u => u.pc.window) m + tally (fun u => u.pc.held) m
        ≤ tally Thread.arcs m ∧
      tally (fun u => u.pc.needsWeak) m ≤ tally Thread.weaks m ∧
      tally (fun u => u.pc.uniqueStore) m ≤ tally (fun u => u.pc.window) m ∧
      tally (fun u => u.pc.dropping) m ≤ tally (fun u => u.pc.implicitWeak) m := by
  have hwh : tally (fun u => u.pc.window) m + tally (fun u => u.pc.held) m
      ≤ tally (fun u => u.pc.needsArc) m := by
    rw [← tally_add_shares]
    exact tally_le_tally (fun u _ => Pc.window_add_held_le u.pc)
  have hna : tally (fun u => u.pc.needsArc) m ≤ tally Thread.arcs m :=
    tally_le_tally (fun u hu => (h u hu).1)
  refine ⟨hwh.trans hna, tally_le_tally (fun u hu => (h u hu).2), ?_, ?_⟩
  · exact tally_le_tally (fun u _ => Pc.uniqueStore_le_window u.pc)
  · exact tally_le_tally (fun u _ => Pc.dropping_le_implicitWeak u.pc)

/-! ## The invariant holds initially -/

theorem inv_init (n : Nat) : Inv (init n) where
  strong := by simp [init, liveArcs, Thread.empty]
  data_le := by simp [init, MAX]
  alloc_closed := by intro _; simp [init, weakCount, liveWeaks, Thread.empty]
  alloc_open := by intro h; simp [init, Thread.empty, Pc.window] at h
  window_le := by simp [init, Thread.empty, Pc.window]
  weak_le := by simp [init, weakCount, liveWeaks, Thread.empty, MAX]
  implicit_le := by simp [init, Thread.empty, Pc.implicitWeak]
  drops := by simp [init, Thread.empty, Pc.dropping]
  frees := by simp [init, weakCount, liveWeaks, Thread.empty]
  unique := by intro h; simp [init, Thread.empty, Pc.uniqueStore] at h
  held := by intro h; simp [init, Thread.empty, Pc.held] at h
  borrows := by
    intro t ht
    simp only [init, Multiset.mem_cons, Multiset.mem_replicate] at ht
    rcases ht with rfl | ⟨-, rfl⟩ <;> simp [Borrows, Thread.empty, Pc.needsArc, Pc.needsWeak]
  no_abort := by simp [init, Thread.empty, Pc.pendingAbort]

/-! ## One step keeps the invariant

    `Arith` spells `Inv` out at `t ::ₘ rest` with the stepping thread's shares
    apart and the other threads' tallies as plain numbers (they do not move):
    `A` arcs, `W` weaks, `I` implicit weaks, `Wn` window, `H` held,
    `U` unique stores, `Dp` dropping, `F` freeing, `Ab` pending aborts.  A step
    of `t` is then a change of a few numbers, checked field by field by
    `omega`. -/

/-- The numeric fields of `Inv` at `t ::ₘ rest`. -/
def Arith (d : ArcData) (t : Thread) (A W I Wn H U Dp F Ab : Nat) : Prop :=
  let w := t.weaks + W + d.leakedWeaks + (t.pc.implicitWeak + I) + min 1 d.dataRefCount
  let win := t.pc.window + Wn
  d.dataRefCount = t.arcs + A + d.leakedArcs ∧
  d.dataRefCount ≤ MAX ∧
  (win = 0 → d.allocRefCount = w) ∧
  (0 < win → d.allocRefCount = MAX ∧ w = 1) ∧
  win ≤ 1 ∧
  w ≤ MAX - 1 ∧
  min 1 d.dataRefCount + (t.pc.implicitWeak + I) ≤ 1 ∧
  d.dataDrops + (t.pc.dropping + Dp) + min 1 d.dataRefCount = 1 ∧
  d.frees + (t.pc.freeing + F) + min 1 w = 1 ∧
  (0 < t.pc.uniqueStore + U → d.dataRefCount = 1) ∧
  (0 < t.pc.held + H → d.dataRefCount = 1 ∧ w = 1 ∧ win = 0) ∧
  t.pc.pendingAbort + Ab = 0

/-- `Arith` at the tallies of the threads that are not stepping. -/
abbrev ArithRest (d : ArcData) (t : Thread) (rest : Multiset Thread) : Prop :=
  Arith d t (tally Thread.arcs rest) (tally Thread.weaks rest)
    (tally (fun u => u.pc.implicitWeak) rest) (tally (fun u => u.pc.window) rest)
    (tally (fun u => u.pc.held) rest) (tally (fun u => u.pc.uniqueStore) rest)
    (tally (fun u => u.pc.dropping) rest) (tally (fun u => u.pc.freeing) rest)
    (tally (fun u => u.pc.pendingAbort) rest)

theorem arith_of_inv {d : ArcData} {t : Thread} {rest : Multiset Thread}
    (h : Inv ⟨d, t ::ₘ rest⟩) :
    Borrows t ∧ (∀ u ∈ rest, Borrows u) ∧ ArithRest d t rest := by
  obtain ⟨h1, h2, h3, h4, h5, h6, h7, h8, h9, h10, h11, h12, h13⟩ := h
  simp only [count_eq, liveArcs, liveWeaks, weakCount, tally_cons] at *
  rw [Multiset.forall_mem_cons] at h12
  exact ⟨h12.1, h12.2, h1, h2, h3, h4, h5, h6, h7, h8, h9, h10, h11, h13⟩

theorem inv_of_arith {d : ArcData} {t : Thread} {rest : Multiset Thread}
    (hbt : Borrows t) (hbr : ∀ u ∈ rest, Borrows u) (hA : ArithRest d t rest) :
    Inv ⟨d, t ::ₘ rest⟩ := by
  obtain ⟨h1, h2, h3, h4, h5, h6, h7, h8, h9, h10, h11, h13⟩ := hA
  refine ⟨?_, h2, ?_, ?_, ?_, ?_, ?_, ?_, ?_, ?_, ?_, ?_, ?_⟩
  all_goals simp only [count_eq, liveArcs, liveWeaks, weakCount, tally_cons]
  · exact h1
  · exact h3
  · exact h4
  · exact h5
  · exact h6
  · exact h7
  · exact h8
  · exact h9
  · exact h10
  · exact h11
  · exact Multiset.forall_mem_cons.mpr ⟨hbt, hbr⟩
  · exact h13

section ArithStep

variable {d d' : ArcData} {t t' : Thread} {A W I Wn H U Dp F Ab : Nat}

/-- The stepping thread's `Arc` makes the strong count positive. -/
theorem Arith.min_data (hA : Arith d t A W I Wn H U Dp F Ab) (ha : 0 < t.arcs) :
    min 1 d.dataRefCount = 1 := by
  have h1 := hA.1
  exact Nat.min_eq_left (by omega)

/-- While `get_mut`'s window is open the weak count is 1 and the window's
    thread owns an `Arc`; a weak reference of a stepping thread outside the
    window, a `Weak` or the implicit weak, would make the count 2, so the
    window is closed. -/
theorem Arith.window_closed (hA : Arith d t A W I Wn H U Dp F Ab) (hr1 : Wn + H ≤ A)
    (hw : 0 < t.weaks + t.pc.implicitWeak) (hwin : t.pc.window = 0) : Wn = 0 := by
  obtain ⟨h1, -, -, h4, -⟩ := hA
  rcases Nat.eq_zero_or_pos Wn with h0 | h0
  · exact h0
  · have hpos : 0 < d.dataRefCount := by omega
    have hw1 := (h4 (by omega)).2
    rw [Nat.min_eq_left hpos] at hw1
    omega

/-- The steps that start an operation from `idle`. -/
theorem arith_step_idle (h : Act d t d' t') (hf : d'.fired = false) (hi : t.pc = .idle)
    (hbt : Borrows t) (hA : Arith d t A W I Wn H U Dp F Ab)
    (hr1 : Wn + H ≤ A) (hr3 : U ≤ Wn) (hr4 : Dp ≤ I) :
    Borrows t' ∧ Arith d' t' A W I Wn H U Dp F Ab := by
  have hM := half_add_two_lt
  obtain ⟨hta, htw⟩ := hbt
  -- an operation on an `Arc` finds the strong count positive, and one on a
  -- `Weak` finds `get_mut`'s window closed
  have hdata : 0 < t.arcs → min 1 d.dataRefCount = 1 := hA.min_data
  have hclosed : 0 < t.weaks → Wn = 0 := fun hw =>
    hA.window_closed hr1 (Nat.lt_add_right _ hw) (by rw [hi]; rfl)
  simp only [Arith, Borrows, hi] at hA hta htw ⊢
  cases h with
  | cloneAbort _ _ _ | weakCloneAbort _ _ _ | downgradePanic _ _ _ | upgradePanic _ _ _ =>
      simp at hf
  | dropData h | dropWeakLast h _ | dropWeakOther h _ | free h | downgradeSpin h
  | downgradeRetry h _ _ | downgradeCas h _ _ _ | upgradeNone h | upgradeRetry h _ _
  | upgradeCas h _ _ _ | getMutLoad h | getMutSome h | getMutShared h | release h =>
      simp [hi] at h
  | clone _ ha hn =>
      -- at most `usize::MAX / 2` before, so the `fetch_add` does not wrap
      have hw := wrappingAdd_of_lt d.dataRefCount (by omega)
      simp [hi, hw, hdata ha] at hA ⊢
      omega
  | dropLast _ ha h1 =>
      -- the last `Arc`: the count goes from 1 to 0 and this thread owns the implicit weak
      have hw : wrappingSub 1 = 0 := rfl
      simp [hw, h1] at hA ⊢
      omega
  | dropOther _ ha h1 =>
      -- another `Arc` is live, so the count stays positive
      have h2 : 2 ≤ d.dataRefCount := by
        have := hA.1
        omega
      have hw := wrappingSub_of_pos d.dataRefCount (by omega) (by omega)
      have hmin : min 1 (d.dataRefCount - 1) = 1 := Nat.min_eq_left (by omega)
      simp [hi, hw, h1, hdata ha, hmin] at hA ⊢
      omega
  | weakDropLast _ hw h1 =>
      have hw' : wrappingSub 1 = 0 := rfl
      have hM1 : 1 < MAX := by omega
      simp [hw', h1, hclosed hw] at hA ⊢
      omega
  | weakDropOther _ hw h1 =>
      -- the window is closed, so `alloc_ref_count` is the weak count: 2 at least
      have hal : 2 ≤ d.allocRefCount := by
        have := hA.2.2.1 (by simp [hclosed hw])
        omega
      have hw' := wrappingSub_of_pos d.allocRefCount (by omega) (by omega)
      simp [hi, hw', hclosed hw] at hA ⊢
      omega
  | downgrade _ ha =>
      simp [hdata ha] at hA ⊢
      omega
  | upgrade _ hw =>
      simp [hclosed hw] at hA ⊢
      omega
  | weakClone _ hw hn =>
      have hw' := wrappingAdd_of_lt d.allocRefCount (by omega)
      simp [hi, hw', hclosed hw] at hA ⊢
      omega
  | getMut _ ha h1 =>
      simp [h1] at hA ⊢
      omega
  | getMutNone _ ha h1 =>
      simp [hi, hdata ha] at hA ⊢
      omega
  | forgetArc _ ha =>
      simp [hi, hdata ha] at hA ⊢
      omega
  | forgetWeak _ hw =>
      simp [hi, hclosed hw] at hA ⊢
      omega

/-- The steps inside `Arc::drop`, `Weak::drop`, `downgrade` and `upgrade`. -/
theorem arith_step_loop (h : Act d t d' t') (hf : d'.fired = false) (hi : t.pc ≠ .idle)
    (hg : t.pc.window + t.pc.held = 0)
    (hbt : Borrows t) (hA : Arith d t A W I Wn H U Dp F Ab)
    (hr1 : Wn + H ≤ A) (hr3 : U ≤ Wn) (hr4 : Dp ≤ I) :
    Borrows t' ∧ Arith d' t' A W I Wn H U Dp F Ab := by
  have hM := half_add_two_lt
  obtain ⟨hta, htw⟩ := hbt
  -- `downgrade` borrows an `Arc`, so the strong count is positive; `upgrade`
  -- borrows a `Weak` and `Arc::drop` owns the implicit weak, so `get_mut`'s
  -- window is closed
  have hdata : 0 < t.arcs → min 1 d.dataRefCount = 1 := hA.min_data
  have hclosed : 0 < t.weaks + t.pc.implicitWeak → Wn = 0 := fun hw =>
    hA.window_closed hr1 hw (by omega)
  simp only [Arith, Borrows] at hA hta htw ⊢
  cases h with
  | clone h _ _ | cloneAbort h _ _ | dropLast h _ _ | dropOther h _ _ | weakDropLast h _ _
  | weakDropOther h _ _ | downgrade h _ | upgrade h _ | weakClone h _ _ | weakCloneAbort h _ _
  | getMut h _ _ | getMutNone h _ _ | forgetArc h _ | forgetWeak h _ =>
      exact absurd h hi
  | getMutLoad h | getMutSome h | getMutShared h | release h =>
      simp [h] at hg
  | downgradePanic _ _ _ | upgradePanic _ _ _ =>
      simp at hf
  | dropData h =>
      simp [h, hclosed (by simp [h])] at hA hta htw ⊢
      omega
  | dropWeakLast h h1 =>
      have hw : wrappingSub 1 = 0 := rfl
      have hM1 : 1 < MAX := by omega
      simp [h, hw, h1, hclosed (by simp [h])] at hA hta htw ⊢
      omega
  | dropWeakOther h h1 =>
      -- the window is closed, so `alloc_ref_count` is the weak count, which
      -- counts the implicit weak: 2 at least
      have hWn := hclosed (by simp [h])
      have hal : 2 ≤ d.allocRefCount := by
        have := hA.2.2.1 (by simp [h, hWn])
        simp [h] at this
        omega
      have hw := wrappingSub_of_pos d.allocRefCount (by omega) (by omega)
      simp [h, hw, hWn] at hA hta htw ⊢
      omega
  | free h =>
      simp [h] at hA hta htw ⊢
      omega
  | downgradeSpin h =>
      have ha : 0 < t.arcs := by simp [h] at hta; omega
      simp [h, hdata ha] at hA hta htw ⊢
      omega
  | downgradeRetry h hn hb =>
      have ha : 0 < t.arcs := by simp [h] at hta; omega
      simp [h, hdata ha] at hA hta htw ⊢
      omega
  | downgradeCas h hn hb he =>
      -- the CAS saw `n ≠ usize::MAX`, so the window is closed
      have ha : 0 < t.arcs := by simp [h] at hta; omega
      have hWn : Wn = 0 := by
        rcases Nat.eq_zero_or_pos Wn with h0 | h0
        · exact h0
        · have := (hA.2.2.2.1 (by simp [h]; omega)).1
          omega
      simp [h, he, hdata ha, hWn] at hA hta htw ⊢
      omega
  | upgradeNone h =>
      simp [h] at hA hta htw ⊢
      omega
  | upgradeRetry h hn hb =>
      have hWn := hclosed (by simp [h] at htw; simp [h]; omega)
      simp [h, hWn] at hA hta htw ⊢
      omega
  | upgradeCas h hn hb he =>
      have hWn := hclosed (by simp [h] at htw; simp [h]; omega)
      simp [h, he, hWn] at hA hta htw ⊢
      omega

/-- The steps of `get_mut` after its `compare_exchange`, and the release of its `&mut T`. -/
theorem arith_step_getMut (h : Act d t d' t') (hg : 0 < t.pc.window + t.pc.held)
    (hbt : Borrows t) (hA : Arith d t A W I Wn H U Dp F Ab)
    (hr1 : Wn + H ≤ A) (hr3 : U ≤ Wn) (hr4 : Dp ≤ I) :
    Borrows t' ∧ Arith d' t' A W I Wn H U Dp F Ab := by
  obtain ⟨hta, htw⟩ := hbt
  simp only [Arith, Borrows] at hA hta htw ⊢
  cases h with
  | getMutLoad h =>
      -- `is_unique` is what the window thread will act on
      by_cases h1 : d.dataRefCount = 1
      · simp [h, h1] at hA hta htw ⊢
        omega
      · simp [h, h1] at hA hta htw ⊢
        omega
  | getMutSome h =>
      simp [h] at hA hta htw ⊢
      omega
  | getMutShared h =>
      simp [h] at hA hta htw ⊢
      omega
  | release h =>
      simp [h] at hA hta htw ⊢
      omega
  | clone h _ _ | cloneAbort h _ _ | dropLast h _ _ | dropOther h _ _ | dropData h
  | dropWeakLast h _ | dropWeakOther h _ | weakDropLast h _ _ | weakDropOther h _ _ | free h
  | downgrade h _ | downgradeSpin h | downgradePanic h _ _ | downgradeCas h _ _ _
  | downgradeRetry h _ _ | upgrade h _ | upgradeNone h | upgradePanic h _ _
  | upgradeCas h _ _ _ | upgradeRetry h _ _ | weakClone h _ _ | weakCloneAbort h _ _
  | getMut h _ _ | getMutNone h _ _ | forgetArc h _ | forgetWeak h _ =>
      simp [h] at hg

end ArithStep

/-- **ONE STEP OF ONE THREAD** keeps the invariant, unless a guard fires. -/
theorem inv_solo {d d' : ArcData} {t t' : Thread} {rest : Multiset Thread}
    (hinv : Inv ⟨d, t ::ₘ rest⟩) (h : Act d t d' t') (hf : d'.fired = false) :
    Inv ⟨d', t' ::ₘ rest⟩ := by
  obtain ⟨hbt, hbr, hA⟩ := arith_of_inv hinv
  obtain ⟨hr1, -, hr3, hr4⟩ := rest_bounds hbr
  by_cases hi : t.pc = .idle
  · obtain ⟨hb', hA'⟩ := arith_step_idle h hf hi hbt hA hr1 hr3 hr4
    exact inv_of_arith hb' hbr hA'
  by_cases hg : t.pc.window + t.pc.held = 0
  · obtain ⟨hb', hA'⟩ := arith_step_loop h hf hi hg hbt hA hr1 hr3 hr4
    exact inv_of_arith hb' hbr hA'
  · obtain ⟨hb', hA'⟩ := arith_step_getMut h (Nat.pos_of_ne_zero hg) hbt hA hr1 hr3 hr4
    exact inv_of_arith hb' hbr hA'

/-- `Inv` only looks at the memory, the live handles, the program points and
    the borrows, so a configuration that agrees on those inherits it. -/
theorem inv_of_counts {c c' : Conf} (hinv : Inv c) (hd : c'.shared = c.shared)
    (ha : liveArcs c' = liveArcs c) (hw : liveWeaks c' = liveWeaks c)
    (hp : ∀ f : Pc → Nat, count f c' = count f c) (hb : ∀ t ∈ c'.threads, Borrows t) :
    Inv c' := by
  have hwc : weakCount c' = weakCount c := by
    simp only [weakCount, hw, hp, hd]
  obtain ⟨h1, h2, h3, h4, h5, h6, h7, h8, h9, h10, h11, -, h13⟩ := hinv
  refine ⟨?_, ?_, ?_, ?_, ?_, ?_, ?_, ?_, ?_, ?_, ?_, hb, ?_⟩
  all_goals simp only [hd, ha, hwc, hp]
  all_goals assumption

/-- **A HAND-OFF** moves one handle between two threads and keeps the invariant. -/
theorem inv_duo {d d' : ArcData} {t u t' u' : Thread} {rest : Multiset Thread}
    (hinv : Inv ⟨d, t ::ₘ u ::ₘ rest⟩) (h : Pass d t u d' t' u') :
    Inv ⟨d', t' ::ₘ u' ::ₘ rest⟩ := by
  have hbo := hinv.borrows
  simp only [Multiset.forall_mem_cons] at hbo
  obtain ⟨⟨hta, htw⟩, ⟨hua, huw⟩, hbr⟩ := hbo
  cases h with
  | arc hi ha =>
      refine inv_of_counts hinv rfl ?_ (by simp [liveWeaks]) (fun f => by simp) ?_
      · simp only [liveArcs, tally_cons]
        omega
      · simp only [Multiset.forall_mem_cons, Borrows]
        exact ⟨⟨by simp [hi], by simp [hi]⟩, ⟨show u.pc.needsArc ≤ u.arcs + 1 by omega, huw⟩, hbr⟩
  | weak hi hw =>
      refine inv_of_counts hinv rfl (by simp [liveArcs]) ?_ (fun f => by simp) ?_
      · simp only [liveWeaks, tally_cons]
        omega
      · simp only [Multiset.forall_mem_cons, Borrows]
        exact ⟨⟨by simp [hi], by simp [hi]⟩, ⟨hua, show u.pc.needsWeak ≤ u.weaks + 1 by omega⟩, hbr⟩

/-- **ONE STEP** of the program keeps the invariant, unless a guard fires. -/
theorem inv_step {c c' : Conf} (hinv : Inv c) (h : Step c c')
    (hf : c'.shared.fired = false) : Inv c' := by
  cases h with
  | solo rest hs => exact inv_solo hinv hs hf
  | duo rest hd => exact inv_duo hinv hd

/-- A guard that fired stays fired. -/
theorem Act.fired_of_fired {d d' : ArcData} {t t' : Thread} (h : Act d t d' t')
    (hf : d'.fired = false) : d.fired = false := by
  cases h <;> simp_all

theorem Step.fired_of_fired {c c' : Conf} (h : Step c c')
    (hf : c'.shared.fired = false) : c.shared.fired = false := by
  cases h with
  | solo rest hs => exact hs.fired_of_fired hf
  | duo rest hd => cases hd <;> exact hf

/-- **THE INVARIANT HOLDS** in every reachable configuration where no overflow
    guard has fired. -/
theorem inv_reachable {c : Conf} (h : Reachable c) (hf : c.shared.fired = false) :
    Inv c := by
  obtain ⟨n, hr⟩ := h
  refine @invariant_of_reach _ Step (fun c => c.shared.fired = false → Inv c) ?_ _ _ hr
    (fun _ => inv_init n) hf
  intro a b ha hab hb
  exact inv_step (ha (hab.fired_of_fired hb)) hab hb

/-- A configuration reached from a reachable one is reachable. -/
theorem Reachable.of_reach {c c' : Conf} (h : Reachable c)
    (hr : Relation.ReflTransGen Step c c') : Reachable c' := by
  obtain ⟨n, h0⟩ := h
  exact ⟨n, h0.trans hr⟩

/-- A thread that owns no handle and no implicit weak and is not freeing
    stands between operations. -/
theorem Inv.idle_of_empty {c : Conf} (h : Inv c) {u : Thread} (hu : u ∈ c.threads)
    (ha : u.arcs = 0) (hw : u.weaks = 0) (hi : u.pc.implicitWeak = 0)
    (hf : u.pc.freeing = 0) : u.pc = .idle := by
  obtain ⟨hna, hnw⟩ := h.borrows u hu
  have hab : u.pc.pendingAbort = 0 := tally_eq_zero.mp h.no_abort u hu
  apply Pc.eq_idle_of_counts
  omega

end Optimization
