import AtomicsAndLocks.Arc.WeakPointerInvariant
import AtomicsAndLocks.Arc.OptimizationGetMut

/-! # The reference counts never wrap — and where they do

    A counter wraps when a `fetch_add` finds `usize::MAX` or a `fetch_sub`
    finds 0: the step then moves it by `usize::MAX` instead of by one.  So
    "no counter wraps" is "every step moves each counter by at most one",
    apart from the two stores of `get_mut` in `06-03`, which write the
    sentinel and 1.

    * `06-02`: with fewer than `usize::MAX / 2` threads every step moves
      both counters by at most one: each `Arc` owns a `Weak`, so the
      `usize::MAX / 2` guard on `alloc_ref_count` bounds both.
    * `06-03`: `Weak::upgrade` only asserts `n < usize::MAX`, and the `Arc`s
      share one implicit weak, so leaked upgrades raise `data_ref_count` to
      `usize::MAX` with no guard firing, and the next `clone` wraps it to 0
      in the step that fires its guard.  Two threads suffice.  What holds is
      the statement up to the first guard that fires: until then every
      step moves each counter by at most one, and `alloc_ref_count` holds
      `usize::MAX` only inside `get_mut`'s window. -/

open Interleaving Usize Relation

namespace WeakPointer

/-- Both counters sit below `usize::MAX`: `alloc_ref_count` by its bound,
    `data_ref_count` because it counts no more than `alloc_ref_count` and
    the upgrades in flight. -/
theorem Inv.counts_lt {c : Conf} (h : Inv c) (hN : Multiset.card c.threads < MAX / 2) :
    c.shared.dataRefCount < MAX ∧ c.shared.allocRefCount < MAX := by
  have hM := two_mul_half
  have h1 := h.strong
  have h2 := h.weak
  have h3 := h.alloc_le
  obtain ⟨-, hPD, hK⟩ := rest_bounds h.borrows
  simp only [count_eq] at h1 h2 h3
  constructor <;> omega

/-- A thread that owns an `Arc` keeps `data_ref_count` positive. -/
theorem Inv.data_pos {c : Conf} (h : Inv c) {t : Thread} (ht : t ∈ c.threads)
    (ha : 0 < t.arcs) : 0 < c.shared.dataRefCount := by
  have h1 := h.strong
  have h2 := le_tally (f := Thread.arcs) ht
  simp only [liveArcs] at h1
  omega

/-- A thread that owns a `Weak` or an increment of `alloc_ref_count` keeps
    that counter positive. -/
theorem Inv.alloc_pos {c : Conf} (h : Inv c) {t : Thread} (ht : t ∈ c.threads)
    (hw : 0 < t.weaks + t.pc.pendingAlloc) : 0 < c.shared.allocRefCount := by
  have h1 := h.weak
  have h2 := le_tally (f := Thread.weaks) ht
  have h3 := le_tally (f := fun u => u.pc.pendingAlloc) ht
  simp only [liveWeaks, count_eq] at h1
  omega

/-- A step moves `data_ref_count` by at most one when a `fetch_add` cannot
    find `usize::MAX` and a `fetch_sub` cannot find 0. -/
theorem Act.data_near {d d' : ArcData} {t t' : Thread} (h : Act d t d' t')
    (hM : d.dataRefCount < MAX) (hpos : 0 < t.arcs → 0 < d.dataRefCount) :
    d'.dataRefCount ≤ d.dataRefCount + 1 ∧ d.dataRefCount ≤ d'.dataRefCount + 1 := by
  cases h with
  | cloneData _ _ | cloneDataAbort _ _ =>
      simp only [wrappingAdd_of_lt _ hM]
      omega
  | dropLast _ _ h1 | dropOther _ _ h1 =>
      simp only [wrappingSub_of_pos _ (hpos ‹_›) hM.le]
      omega
  | upgradeCas _ _ _ he =>
      simp only [he]
      omega
  | _ => simp

/-- The same for `alloc_ref_count`. -/
theorem Act.alloc_near {d d' : ArcData} {t t' : Thread} (h : Act d t d' t')
    (hM : d.allocRefCount < MAX) (hpos : 0 < t.weaks + t.pc.pendingAlloc → 0 < d.allocRefCount) :
    d'.allocRefCount ≤ d.allocRefCount + 1 ∧ d.allocRefCount ≤ d'.allocRefCount + 1 := by
  cases h with
  | cloneWeak _ _ _ | cloneWeakAbort _ _ _ | downgrade _ _ _ | downgradeAbort _ _ _
  | weakClone _ _ _ | weakCloneAbort _ _ _ | upgradeClone _ _ | upgradeCloneAbort _ _ =>
      simp only [wrappingAdd_of_lt _ hM]
      omega
  | dropWeakLast hp _ | dropWeakOther hp _ =>
      simp only [wrappingSub_of_pos _ (hpos (by simp [hp])) hM.le]
      omega
  | weakDropLast _ hw _ | weakDropOther _ hw _ =>
      simp only [wrappingSub_of_pos _ (hpos (by omega)) hM.le]
      omega
  | _ => simp

/-- **NO COUNTER WRAPS IN `06-02`** with fewer than `usize::MAX / 2` threads. -/
theorem Step.counts_near {c c' : Conf} (hr : Reachable c)
    (hN : Multiset.card c.threads < MAX / 2) (h : Step c c') :
    c'.shared.dataRefCount ≤ c.shared.dataRefCount + 1 ∧
      c.shared.dataRefCount ≤ c'.shared.dataRefCount + 1 ∧
      c'.shared.allocRefCount ≤ c.shared.allocRefCount + 1 ∧
      c.shared.allocRefCount ≤ c'.shared.allocRefCount + 1 := by
  have hinv := inv_reachable hr hN
  obtain ⟨hd, ha⟩ := hinv.counts_lt hN
  cases h with
  | @solo _ _ t _ rest hs =>
      have ht := Multiset.mem_cons_self t rest
      obtain ⟨h1, h2⟩ := hs.data_near hd (hinv.data_pos ht)
      obtain ⟨h3, h4⟩ := hs.alloc_near ha (hinv.alloc_pos ht)
      exact ⟨h1, h2, h3, h4⟩
  | duo rest hp => cases hp <;> simp

end WeakPointer

namespace Optimization

/-- A thread that owns an `Arc` keeps `data_ref_count` positive. -/
theorem Inv.data_pos {c : Conf} (h : Inv c) {t : Thread} (ht : t ∈ c.threads)
    (ha : 0 < t.arcs) : 0 < c.shared.dataRefCount := by
  have h1 := h.strong
  have h2 := le_tally (f := Thread.arcs) ht
  simp only [liveArcs] at h1
  omega

/-- A thread that owns a `Weak` or the implicit weak keeps `alloc_ref_count`
    positive: it is the weak count, or the sentinel. -/
theorem Inv.alloc_pos {c : Conf} (h : Inv c) {t : Thread} (ht : t ∈ c.threads)
    (hw : 0 < t.weaks + t.pc.implicitWeak) : 0 < c.shared.allocRefCount := by
  by_cases hwin : count Pc.window c = 0
  · have h1 := h.alloc_closed hwin
    have h2 := le_tally (f := Thread.weaks) ht
    have h3 := le_tally (f := fun u => u.pc.implicitWeak) ht
    simp only [weakCount, liveWeaks, count_eq] at h1
    omega
  · rw [(h.alloc_open (Nat.pos_of_ne_zero hwin)).1]
    decide

/-- Outside the window the counter is the weak count, inside it the sentinel. -/
theorem Inv.alloc_le_MAX {c : Conf} (h : Inv c) : c.shared.allocRefCount ≤ MAX := by
  by_cases hwin : count Pc.window c = 0
  · rw [h.alloc_closed hwin]
    have := h.weak_le
    omega
  · rw [(h.alloc_open (Nat.pos_of_ne_zero hwin)).1]

/-- A step that fires no guard moves `data_ref_count` by at most one. -/
theorem Act.data_near {d d' : ArcData} {t t' : Thread} (h : Act d t d' t')
    (hf : d'.fired = false) (hpos : 0 < t.arcs → 0 < d.dataRefCount)
    (hM : d.dataRefCount ≤ MAX) :
    d'.dataRefCount ≤ d.dataRefCount + 1 ∧ d.dataRefCount ≤ d'.dataRefCount + 1 := by
  have hh := half_add_two_lt
  cases h with
  | cloneAbort _ _ _ => simp at hf
  | clone _ _ hn =>
      simp only [wrappingAdd_of_lt _ (show d.dataRefCount < MAX by omega)]
      omega
  | dropLast _ ha _ | dropOther _ ha _ =>
      simp only [wrappingSub_of_pos _ (hpos ha) hM]
      omega
  | upgradeCas _ _ _ he =>
      simp only [he]
      omega
  | _ => simp

/-- A step that fires no guard moves `alloc_ref_count` by at most one, or
    is one of `get_mut`'s two stores. -/
theorem Act.alloc_near {d d' : ArcData} {t t' : Thread} (h : Act d t d' t')
    (hf : d'.fired = false) (hpos : 0 < t.weaks + t.pc.implicitWeak → 0 < d.allocRefCount)
    (hwin : 0 < t.pc.window → d.allocRefCount = MAX) (hM : d.allocRefCount ≤ MAX) :
    (d'.allocRefCount ≤ d.allocRefCount + 1 ∧ d.allocRefCount ≤ d'.allocRefCount + 1) ∨
      (d.allocRefCount = 1 ∧ d'.allocRefCount = MAX) ∨
      (d.allocRefCount = MAX ∧ d'.allocRefCount = 1) := by
  have hh := half_add_two_lt
  cases h with
  | weakCloneAbort _ _ _ => simp at hf
  | weakClone _ _ hn =>
      left
      simp only [wrappingAdd_of_lt _ (show d.allocRefCount < MAX by omega)]
      omega
  | dropWeakLast hp _ | dropWeakOther hp _ =>
      left
      simp only [wrappingSub_of_pos _ (hpos (by simp [hp])) hM]
      omega
  | weakDropLast _ hw _ | weakDropOther _ hw _ =>
      left
      simp only [wrappingSub_of_pos _ (hpos (by omega)) hM]
      omega
  | downgradeCas _ _ hb he =>
      left
      dsimp only
      omega
  | getMut _ _ h1 => exact .inr (.inl ⟨h1, rfl⟩)
  | getMutSome hp | getMutShared hp => exact .inr (.inr ⟨hwin (by simp [hp]), rfl⟩)
  | _ => left; simp

end Optimization

namespace Optimization

/-- **UP TO THE FIRST GUARD, NO COUNTER WRAPS IN `06-03`.** -/
theorem Step.counts_near {c c' : Conf} (hr : Reachable c) (h : Step c c')
    (hf : c'.shared.fired = false) :
    (c'.shared.dataRefCount ≤ c.shared.dataRefCount + 1 ∧
      c.shared.dataRefCount ≤ c'.shared.dataRefCount + 1) ∧
    ((c'.shared.allocRefCount ≤ c.shared.allocRefCount + 1 ∧
      c.shared.allocRefCount ≤ c'.shared.allocRefCount + 1) ∨
      (c.shared.allocRefCount = 1 ∧ c'.shared.allocRefCount = MAX) ∨
      (c.shared.allocRefCount = MAX ∧ c'.shared.allocRefCount = 1)) := by
  have hinv := inv_reachable hr (h.fired_of_fired hf)
  cases h with
  | @solo d _ t _ rest hs =>
      have ht := Multiset.mem_cons_self t rest
      have hwin : 0 < t.pc.window → d.allocRefCount = MAX := by
        intro hw
        have := le_tally (f := fun u => u.pc.window) ht
        exact (hinv.alloc_open (by simp only [count_eq]; omega)).1
      exact ⟨hs.data_near hf (hinv.data_pos ht) hinv.data_le,
        hs.alloc_near hf (hinv.alloc_pos ht) hwin hinv.alloc_le_MAX⟩
  | duo rest hp => cases hp <;> simp

/-- Before any guard fires, the sentinel is only in the counter while a
    `get_mut` holds it. -/
theorem window_of_sentinel {c : Conf} (hr : Reachable c) (hf : c.shared.fired = false)
    (hM : c.shared.allocRefCount = MAX) :
    ∃ t ∈ c.threads, t.pc = .getMutLoad ∨ ∃ b, t.pc = .getMutStore b := by
  have hinv := inv_reachable hr hf
  by_cases hwin : count Pc.window c = 0
  · have h1 := hinv.alloc_closed hwin
    have h2 := hinv.weak_le
    have h3 : 0 < MAX := by decide
    omega
  · obtain ⟨t, ht, hp⟩ := tally_pos_iff.mp (Nat.pos_of_ne_zero hwin)
    refine ⟨t, ht, ?_⟩
    revert hp
    cases t.pc <;> simp

end Optimization

/-- **THE COUNTERS DO NOT WRAP, UP TO WHAT `06-03` ALLOWS.** In `06-02`, in
    every reachable configuration of fewer than `usize::MAX / 2` threads,
    every step moves each counter by at most one.  In `06-03`, every step of
    a reachable configuration that leaves no guard fired moves
    `data_ref_count` by at most one, and `alloc_ref_count` by at most one
    unless it is `get_mut`'s `compare_exchange(1, usize::MAX)` or its
    `store(1)`; and while no guard has fired, `alloc_ref_count` holds
    `usize::MAX` only while a `get_mut` is in its window. -/
theorem counters_never_wrap :
    (∀ c c' : WeakPointer.Conf, WeakPointer.Reachable c →
      Multiset.card c.threads < MAX / 2 → WeakPointer.Step c c' →
      c'.shared.dataRefCount ≤ c.shared.dataRefCount + 1 ∧
      c.shared.dataRefCount ≤ c'.shared.dataRefCount + 1 ∧
      c'.shared.allocRefCount ≤ c.shared.allocRefCount + 1 ∧
      c.shared.allocRefCount ≤ c'.shared.allocRefCount + 1) ∧
    (∀ c c' : Optimization.Conf, Optimization.Reachable c → Optimization.Step c c' →
      c'.shared.fired = false →
      (c'.shared.dataRefCount ≤ c.shared.dataRefCount + 1 ∧
        c.shared.dataRefCount ≤ c'.shared.dataRefCount + 1) ∧
      ((c'.shared.allocRefCount ≤ c.shared.allocRefCount + 1 ∧
        c.shared.allocRefCount ≤ c'.shared.allocRefCount + 1) ∨
        (c.shared.allocRefCount = 1 ∧ c'.shared.allocRefCount = MAX) ∨
        (c.shared.allocRefCount = MAX ∧ c'.shared.allocRefCount = 1))) ∧
    (∀ c : Optimization.Conf, Optimization.Reachable c → c.shared.fired = false →
      c.shared.allocRefCount = MAX →
      ∃ t ∈ c.threads, t.pc = .getMutLoad ∨ ∃ b, t.pc = .getMutStore b) :=
  ⟨fun _ _ hr hN h => WeakPointer.Step.counts_near hr hN h,
    fun _ _ hr h hf => Optimization.Step.counts_near hr h hf,
    fun _ hr hf hM => Optimization.window_of_sentinel hr hf hM⟩

/-- After `Arc::downgrade` on the only `Arc` of `06-02`. -/
theorem WeakPointer.step_downgrade : WeakPointer.Step (WeakPointer.init 0)
    ⟨⟨1, 2, true, 0, 0, 0, 0, false, false⟩, {⟨1, 1, .idle⟩}⟩ :=
  Interleaving.Step.solo 0 (WeakPointer.Act.downgrade rfl (by decide) (by decide))

/-- `get_mut`'s `compare_exchange(1, usize::MAX)` on the only `Arc` of `06-03`. -/
theorem Optimization.step_getMut : Optimization.Step (Optimization.init 0)
    ⟨⟨1, MAX, 0, 0, 0, 0, false⟩, {⟨1, 0, .getMutLoad⟩}⟩ :=
  Interleaving.Step.solo 0 (Optimization.Act.getMut rfl (by decide) rfl)

theorem counters_never_wrap_first_steps :
    (WeakPointer.Reachable (WeakPointer.init 0) ∧
      Multiset.card (WeakPointer.init 0).threads < MAX / 2 ∧
      (2 ≤ 1 + 1 ∧ 1 ≤ 2 + 1)) ∧
    (Optimization.Reachable (Optimization.init 0) ∧
      ((1 ≤ 1 + 1 ∧ 1 ≤ 1 + 1) ∧ ((MAX ≤ 1 + 1 ∧ 1 ≤ MAX + 1) ∨
        (1 = 1 ∧ MAX = MAX) ∨ (1 = MAX ∧ MAX = 1)))) ∧
    (Optimization.Reachable ⟨⟨1, MAX, 0, 0, 0, 0, false⟩, {⟨1, 0, .getMutLoad⟩}⟩ ∧
      ∃ t ∈ ({⟨1, 0, .getMutLoad⟩} : Multiset Optimization.Thread),
        t.pc = .getMutLoad ∨ ∃ b, t.pc = .getMutStore b) :=
  have hw := counters_never_wrap
  have h02 : WeakPointer.Reachable (WeakPointer.init 0) := ⟨0, .refl⟩
  have h03 : Optimization.Reachable (Optimization.init 0) := ⟨0, .refl⟩
  have hl : Optimization.Reachable ⟨⟨1, MAX, 0, 0, 0, 0, false⟩, {⟨1, 0, .getMutLoad⟩}⟩ :=
    ⟨0, .single Optimization.step_getMut⟩
  ⟨⟨h02, by decide, (hw.1 _ _ h02 (by decide) WeakPointer.step_downgrade).2.2⟩,
    ⟨h03, hw.2.1 _ _ h03 Optimization.step_getMut rfl⟩,
    ⟨hl, hw.2.2 _ hl rfl rfl⟩⟩

/-- Leaked upgrades bring `06-03`'s strong count to `usize::MAX` with two
    threads and no guard fired; the next `clone` moves it to 0. -/
theorem strong_count_wraps :
    ¬ ∀ c c' : Optimization.Conf, Optimization.Reachable c →
      Multiset.card c.threads < MAX / 2 → Optimization.Step c c' →
      c.shared.dataRefCount ≤ c'.shared.dataRefCount + 1 := by
  intro h
  have := h _ _ ⟨1, Optimization.reach_pumped⟩ (by decide) Optimization.step_wrap
  exact absurd this (by decide)
