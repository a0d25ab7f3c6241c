import AtomicsAndLocks.Arc.WeakPointerInvariant

/-! # The `Arc` with weak pointers — what the two counts guarantee

    From `inv_reachable`: with fewer than `usize::MAX / 2` threads, in every
    reachable configuration,

    * the two counters count the handles, up to the increments and
      decrements in flight (`Inv.strong`, `Inv.weak`);
    * the `Option` is `Some` while an `Arc` is live, and no `unwrap` has
      failed;
    * `T` is dropped at most once, by the thread whose `fetch_sub` took
      `data_ref_count` to zero, when no `Arc` is live; from then on the count
      stays zero, so every `Weak::upgrade` returns `None`;
    * the allocation is freed at most once, and not while a handle is live;
    * `get_mut`'s `&mut T` is handed out only to the only handle.

    Without the bound on the threads the first point fails: `2^63` threads,
    each stopped by a `Weak::clone` guard after its `fetch_add`, wrap
    `alloc_ref_count` to zero while `2^63` handles are live. -/

namespace WeakPointer

open Interleaving Usize Relation

/-! ## Read off the invariant -/

/-- A thread where the indicator `f` counts makes the count positive. -/
theorem count_pos {f : Pc → Nat} {c : Conf} {t : Thread} (ht : t ∈ c.threads)
    (hf : 0 < f t.pc) : 0 < count f c :=
  Nat.lt_of_lt_of_le hf (le_tally (f := fun u => f u.pc) ht)

/-- **`T` IS DROPPED AT MOST ONCE.** -/
theorem Inv.dataDrops_le {c : Conf} (h : Inv c) : c.shared.dataDrops ≤ 1 := by
  have hd := h.drops
  omega

/-- **THE ALLOCATION IS FREED AT MOST ONCE.** -/
theorem Inv.frees_le {c : Conf} (h : Inv c) : c.shared.frees ≤ 1 := by
  have hf := h.frees
  omega

/-- A thread at `*ptr = None` got there by the `fetch_sub` that found 1: `T`
    is still there, the count is zero and no `Arc` is live. -/
theorem Inv.dead_of_dropping {c : Conf} (h : Inv c) {t : Thread} (ht : t ∈ c.threads)
    (hp : t.pc = .dropNone) :
    c.shared.dataDrops = 0 ∧ c.shared.dataRefCount = 0 ∧ liveArcs c = 0 := by
  have h1 := h.drops
  have h2 := h.strong
  have hdp : 0 < count Pc.dropping c := count_pos ht (by simp [hp])
  refine ⟨by omega, by omega, by omega⟩

/-- Once `T` has been dropped the strong count is zero, and no `Arc` is live or
    on its way. -/
theorem Inv.dead_of_dropped {c : Conf} (h : Inv c) (hd : c.shared.dataDrops = 1) :
    c.shared.dataRefCount = 0 ∧ liveArcs c = 0 ∧ count Pc.pendingData c = 0 := by
  have h1 := h.drops
  have h2 := h.strong
  refine ⟨by omega, by omega, by omega⟩

/-- While the allocation is being freed, or once it has been, the weak count
    is zero, and so no handle is live. -/
theorem Inv.released_of_freed {c : Conf} (h : Inv c)
    (hf : c.shared.frees = 1 ∨ ∃ t ∈ c.threads, t.pc = .free) :
    liveArcs c = 0 ∧ liveWeaks c = 0 := by
  have h1 := h.frees
  have h2 := h.weak
  have hz : c.shared.allocRefCount = 0 := by
    rcases hf with hf | ⟨t, ht, hp⟩
    · omega
    · have hfg : 0 < count Pc.freeing c := count_pos ht (by simp [hp])
      omega
  exact ⟨by omega, by omega⟩

/-- **`get_mut` IS EXCLUSIVE**: while a thread holds its `&mut T`, the weak
    count is still the 1 that `get_mut` loaded, so its `Arc` is the only
    handle. -/
theorem Inv.unique_of_getMut {c : Conf} (h : Inv c) {t : Thread} (ht : t ∈ c.threads)
    (hp : t.pc = .getMutHeld) : t.arcs = 1 ∧ liveArcs c = 1 ∧ liveWeaks c = 0 := by
  have h1 := h.exclusive (count_pos ht (by simp [hp]))
  have h2 := h.weak
  -- the holder borrows one of its `Arc`s, which `liveArcs` counts
  have hna := (h.borrows t ht).1
  simp only [hp, Pc.needsArc] at hna
  have hle : t.arcs ≤ liveArcs c := (le_tally ht).trans (Nat.le_add_right _ _)
  refine ⟨by omega, by omega, by omega⟩

/-! ## After `T` is dropped

    The strong count only grows through a thread that borrows an `Arc`
    (`Arc::clone`) or through `upgrade`'s CAS from a nonzero value, so once
    it is zero with no `Arc` live it stays zero. -/

/-- The ghost count of drops of `T` never goes down. -/
theorem Act.dataDrops_le {d d' : ArcData} {t t' : Thread} (h : Act d t d' t') :
    d.dataDrops ≤ d'.dataDrops := by
  cases h <;> simp_all

theorem Step.dataDrops_le {c c' : Conf} (h : Step c c') :
    c.shared.dataDrops ≤ c'.shared.dataDrops := by
  cases h with
  | solo rest hs => exact hs.dataDrops_le
  | duo rest hd => cases hd <;> exact Nat.le_refl _

theorem dataDrops_le_of_reach {c c' : Conf} (h : ReflTransGen Step c c') :
    c.shared.dataDrops ≤ c'.shared.dataDrops := by
  induction h with
  | refl => exact Nat.le_refl _
  | tail _ hstep ih => exact ih.trans hstep.dataDrops_le

/-- With the strong count at zero, a thread that owns no `Arc` and has no
    increment in flight gains no `Arc` by its step, and its `upgrade`'s CAS
    cannot succeed. -/
theorem Act.no_upgrade_of_dead {d d' : ArcData} {t t' : Thread} (h : Act d t d' t')
    (hd : d.dataRefCount = 0) (ht : t.arcs = 0) (hb : Borrows t)
    (hp : t.pc.pendingData = 0) : t'.arcs ≤ t.arcs ∧ t'.pc ≠ .upgradeClone := by
  obtain ⟨hna, -⟩ := hb
  cases h <;> simp_all

/-- **NO `Arc` AFTER THE DROP.** Once `T` has been dropped, in every later
    configuration no `Arc` is live, and no thread's step gains one: every
    `Weak::upgrade` returns `None`. -/
theorem dead_after_drop {c c' : Conf} (hr : Reachable c)
    (hN : Multiset.card c.threads < MAX / 2) (hd : c.shared.dataDrops = 1)
    (hc' : ReflTransGen Step c c') :
    liveArcs c' = 0 ∧ ∀ t ∈ c'.threads, ∀ d' t', Act c'.shared t d' t' →
      t'.arcs ≤ t.arcs ∧ t'.pc ≠ .upgradeClone := by
  have hN' : Multiset.card c'.threads < MAX / 2 := card_eq_of_reach hc' ▸ hN
  have hinv := inv_reachable (hr.of_reach hc') hN'
  have hd' : c'.shared.dataDrops = 1 :=
    Nat.le_antisymm hinv.dataDrops_le (hd ▸ dataDrops_le_of_reach hc')
  obtain ⟨hz, hla, hpd⟩ := hinv.dead_of_dropped hd'
  refine ⟨hla, ?_⟩
  intro t ht d' t' hact
  have harcs : tally Thread.arcs c'.threads = 0 := by
    simp only [liveArcs] at hla
    omega
  have hpt : t.pc.pendingData = 0 := tally_eq_zero.mp hpd t ht
  exact hact.no_upgrade_of_dead hz (tally_eq_zero.mp harcs t ht) (hinv.borrows t ht) hpt

/-- The configuration after the only `Arc` of `init 0` has been dropped. -/
def released : Conf := ⟨⟨0, 0, false, 1, 1, 0, 0, false, false⟩, {Thread.empty}⟩

/-- Dropping the only `Arc` drops `T`, then its `Weak`, which frees the
    allocation. -/
theorem reach_released : ReflTransGen Step (init 0) released := by
  have s1 : ReflTransGen Step (init 0)
      ⟨⟨0, 1, true, 0, 0, 0, 0, false, false⟩, {⟨0, 0, .dropNone⟩}⟩ :=
    reach_solo 0 (Act.dropLast rfl (by decide) rfl)
  have s2 : ReflTransGen Step ⟨⟨0, 1, true, 0, 0, 0, 0, false, false⟩, {⟨0, 0, .dropNone⟩}⟩
      ⟨⟨0, 1, false, 1, 0, 0, 0, false, false⟩, {⟨0, 0, .dropWeak⟩}⟩ :=
    reach_solo 0 (Act.dropNone rfl)
  have s3 : ReflTransGen Step ⟨⟨0, 1, false, 1, 0, 0, 0, false, false⟩, {⟨0, 0, .dropWeak⟩}⟩
      ⟨⟨0, 0, false, 1, 0, 0, 0, false, false⟩, {⟨0, 0, .free⟩}⟩ :=
    reach_solo 0 (Act.dropWeakLast rfl rfl)
  have s4 : ReflTransGen Step ⟨⟨0, 0, false, 1, 0, 0, 0, false, false⟩, {⟨0, 0, .free⟩}⟩
      released :=
    reach_solo 0 (Act.free rfl)
  exact s1.trans (s2.trans (s3.trans s4))

/-- **THE WEAK-POINTER `Arc` IS SOUND** with fewer than `usize::MAX / 2`
    threads.  In every reachable configuration: `alloc_ref_count` counts the
    `Weak`s and the `Arc`s, and `data_ref_count` the `Arc`s, up to the
    operations in flight; while an `Arc` is live the `Option` is `Some`, and
    no `unwrap` has panicked; `T` has been dropped at most once, by a thread
    that found the count at 1 when no other `Arc` was live, and after that no
    `Arc` is live and no `Weak::upgrade` returns `Some`; the allocation has
    been freed at most once, and no handle is live while or after it is
    freed; and `get_mut` returns `Some` only to the only handle. -/
theorem arc_counts_handles (c : Conf) (hr : Reachable c)
    (hN : Multiset.card c.threads < MAX / 2) :
    c.shared.allocRefCount = liveWeaks c + liveArcs c + count Pc.pendingAlloc c ∧
    c.shared.dataRefCount = liveArcs c + count Pc.pendingData c ∧
    (0 < liveArcs c → c.shared.data = true) ∧ c.shared.unwrapFailed = false ∧
    c.shared.dataDrops ≤ 1 ∧
    (∀ t ∈ c.threads, t.pc = .dropNone →
      c.shared.dataDrops = 0 ∧ c.shared.dataRefCount = 0 ∧ liveArcs c = 0) ∧
    (c.shared.dataDrops = 1 → ∀ c', ReflTransGen Step c c' →
      liveArcs c' = 0 ∧ ∀ t ∈ c'.threads, ∀ d' t', Act c'.shared t d' t' →
        t'.arcs ≤ t.arcs ∧ t'.pc ≠ .upgradeClone) ∧
    c.shared.frees ≤ 1 ∧
    ((c.shared.frees = 1 ∨ ∃ t ∈ c.threads, t.pc = .free) →
      liveArcs c = 0 ∧ liveWeaks c = 0) ∧
    (∀ t ∈ c.threads, t.pc = .getMutHeld →
      t.arcs = 1 ∧ liveArcs c = 1 ∧ liveWeaks c = 0) := by
  have h := inv_reachable hr hN
  exact ⟨h.weak, h.strong, h.data_of_live, h.no_unwrap_fail, h.dataDrops_le,
    fun t ht hp => h.dead_of_dropping ht hp,
    fun hd _ hc' => dead_after_drop hr hN hd hc',
    h.frees_le, h.released_of_freed, fun t ht hp => h.unique_of_getMut ht hp⟩

theorem arc_counts_handles_released :
    Reachable released ∧ Multiset.card released.threads < MAX / 2 ∧
    (released.shared.allocRefCount =
      liveWeaks released + liveArcs released + count Pc.pendingAlloc released ∧
    released.shared.dataRefCount = liveArcs released + count Pc.pendingData released ∧
    (0 < liveArcs released → released.shared.data = true) ∧
    released.shared.unwrapFailed = false ∧
    released.shared.dataDrops ≤ 1 ∧
    (∀ t ∈ released.threads, t.pc = .dropNone →
      released.shared.dataDrops = 0 ∧ released.shared.dataRefCount = 0 ∧
      liveArcs released = 0) ∧
    (released.shared.dataDrops = 1 → ∀ c', ReflTransGen Step released c' →
      liveArcs c' = 0 ∧ ∀ t ∈ c'.threads, ∀ d' t', Act c'.shared t d' t' →
        t'.arcs ≤ t.arcs ∧ t'.pc ≠ .upgradeClone) ∧
    released.shared.frees ≤ 1 ∧
    ((released.shared.frees = 1 ∨ ∃ t ∈ released.threads, t.pc = .free) →
      liveArcs released = 0 ∧ liveWeaks released = 0) ∧
    (∀ t ∈ released.threads, t.pc = .getMutHeld →
      t.arcs = 1 ∧ liveArcs released = 1 ∧ liveWeaks released = 0)) :=
  have hcard : Multiset.card released.threads < MAX / 2 := by
    simp [released, MAX]
  ⟨⟨0, reach_released⟩, hcard, arc_counts_handles released ⟨0, reach_released⟩ hcard⟩

/-! ## Without the bound on the threads

    `Arc::downgrade` raises `alloc_ref_count` to `usize::MAX / 2 + 1`, handing
    each new `Weak` to a thread of its own; then each of those `usize::MAX / 2`
    threads calls `Weak::clone`, whose `fetch_add` runs before its guard, and
    the `Arc`'s owner calls `Arc::downgrade` last: `usize::MAX / 2 + 1`
    increments past the guard take the counter to `usize::MAX + 1`, which
    wraps to zero. -/

/-- The memory while `alloc_ref_count` climbs: one `Arc`, `Some`, nothing
    dropped or leaked. -/
def withAlloc (n : Nat) (fired : Bool) : ArcData := ⟨1, n, true, 0, 0, 0, 0, fired, false⟩

theorem withAlloc_wrappingAdd (n : Nat) (fired : Bool) (h : n < MAX) :
    { withAlloc n fired with
        allocRefCount := wrappingAdd (withAlloc n fired).allocRefCount } =
      withAlloc (n + 1) fired := by
  simp only [withAlloc, wrappingAdd_of_lt n h]

/-- The `Arc`'s owner downgrades `k` times, passing each new `Weak` on. -/
theorem reach_downgrades (k : Nat) (hk : k ≤ MAX / 2) (rest : Multiset Thread) :
    ReflTransGen Step
      ⟨withAlloc 1 false, ⟨1, 0, .idle⟩ ::ₘ (Multiset.replicate k Thread.empty + rest)⟩
      ⟨withAlloc (k + 1) false, ⟨1, 0, .idle⟩ ::ₘ (Multiset.replicate k ⟨0, 1, .idle⟩ + rest)⟩ := by
  induction k generalizing rest with
  | zero =>
      simp only [Multiset.replicate_zero, Multiset.zero_add, Nat.zero_add]
      exact ReflTransGen.refl
  | succ k ih =>
      have hlt : k + 1 < MAX := by
        have := two_mul_half
        omega
      -- the first `k` rounds leave one empty thread for the last
      have e1 : Multiset.replicate (k + 1) Thread.empty + rest
          = Multiset.replicate k Thread.empty + Thread.empty ::ₘ rest := by
        rw [Multiset.replicate_succ, Multiset.cons_add, Multiset.add_cons]
      have e2 : Multiset.replicate k (⟨0, 1, .idle⟩ : Thread) + Thread.empty ::ₘ rest
          = Thread.empty ::ₘ (Multiset.replicate k ⟨0, 1, .idle⟩ + rest) :=
        Multiset.add_cons ..
      have e3 : Multiset.replicate (k + 1) (⟨0, 1, .idle⟩ : Thread) + rest
          = ⟨0, 1, .idle⟩ ::ₘ (Multiset.replicate k ⟨0, 1, .idle⟩ + rest) := by
        rw [Multiset.replicate_succ, Multiset.cons_add]
      have hdown := Act.downgrade (d := withAlloc (k + 1) false) (t := ⟨1, 0, .idle⟩) rfl
        (by decide) (show k + 1 ≤ MAX / 2 by omega)
      rw [withAlloc_wrappingAdd _ _ hlt] at hdown
      have s1 := ih (by omega) (Thread.empty ::ₘ rest)
      have s2 : ReflTransGen Step
          ⟨withAlloc (k + 1) false,
            ⟨1, 0, .idle⟩ ::ₘ (Multiset.replicate k ⟨0, 1, .idle⟩ + Thread.empty ::ₘ rest)⟩
          ⟨withAlloc (k + 1 + 1) false,
            ⟨1, 1, .idle⟩ ::ₘ Thread.empty ::ₘ (Multiset.replicate k ⟨0, 1, .idle⟩ + rest)⟩ := by
        rw [← e2]
        exact reach_solo _ hdown
      -- the owner hands its new `Weak` to the empty thread
      have s3 : ReflTransGen Step
          ⟨withAlloc (k + 1 + 1) false,
            ⟨1, 1, .idle⟩ ::ₘ Thread.empty ::ₘ (Multiset.replicate k ⟨0, 1, .idle⟩ + rest)⟩
          ⟨withAlloc (k + 1 + 1) false,
            ⟨1, 0, .idle⟩ ::ₘ ⟨0, 1, .idle⟩ ::ₘ (Multiset.replicate k ⟨0, 1, .idle⟩ + rest)⟩ :=
        reach_duo _ (Pass.weak rfl (by decide))
      rw [e1, e3]
      exact s1.trans (s2.trans s3)

/-- A `Weak::clone` past the guard: its `fetch_add` lands, `abort()` is next. -/
theorem act_weakCloneAbort (i : Nat) (hi : i < MAX / 2) :
    Act (withAlloc (MAX / 2 + 1 + i) (decide (0 < i))) ⟨0, 1, .idle⟩
      (withAlloc (MAX / 2 + 1 + (i + 1)) (decide (0 < i + 1))) ⟨0, 1, .abortWeak⟩ := by
  have hlt : MAX / 2 + 1 + i < MAX := by
    have := two_mul_half
    omega
  have h := Act.weakCloneAbort (d := withAlloc (MAX / 2 + 1 + i) (decide (0 < i)))
    (t := ⟨0, 1, .idle⟩) rfl (by decide) (show MAX / 2 < MAX / 2 + 1 + i by omega)
  have e : { withAlloc (MAX / 2 + 1 + i) (decide (0 < i)) with
        allocRefCount := wrappingAdd (withAlloc (MAX / 2 + 1 + i) (decide (0 < i))).allocRefCount,
        fired := true } =
      withAlloc (MAX / 2 + 1 + (i + 1)) (decide (0 < i + 1)) := by
    simp only [withAlloc, wrappingAdd_of_lt _ hlt]
    congr 1
  rw [e] at h
  exact h

/-- The `usize::MAX / 2` owners of a `Weak` each call `Weak::clone` and stop
    at its `abort()`, taking the count from `usize::MAX / 2 + 1` to
    `usize::MAX`. -/
theorem reach_weakCloneAborts (rest : Multiset Thread) :
    ReflTransGen Step
      ⟨withAlloc (MAX / 2 + 1) false, Multiset.replicate (MAX / 2) ⟨0, 1, .idle⟩ + rest⟩
      ⟨withAlloc MAX true, Multiset.replicate (MAX / 2) ⟨0, 1, .abortWeak⟩ + rest⟩ := by
  have h : ReflTransGen Step
      ⟨withAlloc (MAX / 2 + 1 + 0) (decide (0 < 0)),
        Multiset.replicate (MAX / 2) ⟨0, 1, .idle⟩ + rest⟩
      ⟨withAlloc (MAX / 2 + 1 + MAX / 2) (decide (0 < MAX / 2)),
        Multiset.replicate (MAX / 2) ⟨0, 1, .abortWeak⟩ + rest⟩ :=
    reach_replicate (fun i => withAlloc (MAX / 2 + 1 + i) (decide (0 < i))) (MAX / 2)
      act_weakCloneAbort rest
  have e0 : MAX / 2 + 1 + 0 = MAX / 2 + 1 := rfl
  have eN : MAX / 2 + 1 + MAX / 2 = MAX := by
    have := two_mul_half
    omega
  have hzero : decide (0 < 0) = false := by decide
  have hpos : decide (0 < MAX / 2) = true := by decide
  rw [e0, eN, hzero, hpos] at h
  exact h

/-- Every thread stopped at `abort()`: the `Arc`'s owner and `n` owners of a
    `Weak`, with the counter wrapped to zero. -/
def stopped (n : Nat) : Conf :=
  ⟨withAlloc 0 true, ⟨1, 0, .abortWeak⟩ ::ₘ Multiset.replicate n ⟨0, 1, .abortWeak⟩⟩

theorem live_stopped (n : Nat) : liveWeaks (stopped n) + liveArcs (stopped n) = n + 1 := by
  simp [stopped, liveWeaks, liveArcs, withAlloc]

theorem reach_stopped : ReflTransGen Step (init (MAX / 2)) (stopped (MAX / 2)) := by
  have s1 : ReflTransGen Step (init (MAX / 2))
      ⟨withAlloc (MAX / 2 + 1) false,
        ⟨1, 0, .idle⟩ ::ₘ Multiset.replicate (MAX / 2) ⟨0, 1, .idle⟩⟩ := by
    have h := reach_downgrades (MAX / 2) (Nat.le_refl _) 0
    simp only [Multiset.add_zero] at h
    exact h
  have e1 : (⟨1, 0, .idle⟩ : Thread) ::ₘ Multiset.replicate (MAX / 2) ⟨0, 1, .idle⟩
      = Multiset.replicate (MAX / 2) ⟨0, 1, .idle⟩ + {⟨1, 0, .idle⟩} := by
    rw [← Multiset.singleton_add, Multiset.add_comm]
  have e2 : Multiset.replicate (MAX / 2) (⟨0, 1, .abortWeak⟩ : Thread) + {⟨1, 0, .idle⟩}
      = ⟨1, 0, .idle⟩ ::ₘ Multiset.replicate (MAX / 2) ⟨0, 1, .abortWeak⟩ := by
    rw [← Multiset.singleton_add, Multiset.add_comm]
  have s2 := reach_weakCloneAborts {⟨1, 0, .idle⟩}
  rw [← e1, e2] at s2
  -- last, the `Arc`'s owner calls `Arc::downgrade`: `usize::MAX + 1` wraps to 0
  have hdown := Act.downgradeAbort (d := withAlloc MAX true) (t := ⟨1, 0, .idle⟩) rfl
    (by decide) (show MAX / 2 < MAX by have := two_mul_half; omega)
  have e3 : { withAlloc MAX true with
      allocRefCount := wrappingAdd (withAlloc MAX true).allocRefCount, fired := true } =
      withAlloc 0 true := by
    simp only [withAlloc, wrappingAdd_MAX]
  rw [e3] at hdown
  have s3 : ReflTransGen Step
      ⟨withAlloc MAX true, ⟨1, 0, .idle⟩ ::ₘ Multiset.replicate (MAX / 2) ⟨0, 1, .abortWeak⟩⟩
      (stopped (MAX / 2)) :=
    reach_solo _ hdown
  exact s1.trans (s2.trans s3)

/-- **THE WEAK COUNT WRAPS** with `2^63` threads: a reachable configuration
    where `alloc_ref_count` is below the number of live handles. -/
theorem alloc_count_wraps :
    ¬ ∀ c, Reachable c → liveWeaks c + liveArcs c ≤ c.shared.allocRefCount := by
  intro h
  have hw := h (stopped (MAX / 2)) ⟨MAX / 2, reach_stopped⟩
  have h1 := live_stopped (MAX / 2)
  have h0 : (stopped (MAX / 2)).shared.allocRefCount = 0 := rfl
  omega

end WeakPointer
