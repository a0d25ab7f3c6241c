import AtomicsAndLocks.Arc.OptimizationInvariant

/-! # The optimised `Arc` — `T` and the allocation are released once

    From `inv_reachable`: in every configuration reached without an overflow
    guard firing,

    * `T` has been dropped at most once, and once it has, no `Arc` is live and
      none ever will be again: `data_ref_count` stays zero, so no
      `Weak::upgrade` returns `Some` and no thread gains an `Arc`;
    * the allocation has been freed at most once, and once it has, no handle
      is live and every thread is between operations;
    * if no handle was leaked and every handle has been dropped, both have
      happened.

    The last point is where the implicit weak matters: the `Arc::drop` that
    takes the strong count to zero drops `T` and then the implicit weak, and
    whichever of the weak drops comes last frees the allocation. -/

namespace Optimization

open Interleaving Usize Relation

/-- Threads all between operations stand at no counted program point. -/
theorem count_eq_zero_of_idle {c : Conf} {f : Pc → Nat} (hf : f .idle = 0)
    (h : ∀ t ∈ c.threads, t.pc = .idle) : count f c = 0 := by
  rw [count_eq, tally_eq_zero]
  intro t ht
  rw [h t ht, hf]

/-- **`T` IS DROPPED AT MOST ONCE.** -/
theorem dataDrops_le {c : Conf} (h : Inv c) : c.shared.dataDrops ≤ 1 := by
  have hd := h.drops
  omega

/-- Once `T` has been dropped, the strong count is zero and no `Arc` is live. -/
theorem no_arcs_of_dropped {c : Conf} (h : Inv c) (hd : c.shared.dataDrops = 1) :
    c.shared.dataRefCount = 0 ∧ liveArcs c = 0 := by
  have h1 := h.drops
  have h2 := h.strong
  have hz : c.shared.dataRefCount = 0 := by omega
  exact ⟨hz, h2 ▸ hz⟩

/-- The ghost count of drops of `T` never goes down. -/
theorem Act.dataDrops_le {d d' : ArcData} {t t' : Thread} (h : Act d t d' t') :
    d.dataDrops ≤ d'.dataDrops := by
  cases h <;> simp_all

theorem Step.dataDrops_le {c c' : Conf} (h : Step c c') :
    c.shared.dataDrops ≤ c'.shared.dataDrops := by
  cases h with
  | solo rest hs => exact hs.dataDrops_le
  | duo rest hd => cases hd <;> exact Nat.le_refl _

theorem dataDrops_le_of_reach {c c' : Conf} (h : ReflTransGen Step c c') :
    c.shared.dataDrops ≤ c'.shared.dataDrops := by
  induction h with
  | refl => exact Nat.le_refl _
  | tail _ hstep ih => exact ih.trans hstep.dataDrops_le

/-- With the strong count at zero and no `Arc` in hand, no step of a thread
    hands it an `Arc`: `clone` needs one, and `upgrade`'s CAS needs a nonzero
    count to succeed. -/
theorem Act.arcs_le_of_dead {d d' : ArcData} {t t' : Thread} (h : Act d t d' t')
    (hd : d.dataRefCount = 0) (ht : t.arcs = 0) : t'.arcs ≤ t.arcs := by
  cases h <;> simp_all

/-- **FREED AT MOST ONCE**, and only when nothing is left: no live handle and
    no thread in the middle of an operation. -/
theorem released_of_freed {c : Conf} (h : Inv c) (hfr : c.shared.frees = 1) :
    liveArcs c = 0 ∧ liveWeaks c = 0 ∧ ∀ t ∈ c.threads, t.pc = .idle := by
  have h1 := h.frees
  have h2 := h.strong
  simp only [weakCount] at h1
  have hla : liveArcs c = 0 := by omega
  have hlw : liveWeaks c = 0 := by omega
  have him : count Pc.implicitWeak c = 0 := by omega
  have hfg : count Pc.freeing c = 0 := by omega
  have hab := h.no_abort
  refine ⟨hla, hlw, ?_⟩
  intro t ht
  -- a thread away from `idle` borrows a handle, owns the implicit weak, frees,
  -- or aborts; none of these is left
  have hta : t.arcs = 0 := (tally_eq_zero.mp (by simp only [liveArcs] at hla; omega)) t ht
  have htw : t.weaks = 0 := (tally_eq_zero.mp (by simp only [liveWeaks] at hlw; omega)) t ht
  have hti : t.pc.implicitWeak = 0 := tally_eq_zero.mp him t ht
  have htf : t.pc.freeing = 0 := tally_eq_zero.mp hfg t ht
  have htb : t.pc.pendingAbort = 0 := tally_eq_zero.mp hab t ht
  obtain ⟨hna, hnw⟩ := h.borrows t ht
  apply Pc.eq_idle_of_counts
  omega

/-- With no handle live and every thread between operations, `T` has been
    dropped and the allocation freed. -/
theorem released_of_no_handles {c : Conf} (h : Inv c) (hla : liveArcs c = 0)
    (hlw : liveWeaks c = 0) (hidle : ∀ t ∈ c.threads, t.pc = .idle) :
    c.shared.dataDrops = 1 ∧ c.shared.frees = 1 := by
  have h1 := h.drops
  have h2 := h.frees
  have h3 := h.strong
  have hdp : count Pc.dropping c = 0 := count_eq_zero_of_idle rfl hidle
  have hfg : count Pc.freeing c = 0 := count_eq_zero_of_idle rfl hidle
  have him : count Pc.implicitWeak c = 0 := count_eq_zero_of_idle rfl hidle
  simp only [weakCount] at h2
  simp only [count_eq] at hdp hfg him h1 h2
  constructor <;> omega

/-- The configuration after the only `Arc` of `init 0` has been dropped. -/
def released : Conf := ⟨⟨0, 0, 1, 1, 0, 0, false⟩, {Thread.empty}⟩

/-- Dropping the only `Arc` drops `T`, then the implicit weak, which frees the
    allocation. -/
theorem reach_released : ReflTransGen Step (init 0) released := by
  have s1 : ReflTransGen Step (init 0) ⟨⟨0, 1, 0, 0, 0, 0, false⟩, {⟨0, 0, .dropData⟩}⟩ :=
    reach_solo 0 (Act.dropLast rfl (by decide) rfl)
  have s2 : ReflTransGen Step ⟨⟨0, 1, 0, 0, 0, 0, false⟩, {⟨0, 0, .dropData⟩}⟩
      ⟨⟨0, 1, 1, 0, 0, 0, false⟩, {⟨0, 0, .dropWeak⟩}⟩ :=
    reach_solo 0 (Act.dropData rfl)
  have s3 : ReflTransGen Step ⟨⟨0, 1, 1, 0, 0, 0, false⟩, {⟨0, 0, .dropWeak⟩}⟩
      ⟨⟨0, 0, 1, 0, 0, 0, false⟩, {⟨0, 0, .free⟩}⟩ :=
    reach_solo 0 (Act.dropWeakLast rfl rfl)
  have s4 : ReflTransGen Step ⟨⟨0, 0, 1, 0, 0, 0, false⟩, {⟨0, 0, .free⟩}⟩ released :=
    reach_solo 0 (Act.free rfl)
  exact s1.trans (s2.trans (s3.trans s4))

/-- **THE LIFETIME OF `ArcData`.** In every configuration reached without an
    overflow guard firing: `T` has been dropped at most once; once it has, no
    `Arc` is live in that configuration or in any later one reached without a
    guard firing, and from each of those no thread's step gains an `Arc` (no
    `upgrade` returns `Some`); the allocation has been freed at most once, and
    once it has, no handle is live and no thread is inside an operation; and
    if no handle was leaked and every handle has been dropped, `T` has been
    dropped and the allocation freed. -/
theorem arcData_released_once (c : Conf) (hr : Reachable c)
    (hf : c.shared.fired = false) :
    c.shared.dataDrops ≤ 1 ∧
    (c.shared.dataDrops = 1 → ∀ c', ReflTransGen Step c c' → c'.shared.fired = false →
      liveArcs c' = 0 ∧
      ∀ t ∈ c'.threads, ∀ d' t', Act c'.shared t d' t' → t'.arcs ≤ t.arcs) ∧
    c.shared.frees ≤ 1 ∧
    (c.shared.frees = 1 →
      liveArcs c = 0 ∧ liveWeaks c = 0 ∧ ∀ t ∈ c.threads, t.pc = .idle) ∧
    (c.shared.leakedArcs = 0 → c.shared.leakedWeaks = 0 →
      (∀ t ∈ c.threads, t.arcs = 0 ∧ t.weaks = 0 ∧ t.pc = .idle) →
      c.shared.dataDrops = 1 ∧ c.shared.frees = 1) := by
  have hinv := inv_reachable hr hf
  refine ⟨dataDrops_le hinv, ?_, by have := hinv.frees; omega, released_of_freed hinv, ?_⟩
  · intro hd c' hc' hf'
    have hinv' := inv_reachable (hr.of_reach hc') hf'
    have hd' : c'.shared.dataDrops = 1 :=
      Nat.le_antisymm (dataDrops_le hinv') (hd ▸ dataDrops_le_of_reach hc')
    obtain ⟨hz, hla⟩ := no_arcs_of_dropped hinv' hd'
    refine ⟨hla, ?_⟩
    intro t ht d' t' hact
    have harcs : tally Thread.arcs c'.threads = 0 := by simp only [liveArcs] at hla; omega
    exact hact.arcs_le_of_dead hz (tally_eq_zero.mp harcs t ht)
  · intro hla hlw hall
    refine released_of_no_handles hinv ?_ ?_ (fun t ht => (hall t ht).2.2)
    · simp only [liveArcs, hla, Nat.add_zero]
      exact tally_eq_zero.mpr (fun t ht => (hall t ht).1)
    · simp only [liveWeaks, hlw, Nat.add_zero]
      exact tally_eq_zero.mpr (fun t ht => (hall t ht).2.1)

theorem arcData_released_once_released :
    Reachable released ∧ released.shared.fired = false ∧
    (released.shared.dataDrops ≤ 1 ∧
    (released.shared.dataDrops = 1 → ∀ c', ReflTransGen Step released c' →
      c'.shared.fired = false → liveArcs c' = 0 ∧
      ∀ t ∈ c'.threads, ∀ d' t', Act c'.shared t d' t' → t'.arcs ≤ t.arcs) ∧
    released.shared.frees ≤ 1 ∧
    (released.shared.frees = 1 → liveArcs released = 0 ∧ liveWeaks released = 0 ∧
      ∀ t ∈ released.threads, t.pc = .idle) ∧
    (released.shared.leakedArcs = 0 → released.shared.leakedWeaks = 0 →
      (∀ t ∈ released.threads, t.arcs = 0 ∧ t.weaks = 0 ∧ t.pc = .idle) →
      released.shared.dataDrops = 1 ∧ released.shared.frees = 1)) :=
  ⟨⟨0, reach_released⟩, rfl, arcData_released_once released ⟨0, reach_released⟩ rfl⟩

end Optimization
