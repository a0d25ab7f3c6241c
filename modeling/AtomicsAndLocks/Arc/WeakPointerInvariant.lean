import AtomicsAndLocks.Arc.WeakPointer

/-! # The `Arc` with weak pointers — the counting invariant

    With fewer than `usize::MAX / 2` threads, in every reachable
    configuration, fired guards included:

    * `data_ref_count` is the number of `Arc`s, owned or leaked, plus the
      increments whose `Arc` does not exist (yet or ever): an upgrade between
      its CAS and its `self.clone()`, and threads stopped at an `abort`;
    * `alloc_ref_count` is the number of `Weak`s plus the number of `Arc`s
      (each owns one) plus the increments no live handle owns: an
      `Arc::clone` between its two `fetch_add`s, an `Arc::drop` that has not
      dropped its `Weak` yet, and threads stopped at an `abort`;
    * `alloc_ref_count` is at most `usize::MAX / 2 + 1` plus one for each
      thread stopped by a `Weak::clone` guard — so with fewer than
      `usize::MAX / 2` threads no `fetch_add` reaches `usize::MAX`, and by
      the two equations no `fetch_sub` finds 0.

    The rest records the `Option` (`Some` until the one `*ptr = None`), that
    `T` is dropped and the allocation freed at most once, that `get_mut`'s
    `&mut T` is only handed out while its `Arc` is the only handle, and that
    no `unwrap` has failed. -/

namespace WeakPointer

open Interleaving Usize

namespace Pc

/-- Program points at which the thread borrows one of its `Arc`s. -/
@[simp] def needsArc : Pc → Nat
  | .cloneData => 1
  | .getMutUnwrap => 1
  | .getMutHeld => 1
  | _ => 0

/-- Program points at which the thread borrows one of its `Weak`s. -/
@[simp] def needsWeak : Pc → Nat
  | .upgradeLoop _ => 1
  | .upgradeClone => 1
  | _ => 0

/-- A `data_ref_count` increment that no live `Arc` owns. -/
@[simp] def pendingData : Pc → Nat
  | .upgradeClone => 1
  | .abortClone => 1
  | .abortUpgrade => 1
  | _ => 0

/-- An `alloc_ref_count` increment that no live handle owns. -/
@[simp] def pendingAlloc : Pc → Nat
  | .cloneData => 1
  | .dropNone => 1
  | .dropWeak => 1
  | .abortWeak => 1
  | .abortClone => 1
  | .abortUpgrade => 1
  | _ => 0

/-- Stopped by the guard of a `Weak::clone`, after its increment. -/
@[simp] def abortAlloc : Pc → Nat
  | .abortWeak => 1
  | .abortUpgrade => 1
  | _ => 0

/-- Between an upgrade's CAS and its `self.clone()`. -/
@[simp] def upgrading : Pc → Nat
  | .upgradeClone => 1
  | _ => 0

/-- `T` is about to be dropped. -/
@[simp] def dropping : Pc → Nat
  | .dropNone => 1
  | _ => 0

/-- The allocation is about to be freed. -/
@[simp] def freeing : Pc → Nat
  | .free => 1
  | _ => 0

/-- `get_mut` saw `alloc_ref_count == 1` and has not given the `&mut T` back. -/
@[simp] def exclusive : Pc → Nat
  | .getMutUnwrap => 1
  | .getMutHeld => 1
  | _ => 0

theorem exclusive_le_needsArc (p : Pc) : p.exclusive ≤ p.needsArc := by
  cases p <;> simp

theorem pendingData_le (p : Pc) : p.pendingData ≤ p.pendingAlloc + p.upgrading := by
  cases p <;> simp

theorem abortAlloc_add_upgrading_le (p : Pc) : p.abortAlloc + p.upgrading ≤ 1 := by
  cases p <;> simp

end Pc

/-- A thread in the middle of an operation on a handle still owns it. -/
def Borrows (t : Thread) : Prop :=
  t.pc.needsArc ≤ t.arcs ∧ t.pc.needsWeak ≤ t.weaks

/-- How many threads stand where the indicator `f` says. -/
def count (f : Pc → Nat) (c : Conf) : Nat := tally (fun t => f t.pc) c.threads

@[simp] theorem count_eq (f : Pc → Nat) (c : Conf) :
    count f c = tally (fun t => f t.pc) c.threads := rfl

/-- The invariant of every configuration of fewer than `usize::MAX / 2` threads. -/
structure Inv (c : Conf) : Prop where
  /-- `data_ref_count` counts the `Arc`s and the increments no `Arc` owns. -/
  strong : c.shared.dataRefCount = liveArcs c + count Pc.pendingData c
  /-- `alloc_ref_count` counts the `Weak`s, the `Arc`s' own `Weak`s, and the
      increments no handle owns. -/
  weak : c.shared.allocRefCount = liveWeaks c + liveArcs c + count Pc.pendingAlloc c
  alloc_le : c.shared.allocRefCount ≤ MAX / 2 + 1 + count Pc.abortAlloc c
  /-- The `Option` is `Some` until `T` is dropped. -/
  option : c.shared.data = true ↔ c.shared.dataDrops = 0
  drops : c.shared.dataDrops + count Pc.dropping c + min 1 c.shared.dataRefCount = 1
  frees : c.shared.frees + count Pc.freeing c + min 1 c.shared.allocRefCount = 1
  /-- While `get_mut` is past its `load` the count it saw still holds. -/
  exclusive : 0 < count Pc.exclusive c → c.shared.allocRefCount = 1
  borrows : ∀ t ∈ c.threads, Borrows t
  no_unwrap_fail : c.shared.unwrapFailed = false

/-- The threads not stepping keep their borrows; summed up, these bounds. -/
theorem rest_bounds {m : Multiset Thread} (h : ∀ u ∈ m, Borrows u) :
    tally (fun u => u.pc.exclusive) m ≤ tally Thread.arcs m ∧
      tally (fun u => u.pc.pendingData) m ≤
        tally (fun u => u.pc.pendingAlloc) m + tally (fun u => u.pc.upgrading) m ∧
      tally (fun u => u.pc.abortAlloc) m + tally (fun u => u.pc.upgrading) m ≤
        Multiset.card m := by
  have hx : tally (fun u => u.pc.exclusive) m ≤ tally (fun u => u.pc.needsArc) m :=
    tally_le_tally (fun u _ => Pc.exclusive_le_needsArc u.pc)
  have hna : tally (fun u => u.pc.needsArc) m ≤ tally Thread.arcs m :=
    tally_le_tally (fun u hu => (h u hu).1)
  refine ⟨hx.trans hna, ?_, tally_add_le_card (fun u _ => Pc.abortAlloc_add_upgrading_le u.pc)⟩
  rw [← tally_add_shares]
  exact tally_le_tally (fun u _ => Pc.pendingData_le u.pc)

theorem inv_init (n : Nat) : Inv (init n) where
  strong := by simp [init, liveArcs, Thread.empty]
  weak := by simp [init, liveArcs, liveWeaks, Thread.empty]
  alloc_le := by simp [init, Thread.empty, MAX]
  option := by simp [init]
  drops := by simp [init, Thread.empty]
  frees := by simp [init, Thread.empty]
  exclusive := by intro h; simp [init, Thread.empty] at h
  borrows := by
    intro t ht
    simp only [init, Multiset.mem_cons, Multiset.mem_replicate] at ht
    rcases ht with rfl | ⟨-, rfl⟩ <;> simp [Borrows, Thread.empty]
  no_unwrap_fail := rfl

/-! ## One step keeps the invariant

    `Arith` spells `Inv` out at `t ::ₘ rest` with the stepping thread's shares
    apart and the other threads' tallies as plain numbers: `A` arcs, `W`
    weaks, `PD` and `PA` pending increments, `AA` fired `Weak::clone`s, `Dp`
    dropping, `F` freeing, `X` exclusive.  The bound on the threads enters
    through `K`, the number of other threads, which caps `AA` and the
    upgrades in flight `UP`. -/

/-- The numeric fields of `Inv` at `t ::ₘ rest`. -/
def Arith (d : ArcData) (t : Thread) (A W PD PA AA Dp F X : Nat) : Prop :=
  let arcs := t.arcs + A + d.leakedArcs
  d.dataRefCount = arcs + (t.pc.pendingData + PD) ∧
  d.allocRefCount = t.weaks + W + d.leakedWeaks + arcs + (t.pc.pendingAlloc + PA) ∧
  d.allocRefCount ≤ MAX / 2 + 1 + (t.pc.abortAlloc + AA) ∧
  d.dataDrops + (t.pc.dropping + Dp) + min 1 d.dataRefCount = 1 ∧
  d.frees + (t.pc.freeing + F) + min 1 d.allocRefCount = 1 ∧
  (0 < t.pc.exclusive + X → d.allocRefCount = 1)

/-- `Arith` at the tallies of the threads that are not stepping. -/
abbrev ArithRest (d : ArcData) (t : Thread) (rest : Multiset Thread) : Prop :=
  Arith d t (tally Thread.arcs rest) (tally Thread.weaks rest)
    (tally (fun u => u.pc.pendingData) rest) (tally (fun u => u.pc.pendingAlloc) rest)
    (tally (fun u => u.pc.abortAlloc) rest) (tally (fun u => u.pc.dropping) rest)
    (tally (fun u => u.pc.freeing) rest) (tally (fun u => u.pc.exclusive) rest)

theorem arith_of_inv {d : ArcData} {t : Thread} {rest : Multiset Thread}
    (h : Inv ⟨d, t ::ₘ rest⟩) :
    Borrows t ∧ (∀ u ∈ rest, Borrows u) ∧ ArithRest d t rest := by
  obtain ⟨h1, h2, h3, -, h5, h6, h7, h8, -⟩ := h
  simp only [count_eq, liveArcs, liveWeaks, tally_cons] at *
  rw [Multiset.forall_mem_cons] at h8
  exact ⟨h8.1, h8.2, h1, by omega, h3, h5, h6, h7⟩

theorem inv_of_arith {d : ArcData} {t : Thread} {rest : Multiset Thread}
    (hbt : Borrows t) (hbr : ∀ u ∈ rest, Borrows u) (hA : ArithRest d t rest)
    (ho : d.data = true ↔ d.dataDrops = 0) (hu : d.unwrapFailed = false) :
    Inv ⟨d, t ::ₘ rest⟩ := by
  obtain ⟨h1, h2, h3, h5, h6, h7⟩ := hA
  refine ⟨?_, ?_, ?_, ho, ?_, ?_, ?_, ?_, hu⟩
  all_goals simp only [count_eq, liveArcs, liveWeaks, tally_cons]
  · exact h1
  · omega
  · exact h3
  · exact h5
  · exact h6
  · exact h7
  · exact Multiset.forall_mem_cons.mpr ⟨hbt, hbr⟩

/-- The `Option` changes only at `*ptr = None`, which counts a drop of `T`. -/
theorem Act.option_keeps {d d' : ArcData} {t t' : Thread} (h : Act d t d' t')
    (ho : d.data = true ↔ d.dataDrops = 0) : d'.data = true ↔ d'.dataDrops = 0 := by
  cases h <;> simp_all

/-- An `unwrap` fails only on `None`, in a thread that owns an `Arc`. -/
theorem Act.unwrapFailed_keeps {d d' : ArcData} {t t' : Thread} (h : Act d t d' t')
    (hb : Borrows t) (hd : 0 < t.arcs → d.data = true) :
    d'.unwrapFailed = d.unwrapFailed := by
  cases h with
  | getMutPanic hp hn =>
      have ha : 0 < t.arcs := by
        have := hb.1
        simp [hp] at this
        omega
      simp [hd ha] at hn
  | derefPanic _ ha hn => simp [hd ha] at hn
  | _ => rfl

section ArithStep

variable {d d' : ArcData} {t t' : Thread} {A W PD PA AA Dp F X UP K : Nat}

/-- The steps that start an operation from `idle`. -/
theorem arith_step_idle (h : Act d t d' t') (hi : t.pc = .idle)
    (hbt : Borrows t) (hA : Arith d t A W PD PA AA Dp F X)
    (hX : X ≤ A) (hPD : PD ≤ PA + UP) (hK : AA + UP ≤ K) (hN : K + 1 < MAX / 2) :
    Borrows t' ∧ Arith d' t' A W PD PA AA Dp F X := by
  have hM := two_mul_half
  obtain ⟨hta, htw⟩ := hbt
  simp only [Arith, Borrows, hi] at hA hta htw ⊢
  cases h with
  | cloneData h _ | cloneDataAbort h _ | dropNone h | dropWeakLast h _ | dropWeakOther h _
  | free h | upgradeNone h | upgradePanic h _ _ | upgradeCas h _ _ _ | upgradeRetry h _ _
  | upgradeClone h _ | upgradeCloneAbort h _ | getMutSome h _ | getMutPanic h _
  | release h =>
      simp [hi] at h
  | cloneWeak _ ha hn =>
      have hw := wrappingAdd_of_lt d.allocRefCount (by omega)
      simp [hw] at hA ⊢
      omega
  | cloneWeakAbort _ ha hn | downgradeAbort _ ha hn | weakCloneAbort _ ha hn =>
      -- the guard fires, but the other threads' fired guards leave room below the top
      have hw := wrappingAdd_of_lt d.allocRefCount (by simp at hA; omega)
      simp [hw] at hA ⊢
      omega
  | dropLast _ ha h1 =>
      have hw : wrappingSub 1 = 0 := rfl
      simp [hw, h1] at hA ⊢
      omega
  | dropOther _ ha h1 =>
      have hw := wrappingSub_of_pos d.dataRefCount (by simp at hA; omega)
        (by simp at hA; omega)
      simp [hw] at hA ⊢
      omega
  | weakDropLast _ hw h1 =>
      have hw' : wrappingSub 1 = 0 := rfl
      simp [hw', h1] at hA ⊢
      omega
  | weakDropOther _ hw h1 =>
      have hw' := wrappingSub_of_pos d.allocRefCount (by simp at hA; omega)
        (by simp at hA; omega)
      simp [hi, hw'] at hA ⊢
      omega
  | downgrade _ ha hn | weakClone _ ha hn =>
      have hw := wrappingAdd_of_lt d.allocRefCount (by omega)
      simp [hi, hw] at hA ⊢
      omega
  | upgrade _ hw =>
      simp at hA ⊢
      omega
  | getMut _ ha h1 =>
      simp [h1] at hA ⊢
      omega
  | getMutNone _ ha h1 | deref _ ha h1 | derefPanic _ ha h1 =>
      simp [hi] at hA ⊢
      omega
  | forgetArc _ ha | forgetWeak _ ha =>
      simp [hi] at hA ⊢
      omega

/-- The steps inside an operation. -/
theorem arith_step_busy (h : Act d t d' t') (hi : t.pc ≠ .idle)
    (hbt : Borrows t) (hA : Arith d t A W PD PA AA Dp F X)
    (hX : X ≤ A) (hPD : PD ≤ PA + UP) (hK : AA + UP ≤ K) (hN : K + 1 < MAX / 2) :
    Borrows t' ∧ Arith d' t' A W PD PA AA Dp F X := by
  have hM := two_mul_half
  obtain ⟨hta, htw⟩ := hbt
  simp only [Arith, Borrows] at hA hta htw ⊢
  cases h with
  | cloneWeak h _ _ | cloneWeakAbort h _ _ | dropLast h _ _ | dropOther h _ _
  | weakDropLast h _ _ | weakDropOther h _ _ | downgrade h _ _ | downgradeAbort h _ _
  | weakClone h _ _ | weakCloneAbort h _ _ | upgrade h _ | getMut h _ _ | getMutNone h _ _
  | deref h _ _ | derefPanic h _ _ | forgetArc h _ | forgetWeak h _ =>
      exact absurd h hi
  | cloneData h hn =>
      have hw := wrappingAdd_of_lt d.dataRefCount (by omega)
      simp [h, hw] at hA hta htw ⊢
      omega
  | cloneDataAbort h hn =>
      -- the count is bounded through `alloc_ref_count`, which every `Arc` raised too
      have hw := wrappingAdd_of_lt d.dataRefCount (by simp [h] at hA; omega)
      simp [h, hw] at hA hta htw ⊢
      omega
  | dropNone h =>
      simp [h] at hA hta htw ⊢
      omega
  | dropWeakLast h h1 =>
      have hw : wrappingSub 1 = 0 := rfl
      simp [h, hw, h1] at hA hta htw ⊢
      omega
  | dropWeakOther h h1 =>
      have hw := wrappingSub_of_pos d.allocRefCount (by simp [h] at hA; omega)
        (by simp [h] at hA; omega)
      simp [h, hw] at hA hta htw ⊢
      omega
  | free h =>
      simp [h] at hA hta htw ⊢
      omega
  | upgradeNone h | upgradePanic h _ _ | upgradeRetry h _ _ =>
      simp [h] at hA hta htw ⊢
      omega
  | upgradeCas h hn hb he =>
      simp [h, he] at hA hta htw ⊢
      omega
  | upgradeClone h hn =>
      have hw := wrappingAdd_of_lt d.allocRefCount (by omega)
      simp [h, hw] at hA hta htw ⊢
      omega
  | upgradeCloneAbort h hn =>
      have hw := wrappingAdd_of_lt d.allocRefCount (by simp [h] at hA; omega)
      simp [h, hw] at hA hta htw ⊢
      omega
  | getMutSome h hd =>
      simp [h] at hA hta htw ⊢
      omega
  | getMutPanic h hd =>
      simp [h] at hA hta htw ⊢
      omega
  | release h =>
      simp [h] at hA hta htw ⊢
      omega

end ArithStep

/-- While an `Arc` is live the strong count is positive, so `T` has not been
    dropped and the `Option` is `Some`. -/
theorem Inv.data_of_live {c : Conf} (h : Inv c) (ha : 0 < liveArcs c) :
    c.shared.data = true := by
  have h1 := h.strong
  have h2 := h.drops
  have hd : c.shared.dataDrops = 0 := by omega
  exact h.option.mpr hd

/-- A thread that owns an `Arc` sees `Some`. -/
theorem Inv.data_of_arc {c : Conf} (h : Inv c) {t : Thread} (ht : t ∈ c.threads)
    (ha : 0 < t.arcs) : c.shared.data = true := by
  have hle : t.arcs ≤ liveArcs c := (le_tally ht).trans (Nat.le_add_right _ _)
  exact h.data_of_live (Nat.lt_of_lt_of_le ha hle)

/-- **ONE STEP OF ONE THREAD** keeps the invariant, with fewer than
    `usize::MAX / 2` threads. -/
theorem inv_solo {d d' : ArcData} {t t' : Thread} {rest : Multiset Thread}
    (hinv : Inv ⟨d, t ::ₘ rest⟩) (h : Act d t d' t') (hN : Multiset.card rest + 1 < MAX / 2) :
    Inv ⟨d', t' ::ₘ rest⟩ := by
  obtain ⟨hbt, hbr, hA⟩ := arith_of_inv hinv
  obtain ⟨hX, hPD, hK⟩ := rest_bounds hbr
  have hdata : 0 < t.arcs → d.data = true :=
    fun ha => hinv.data_of_arc (Multiset.mem_cons_self t rest) ha
  have hstep : Borrows t' ∧ ArithRest d' t' rest := by
    by_cases hi : t.pc = .idle
    · exact arith_step_idle h hi hbt hA hX hPD hK hN
    · exact arith_step_busy h hi hbt hA hX hPD hK hN
  exact inv_of_arith hstep.1 hbr hstep.2 (h.option_keeps hinv.option)
    ((h.unwrapFailed_keeps hbt hdata).trans hinv.no_unwrap_fail)

/-- `Inv` only looks at the memory, the live handles, the program points and
    the borrows, so a configuration that agrees on those inherits it. -/
theorem inv_of_counts {c c' : Conf} (hinv : Inv c) (hd : c'.shared = c.shared)
    (ha : liveArcs c' = liveArcs c) (hw : liveWeaks c' = liveWeaks c)
    (hp : ∀ f : Pc → Nat, count f c' = count f c) (hb : ∀ t ∈ c'.threads, Borrows t) :
    Inv c' := by
  obtain ⟨h1, h2, h3, h4, h5, h6, h7, -, h9⟩ := hinv
  refine ⟨?_, ?_, ?_, ?_, ?_, ?_, ?_, hb, ?_⟩
  all_goals simp only [hd, ha, hw, hp]
  all_goals assumption

/-- **A HAND-OFF** moves one handle between two threads and keeps the invariant. -/
theorem inv_duo {d d' : ArcData} {t u t' u' : Thread} {rest : Multiset Thread}
    (hinv : Inv ⟨d, t ::ₘ u ::ₘ rest⟩) (h : Pass d t u d' t' u') :
    Inv ⟨d', t' ::ₘ u' ::ₘ rest⟩ := by
  have hbo := hinv.borrows
  simp only [Multiset.forall_mem_cons] at hbo
  obtain ⟨⟨hta, htw⟩, ⟨hua, huw⟩, hbr⟩ := hbo
  cases h with
  | arc hi ha =>
      refine inv_of_counts hinv rfl ?_ (by simp [liveWeaks]) (fun f => by simp) ?_
      · simp only [liveArcs, tally_cons]
        omega
      · simp only [Multiset.forall_mem_cons, Borrows]
        exact ⟨⟨by simp [hi], by simp [hi]⟩,
          ⟨show u.pc.needsArc ≤ u.arcs + 1 by omega, huw⟩, hbr⟩
  | weak hi hw =>
      refine inv_of_counts hinv rfl (by simp [liveArcs]) ?_ (fun f => by simp) ?_
      · simp only [liveWeaks, tally_cons]
        omega
      · simp only [Multiset.forall_mem_cons, Borrows]
        exact ⟨⟨by simp [hi], by simp [hi]⟩,
          ⟨hua, show u.pc.needsWeak ≤ u.weaks + 1 by omega⟩, hbr⟩

theorem inv_step {c c' : Conf} (hinv : Inv c) (h : Step c c')
    (hN : Multiset.card c.threads < MAX / 2) : Inv c' := by
  cases h with
  | solo rest hs =>
      rw [Multiset.card_cons] at hN
      exact inv_solo hinv hs hN
  | duo rest hd => exact inv_duo hinv hd

/-- **THE INVARIANT HOLDS** in every reachable configuration of fewer than
    `usize::MAX / 2` threads. -/
theorem inv_reachable {c : Conf} (h : Reachable c) (hN : Multiset.card c.threads < MAX / 2) :
    Inv c := by
  obtain ⟨n, hr⟩ := h
  exact invariant_of_reach_card (B := fun k => k < MAX / 2)
    (fun _ _ hb hinv hab => inv_step hinv hab hb) hr (inv_init n) hN

/-- A configuration reached from a reachable one is reachable. -/
theorem Reachable.of_reach {c c' : Conf} (h : Reachable c)
    (hr : Relation.ReflTransGen Step c c') : Reachable c' := by
  obtain ⟨n, h0⟩ := h
  exact ⟨n, h0.trans hr⟩

end WeakPointer
