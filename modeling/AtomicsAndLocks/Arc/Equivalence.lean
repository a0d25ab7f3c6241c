import AtomicsAndLocks.Arc.Calls

/-! # One call at a time the two `Arc`s agree — two refinements of one promise

    Called one operation at a time, each implementation keeps counters that
    the program's handles determine (`countsOf`): in `06-02` `data_ref_count`
    is the number of `Arc`s, `alloc_ref_count` the number of handles, and the
    `Option` is `Some` while an `Arc` exists; in `06-03` `data_ref_count` is
    the number of `Arc`s and `alloc_ref_count` the number of `Weak`s plus one
    for all the `Arc`s together.  From those counters every call of either
    code returns what `Handles.call` promises and leaves the counters of the
    handles after it, as long as fewer than `usize::MAX / 2` handles exist,
    so that no guard fires (`step_countsOf`).  `run_agree` lifts each to whole
    runs, and the two refinements compose into the equivalence. -/

namespace Calls

open Usize

theorem fetchAddGuarded_of_le {v : Nat} (h : v ≤ MAX / 2) : fetchAddGuarded v = .ok (v + 1) := by
  have hlt : v < MAX := by
    have := two_mul_half
    omega
  rw [fetchAddGuarded, if_neg (Nat.not_lt.mpr h), wrappingAdd_of_lt v hlt]

theorem fetchSubLast_of_pos {v : Nat} (h0 : 0 < v) (h : v ≤ MAX) :
    fetchSubLast v = (v - 1, decide (v = 1)) := by
  rw [fetchSubLast, wrappingSub_of_pos v h0 h]

end Calls

namespace WeakPointer

open Usize Calls Lockstep

namespace Mem

theorem weakClone_of_le {m : Mem} (h : m.allocRefCount ≤ MAX / 2) :
    m.weakClone = .ok { m with allocRefCount := m.allocRefCount + 1 } := by
  rw [weakClone, fetchAddGuarded_of_le h]
  rfl

theorem weakDrop_of_pos {m : Mem} (h0 : 0 < m.allocRefCount) (h : m.allocRefCount ≤ MAX) :
    m.weakDrop = ({ m with allocRefCount := m.allocRefCount - 1 }, decide (m.allocRefCount = 1)) := by
  rw [weakDrop, fetchSubLast_of_pos h0 h]

theorem arcClone_of_le {m : Mem} (ha : m.allocRefCount ≤ MAX / 2)
    (hd : m.dataRefCount ≤ MAX / 2) :
    m.arcClone = .ok { m with allocRefCount := m.allocRefCount + 1,
                              dataRefCount := m.dataRefCount + 1 } := by
  rw [arcClone, weakClone_of_le ha]
  show (fetchAddGuarded m.dataRefCount >>= _) = _
  rw [fetchAddGuarded_of_le hd]
  rfl

theorem arcDrop_of_pos {m : Mem} (hd0 : 0 < m.dataRefCount) (hd : m.dataRefCount ≤ MAX)
    (ha0 : 0 < m.allocRefCount) (ha : m.allocRefCount ≤ MAX) :
    m.arcDrop = (⟨m.dataRefCount - 1, m.allocRefCount - 1,
        if m.dataRefCount = 1 then false else m.data⟩,
      ⟨none, decide (m.dataRefCount = 1), decide (m.allocRefCount = 1)⟩) := by
  simp only [arcDrop, weakDrop, fetchSubLast_of_pos hd0 hd, fetchSubLast_of_pos ha0 ha,
    decide_eq_true_eq]

theorem getMut_of_some {m : Mem} (hd : m.data = true) :
    m.getMut = .ok (decide (m.allocRefCount = 1)) := by
  by_cases h1 : m.allocRefCount = 1
  · rw [getMut, if_pos h1, if_pos hd, decide_eq_true h1]
  · rw [getMut, if_neg h1, decide_eq_false h1]

theorem deref_of_some {m : Mem} (hd : m.data = true) : m.deref = .ok () := by
  rw [deref, if_pos hd]

theorem upgrade_of_zero {m : Mem} (h0 : m.dataRefCount = 0) : m.upgrade = .ok none := by
  simp only [upgrade, h0, if_true]

theorem upgrade_of_pos {m : Mem} (h0 : 0 < m.dataRefCount) (hd : m.dataRefCount < MAX)
    (ha : m.allocRefCount ≤ MAX / 2) :
    m.upgrade = .ok (some { m with dataRefCount := m.dataRefCount + 1,
                                   allocRefCount := m.allocRefCount + 1 }) := by
  simp only [upgrade, Nat.pos_iff_ne_zero.mp h0, hd, if_false, not_true_eq_false]
  rw [weakClone_of_le (m := ⟨m.dataRefCount + 1, m.allocRefCount, m.data⟩) ha]
  rfl

end Mem

/-- The `06-02` counters that the program's handles call for:
    `data_ref_count` counts the `Arc`s, `alloc_ref_count` every handle, and
    the `Option` is `Some` while an `Arc` exists. -/
def countsOf (h : Handles) : Mem := ⟨h.liveArcs, h.total, decide (0 < h.liveArcs)⟩

@[simp] theorem countsOf_dataRefCount (h : Handles) : (countsOf h).dataRefCount = h.liveArcs := rfl

@[simp] theorem countsOf_allocRefCount (h : Handles) : (countsOf h).allocRefCount = h.total := rfl

@[simp] theorem countsOf_data (h : Handles) :
    (countsOf h).data = decide (0 < h.liveArcs) := rfl

/-- **EACH CALL OF THE `06-02` CODE KEEPS ITS PROMISE**: from the counters of
    the handles, with fewer than `usize::MAX / 2` of them, it shows what
    `Handles.call` promises and leaves the counters of the handles after it. -/
theorem step_countsOf {h : Handles} {op : Op} (hown : h.owns op = true)
    (hb : h.total < MAX / 2) :
    step (countsOf h) op = .ok (countsOf (h.after op (h.observe op).gotArc), h.observe op) := by
  have hT : h.total = h.liveArcs + (h.weaks + h.leakedWeaks) := rfl
  have hA : h.liveArcs = h.arcs + h.leakedArcs := rfl
  have hM : MAX / 2 < MAX := by
    have := two_mul_half
    omega
  cases op with
  | clone =>
      have ha : 0 < h.arcs := by simpa [Handles.owns, Op.onArc] using hown
      rw [step, Mem.arcClone_of_le (show h.total ≤ MAX / 2 by omega)
        (show h.liveArcs ≤ MAX / 2 by omega)]
      refine congrArg Except.ok (Prod.ext (Mem.ext ?_ ?_ ?_) rfl)
      · show h.liveArcs + 1 = h.arcs + 1 + h.leakedArcs
        omega
      · show h.total + 1 = h.arcs + 1 + h.leakedArcs + (h.weaks + h.leakedWeaks)
        omega
      · show decide (0 < h.liveArcs) = decide (0 < h.arcs + 1 + h.leakedArcs)
        exact decide_eq_decide.mpr (by omega)
  | drop =>
      have ha : 0 < h.arcs := by simpa [Handles.owns, Op.onArc] using hown
      rw [step, Mem.arcDrop_of_pos (show 0 < h.liveArcs by omega)
        (show h.liveArcs ≤ MAX by omega) (show 0 < h.total by omega) (show h.total ≤ MAX by omega)]
      refine congrArg Except.ok (Prod.ext (Mem.ext ?_ ?_ ?_) rfl)
      · show h.liveArcs - 1 = h.arcs - 1 + h.leakedArcs
        omega
      · show h.total - 1 = h.arcs - 1 + h.leakedArcs + (h.weaks + h.leakedWeaks)
        omega
      · -- the drop that finds 1 sets the `Option` to `None`
        show (if h.liveArcs = 1 then false else decide (0 < h.liveArcs)) =
          decide (0 < h.arcs - 1 + h.leakedArcs)
        by_cases h1 : h.liveArcs = 1
        · rw [if_pos h1]
          exact (decide_eq_false (by omega)).symm
        · rw [if_neg h1]
          exact decide_eq_decide.mpr (by omega)
  | downgrade | weakClone =>
      rw [step, Mem.weakClone_of_le (show h.total ≤ MAX / 2 by omega)]
      refine congrArg Except.ok (Prod.ext (Mem.ext rfl ?_ rfl) rfl)
      show h.total + 1 = h.arcs + h.leakedArcs + (h.weaks + 1 + h.leakedWeaks)
      omega
  | getMut =>
      have ha : 0 < h.arcs := by simpa [Handles.owns, Op.onArc] using hown
      rw [step, Mem.getMut_of_some (decide_eq_true (show 0 < h.liveArcs by omega))]
      -- the count of all handles is 1 exactly when the caller's `Arc` is the only one
      refine congrArg Except.ok (Prod.ext rfl ?_)
      show (⟨some (decide (h.total = 1)), false, false⟩ : Obs) =
        ⟨some (decide (h.liveArcs = 1 ∧ h.liveWeaks = 0)), false, false⟩
      rw [decide_eq_decide.mpr (show h.total = 1 ↔ h.liveArcs = 1 ∧ h.liveWeaks = 0 by
        simp only [Handles.liveWeaks]; omega)]
  | deref =>
      have ha : 0 < h.arcs := by simpa [Handles.owns, Op.onArc] using hown
      rw [step, Mem.deref_of_some (decide_eq_true (show 0 < h.liveArcs by omega))]
      rfl
  | forget =>
      have ha : 0 < h.arcs := by simpa [Handles.owns, Op.onArc] using hown
      refine congrArg Except.ok (Prod.ext (Mem.ext ?_ ?_ ?_) rfl)
      · show h.liveArcs = h.arcs - 1 + (h.leakedArcs + 1)
        omega
      · show h.total = h.arcs - 1 + (h.leakedArcs + 1) + (h.weaks + h.leakedWeaks)
        omega
      · show decide (0 < h.liveArcs) = decide (0 < h.arcs - 1 + (h.leakedArcs + 1))
        exact decide_eq_decide.mpr (by omega)
  | upgrade =>
      by_cases h0 : h.liveArcs = 0
      · -- no `Arc` is left: `upgrade` returns `None`
        have hobs : h.observe .upgrade = ⟨some false, false, false⟩ := by
          simp [Handles.observe, h0]
        rw [step, Mem.upgrade_of_zero (show h.liveArcs = 0 from h0), hobs]
        rfl
      · have hobs : h.observe .upgrade = ⟨some true, false, false⟩ := by
          simp [Handles.observe, Nat.pos_of_ne_zero h0]
        rw [step, Mem.upgrade_of_pos (show 0 < h.liveArcs by omega)
          (show h.liveArcs < MAX by omega) (show h.total ≤ MAX / 2 by omega), hobs]
        refine congrArg Except.ok (Prod.ext (Mem.ext ?_ ?_ ?_) rfl)
        · show h.liveArcs + 1 = h.arcs + 1 + h.leakedArcs
          omega
        · show h.total + 1 = h.arcs + 1 + h.leakedArcs + (h.weaks + h.leakedWeaks)
          omega
        · show decide (0 < h.liveArcs) = decide (0 < h.arcs + 1 + h.leakedArcs)
          exact decide_eq_decide.mpr (by omega)
  | weakDrop =>
      have hw : 0 < h.weaks := by simpa [Handles.owns, Op.onArc] using hown
      rw [step, Mem.weakDrop_of_pos (show 0 < h.total by omega) (show h.total ≤ MAX by omega)]
      refine congrArg Except.ok (Prod.ext (Mem.ext rfl ?_ rfl) rfl)
      show h.total - 1 = h.arcs + h.leakedArcs + (h.weaks - 1 + h.leakedWeaks)
      omega
  | weakForget =>
      have hw : 0 < h.weaks := by simpa [Handles.owns, Op.onArc] using hown
      refine congrArg Except.ok (Prod.ext (Mem.ext rfl ?_ rfl) rfl)
      show h.total = h.arcs + h.leakedArcs + (h.weaks - 1 + (h.leakedWeaks + 1))
      omega

end WeakPointer

namespace Optimization

open Usize Calls Lockstep

namespace Mem

theorem weakClone_of_le {m : Mem} (h : m.allocRefCount ≤ MAX / 2) :
    m.weakClone = .ok { m with allocRefCount := m.allocRefCount + 1 } := by
  rw [weakClone, fetchAddGuarded_of_le h]
  rfl

theorem weakDrop_of_pos {m : Mem} (h0 : 0 < m.allocRefCount) (h : m.allocRefCount ≤ MAX) :
    m.weakDrop = ({ m with allocRefCount := m.allocRefCount - 1 }, decide (m.allocRefCount = 1)) := by
  rw [weakDrop, fetchSubLast_of_pos h0 h]

theorem arcClone_of_le {m : Mem} (h : m.dataRefCount ≤ MAX / 2) :
    m.arcClone = .ok { m with dataRefCount := m.dataRefCount + 1 } := by
  rw [arcClone, fetchAddGuarded_of_le h]
  rfl

/-- The last `Arc::drop` drops `T` and then the implicit `Weak`. -/
theorem arcDrop_of_last {m : Mem} (h1 : m.dataRefCount = 1) (ha0 : 0 < m.allocRefCount)
    (ha : m.allocRefCount ≤ MAX) :
    m.arcDrop = (⟨0, m.allocRefCount - 1⟩, ⟨none, true, decide (m.allocRefCount = 1)⟩) := by
  have hd : fetchSubLast m.dataRefCount = (0, true) := by
    rw [fetchSubLast_of_pos (by omega) (by rw [h1]; exact Nat.one_le_iff_ne_zero.mpr (by decide)), h1]
    rfl
  simp only [arcDrop, hd, if_true, weakDrop, fetchSubLast_of_pos ha0 ha]

/-- Any other `Arc::drop` only lowers the strong count. -/
theorem arcDrop_of_other {m : Mem} (h1 : m.dataRefCount ≠ 1) (h0 : 0 < m.dataRefCount)
    (h : m.dataRefCount ≤ MAX) :
    m.arcDrop = ({ m with dataRefCount := m.dataRefCount - 1 }, Obs.quiet) := by
  simp only [arcDrop, fetchSubLast_of_pos h0 h, h1, decide_false, Bool.false_eq_true, if_false]

/-- `get_mut` puts `alloc_ref_count` back as it found it. -/
theorem getMut_eq (m : Mem) :
    m.getMut = (m, decide (m.allocRefCount = 1 ∧ m.dataRefCount = 1)) := by
  by_cases h1 : m.allocRefCount = 1
  · simp only [getMut, h1, ne_eq, not_true_eq_false, if_false, true_and]
    rw [← h1]
  · simp only [getMut, ne_eq, h1, not_false_eq_true, if_true, false_and, decide_false]

theorem downgrade_of_lt {m : Mem} (h : m.allocRefCount < MAX - 1) :
    m.downgrade = .ok { m with allocRefCount := m.allocRefCount + 1 } := by
  have hne : m.allocRefCount ≠ MAX := by omega
  simp only [downgrade, hne, h, if_false, not_true_eq_false]

theorem upgrade_of_zero {m : Mem} (h0 : m.dataRefCount = 0) : m.upgrade = .ok none := by
  simp only [upgrade, h0, if_true]

theorem upgrade_of_pos {m : Mem} (h0 : 0 < m.dataRefCount) (hd : m.dataRefCount < MAX) :
    m.upgrade = .ok (some { m with dataRefCount := m.dataRefCount + 1 }) := by
  simp only [upgrade, Nat.pos_iff_ne_zero.mp h0, hd, if_false, not_true_eq_false]

end Mem

/-- The `06-03` counters that the program's handles call for:
    `data_ref_count` counts the `Arc`s, `alloc_ref_count` the `Weak`s and one
    more while any `Arc` exists. -/
def countsOf (h : Handles) : Mem := ⟨h.liveArcs, h.liveWeaks + min 1 h.liveArcs⟩

/-- **EACH CALL OF THE `06-03` CODE KEEPS ITS PROMISE**: from the counters of
    the handles, with fewer than `usize::MAX / 2` of them, it shows what
    `Handles.call` promises and leaves the counters of the handles after it. -/
theorem step_countsOf {h : Handles} {op : Op} (hown : h.owns op = true)
    (hb : h.total < MAX / 2) :
    step (countsOf h) op = .ok (countsOf (h.after op (h.observe op).gotArc), h.observe op) := by
  have hT : h.total = h.liveArcs + h.liveWeaks := rfl
  have hA : h.liveArcs = h.arcs + h.leakedArcs := rfl
  have hW : h.liveWeaks = h.weaks + h.leakedWeaks := rfl
  have hM : MAX / 2 < MAX - 1 := by
    have := two_mul_half
    omega
  cases op with
  | clone =>
      have ha : 0 < h.arcs := by simpa [Handles.owns, Op.onArc] using hown
      rw [step, Mem.arcClone_of_le (show h.liveArcs ≤ MAX / 2 by omega)]
      refine congrArg Except.ok (Prod.ext (Mem.ext ?_ ?_) rfl)
      · show h.liveArcs + 1 = h.arcs + 1 + h.leakedArcs
        omega
      · show h.liveWeaks + min 1 h.liveArcs = h.weaks + h.leakedWeaks + min 1 (h.arcs + 1 + h.leakedArcs)
        omega
  | drop =>
      have ha : 0 < h.arcs := by simpa [Handles.owns, Op.onArc] using hown
      by_cases h1 : h.liveArcs = 1
      · -- the last `Arc`: `T` goes, then the implicit `Weak`
        rw [step, Mem.arcDrop_of_last (show h.liveArcs = 1 from h1)
          (show 0 < h.liveWeaks + min 1 h.liveArcs by omega)
          (show h.liveWeaks + min 1 h.liveArcs ≤ MAX by omega)]
        refine congrArg Except.ok (Prod.ext (Mem.ext ?_ ?_) ?_)
        · show 0 = h.arcs - 1 + h.leakedArcs
          omega
        · show h.liveWeaks + min 1 h.liveArcs - 1 =
            h.weaks + h.leakedWeaks + min 1 (h.arcs - 1 + h.leakedArcs)
          omega
        · show (⟨none, true, decide (h.liveWeaks + min 1 h.liveArcs = 1)⟩ : Obs) =
            ⟨none, decide (h.liveArcs = 1), decide (h.total = 1)⟩
          rw [decide_eq_true h1, decide_eq_decide.mpr (show _ ↔ h.total = 1 by omega)]
      · rw [step, Mem.arcDrop_of_other (show h.liveArcs ≠ 1 from h1)
          (show 0 < h.liveArcs by omega) (show h.liveArcs ≤ MAX by omega)]
        refine congrArg Except.ok (Prod.ext (Mem.ext ?_ ?_) ?_)
        · show h.liveArcs - 1 = h.arcs - 1 + h.leakedArcs
          omega
        · show h.liveWeaks + min 1 h.liveArcs =
            h.weaks + h.leakedWeaks + min 1 (h.arcs - 1 + h.leakedArcs)
          omega
        · show Obs.quiet = ⟨none, decide (h.liveArcs = 1), decide (h.total = 1)⟩
          rw [decide_eq_false h1, decide_eq_false (show h.total ≠ 1 by omega)]
          rfl
  | downgrade =>
      rw [step, Mem.downgrade_of_lt (show h.liveWeaks + min 1 h.liveArcs < MAX - 1 by omega)]
      refine congrArg Except.ok (Prod.ext (Mem.ext rfl ?_) rfl)
      show h.liveWeaks + min 1 h.liveArcs + 1 =
        h.weaks + 1 + h.leakedWeaks + min 1 (h.arcs + h.leakedArcs)
      omega
  | getMut =>
      have ha : 0 < h.arcs := by simpa [Handles.owns, Op.onArc] using hown
      -- the implicit `Weak` is the 1 that `compare_exchange` expects exactly
      -- when no `Weak` exists, and then the strong count decides
      rw [step, Mem.getMut_eq]
      refine congrArg Except.ok (Prod.ext rfl ?_)
      show (⟨some (decide (h.liveWeaks + min 1 h.liveArcs = 1 ∧ h.liveArcs = 1)), false, false⟩ : Obs) =
        ⟨some (decide (h.liveArcs = 1 ∧ h.liveWeaks = 0)), false, false⟩
      rw [decide_eq_decide.mpr (show _ ↔ h.liveArcs = 1 ∧ h.liveWeaks = 0 by omega)]
  | deref => rfl
  | forget =>
      have ha : 0 < h.arcs := by simpa [Handles.owns, Op.onArc] using hown
      refine congrArg Except.ok (Prod.ext (Mem.ext ?_ ?_) rfl)
      · show h.liveArcs = h.arcs - 1 + (h.leakedArcs + 1)
        omega
      · show h.liveWeaks + min 1 h.liveArcs =
          h.weaks + h.leakedWeaks + min 1 (h.arcs - 1 + (h.leakedArcs + 1))
        omega
  | upgrade =>
      by_cases h0 : h.liveArcs = 0
      · -- no `Arc` is left: `upgrade` returns `None`
        have hobs : h.observe .upgrade = ⟨some false, false, false⟩ := by
          simp [Handles.observe, h0]
        rw [step, Mem.upgrade_of_zero (show h.liveArcs = 0 from h0), hobs]
        rfl
      · have hobs : h.observe .upgrade = ⟨some true, false, false⟩ := by
          simp [Handles.observe, Nat.pos_of_ne_zero h0]
        rw [step, Mem.upgrade_of_pos (show 0 < h.liveArcs by omega)
          (show h.liveArcs < MAX by omega), hobs]
        refine congrArg Except.ok (Prod.ext (Mem.ext ?_ ?_) rfl)
        · show h.liveArcs + 1 = h.arcs + 1 + h.leakedArcs
          omega
        · show h.liveWeaks + min 1 h.liveArcs =
            h.weaks + h.leakedWeaks + min 1 (h.arcs + 1 + h.leakedArcs)
          omega
  | weakClone =>
      rw [step, Mem.weakClone_of_le (show h.liveWeaks + min 1 h.liveArcs ≤ MAX / 2 by omega)]
      refine congrArg Except.ok (Prod.ext (Mem.ext rfl ?_) rfl)
      show h.liveWeaks + min 1 h.liveArcs + 1 =
        h.weaks + 1 + h.leakedWeaks + min 1 (h.arcs + h.leakedArcs)
      omega
  | weakDrop =>
      have hw : 0 < h.weaks := by simpa [Handles.owns, Op.onArc] using hown
      rw [step, Mem.weakDrop_of_pos (show 0 < h.liveWeaks + min 1 h.liveArcs by omega)
        (show h.liveWeaks + min 1 h.liveArcs ≤ MAX by omega)]
      refine congrArg Except.ok (Prod.ext (Mem.ext rfl ?_) ?_)
      · show h.liveWeaks + min 1 h.liveArcs - 1 =
          h.weaks - 1 + h.leakedWeaks + min 1 (h.arcs + h.leakedArcs)
        omega
      · -- with a `Weak` in hand, the count is 1 only for the last handle of all
        show (⟨none, false, decide (h.liveWeaks + min 1 h.liveArcs = 1)⟩ : Obs) =
          ⟨none, false, decide (h.total = 1)⟩
        rw [decide_eq_decide.mpr (show _ ↔ h.total = 1 by omega)]
  | weakForget =>
      have hw : 0 < h.weaks := by simpa [Handles.owns, Op.onArc] using hown
      refine congrArg Except.ok (Prod.ext (Mem.ext rfl ?_) rfl)
      show h.liveWeaks + min 1 h.liveArcs =
        h.weaks - 1 + (h.leakedWeaks + 1) + min 1 (h.arcs + h.leakedArcs)
      omega

end Optimization

/-! ## Whole runs -/

namespace WeakPointer

open Usize Calls Lockstep

/-- From the counters of its handles, the `06-02` code takes each call as
    `Handles.call` does. -/
theorem simulates_promise :
    Simulates (fun h : Handles => h.total < MAX / 2) (fun h w => w = (countsOf h, h))
      Handles.call call := by
  rintro h w op hb rfl
  by_cases hown : h.owns op = true
  · simp only [Handles.call, call, through, hown, if_true, step_countsOf hown hb]
    exact ⟨rfl, rfl⟩
  · simp only [Handles.call, call, through, hown]
    rfl

/-- **THE `06-02` `Arc` KEEPS THE PROMISE** on every run during which fewer
    than `usize::MAX / 2` handles exist, and its counters stay those of the
    handles. -/
theorem refines_promise (ops : List Op)
    (hb : Always Handles.call (fun h => h.total < MAX / 2) Handles.new ops) :
    RunAgree (fun h w => w = (countsOf h, h)) (run Handles.call Handles.new ops)
      (run call new ops) :=
  run_agree simulates_promise ops rfl hb

end WeakPointer

namespace Optimization

open Usize Calls Lockstep

/-- From the counters of its handles, the `06-03` code takes each call as
    `Handles.call` does. -/
theorem simulates_promise :
    Simulates (fun h : Handles => h.total < MAX / 2) (fun h w => w = (countsOf h, h))
      Handles.call call := by
  rintro h w op hb rfl
  by_cases hown : h.owns op = true
  · simp only [Handles.call, call, through, hown, if_true, step_countsOf hown hb]
    exact ⟨rfl, rfl⟩
  · simp only [Handles.call, call, through, hown]
    rfl

/-- **THE `06-03` `Arc` KEEPS THE PROMISE** on every run during which fewer
    than `usize::MAX / 2` handles exist, and its counters stay those of the
    handles. -/
theorem refines_promise (ops : List Op)
    (hb : Always Handles.call (fun h => h.total < MAX / 2) Handles.new ops) :
    RunAgree (fun h w => w = (countsOf h, h)) (run Handles.call Handles.new ops)
      (run call new ops) :=
  run_agree simulates_promise ops rfl hb

end Optimization

open Usize Calls Lockstep in
/-- **ONE CALL AT A TIME THE TWO `Arc`s AGREE.** On every sequence of calls
    during which fewer than `usize::MAX / 2` handles are ever live or leaked,
    `06-02` and `06-03` return the same `Some` or `None` from every `upgrade`
    and `get_mut`, drop `T` and free the allocation at the same calls, and
    stop at the same call for the same reason; where the run returns, the
    program holds the same handles, the two `data_ref_count`s are equal,
    `alloc_ref_count` of `06-02` is that of `06-03` plus `data_ref_count`
    less one while it is positive, and the `Option` is `Some` exactly then. -/
theorem calls_agree (ops : List Op)
    (hb : Always Handles.call (fun h => h.total < MAX / 2) Handles.new ops) :
    (run WeakPointer.call WeakPointer.new ops).1 = (run Optimization.call Optimization.new ops).1 ∧
    Agree (fun w v => w.2 = v.2 ∧ w.1.dataRefCount = v.1.dataRefCount ∧
        w.1.allocRefCount = v.1.allocRefCount + v.1.dataRefCount - min 1 v.1.dataRefCount ∧
        w.1.data = decide (0 < v.1.dataRefCount))
      (run WeakPointer.call WeakPointer.new ops).2 (run Optimization.call Optimization.new ops).2 := by
  -- both run as the promise does, so they run as each other
  have h := (WeakPointer.refines_promise ops hb).symm.trans (Optimization.refines_promise ops hb)
  refine ⟨h.1, h.2.imp ?_⟩
  rintro w v ⟨h, hw, hv⟩
  have hw' : w = (WeakPointer.countsOf h, h) := hw
  have hv' : v = (Optimization.countsOf h, h) := hv
  subst hw' hv'
  refine ⟨rfl, rfl, ?_, rfl⟩
  show h.liveArcs + h.liveWeaks = h.liveWeaks + min 1 h.liveArcs + h.liveArcs - min 1 h.liveArcs
  omega

namespace Calls

/-- Downgrade the `Arc`, drop it (dropping `T`), upgrade the `Weak` (`None`)
    and drop it (freeing the allocation). -/
def lastWeak : List Op := [.downgrade, .drop, .upgrade, .weakDrop]

end Calls

open Usize Calls Lockstep in
theorem calls_agree_lastWeak :
    Always Handles.call (fun h => h.total < MAX / 2) Handles.new lastWeak ∧
    ((run WeakPointer.call WeakPointer.new lastWeak).1 =
      (run Optimization.call Optimization.new lastWeak).1 ∧
    Agree (fun w v => w.2 = v.2 ∧ w.1.dataRefCount = v.1.dataRefCount ∧
        w.1.allocRefCount = v.1.allocRefCount + v.1.dataRefCount - min 1 v.1.dataRefCount ∧
        w.1.data = decide (0 < v.1.dataRefCount))
      (run WeakPointer.call WeakPointer.new lastWeak).2
      (run Optimization.call Optimization.new lastWeak).2) :=
  have hb : Always Handles.call (fun h => h.total < MAX / 2) Handles.new lastWeak :=
    Always.cons (by decide) rfl (Always.cons (by decide) rfl
      (Always.cons (by decide) rfl (Always.cons (by decide) rfl (Always.nil (by decide)))))
  ⟨hb, calls_agree lastWeak hb⟩
