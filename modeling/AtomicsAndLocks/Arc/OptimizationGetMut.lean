import AtomicsAndLocks.Arc.OptimizationLifetime

/-! # The optimised `Arc` — `get_mut`

    `get_mut` reads uniqueness off two counters at two instants: it parks the
    sentinel `usize::MAX` in `alloc_ref_count` when that held 1, loads
    `data_ref_count`, and restores 1.  While no overflow guard has fired,
    `Inv` makes this sound:

    * while the `&mut T` is held there is one `Arc`, no `Weak`, and every
      other thread is idle with no handle, so it has no step at all;
    * while the sentinel is parked no other thread's step touches
      `alloc_ref_count`, so the `store(1)` overwrites nothing;
    * run with every other thread idle, `get_mut` returns `Some` exactly when
      its `Arc` is the only handle.

    Without the restriction to runs where no guard has fired the first point
    fails: leaked upgrades raise `data_ref_count` to `usize::MAX`, a `clone`
    wraps it to 0 on its way to `abort()`, and another thread's `clone` and
    `get_mut` then see a unique `Arc` among `usize::MAX + 1` live ones. -/

namespace Optimization

open Interleaving Usize Relation

/-! ## The held `&mut T` -/

/-- A thread between operations with no handle has no step. -/
theorem Act.false_of_empty {d d' : ArcData} {u u' : Thread} (h : Act d u d' u')
    (hi : u.pc = .idle) (ha : u.arcs = 0) (hw : u.weaks = 0) : False := by
  cases h <;> simp_all

/-- While a thread holds the `&mut T`, its `Arc` is the only handle and every
    other thread is idle with nothing in hand. -/
theorem others_of_held {c : Conf} (h : Inv c) {t : Thread} (ht : t ∈ c.threads)
    (hh : t.pc = .getMutHeld) :
    liveArcs c = 1 ∧ liveWeaks c = 0 ∧
      ∀ u ∈ c.threads.erase t, u.arcs = 0 ∧ u.weaks = 0 ∧ u.pc = .idle := by
  have hheld : 0 < count Pc.held c := by
    rw [count_eq, tally_erase _ ht, hh]
    simp
  obtain ⟨h1, hw1, -⟩ := h.held hheld
  have hs := h.strong
  have hfr := h.frees
  simp only [weakCount] at hw1 hfr
  have hta : 1 ≤ t.arcs := by
    have := (h.borrows t ht).1
    rwa [hh] at this
  have hA : tally Thread.arcs c.threads = t.arcs + tally Thread.arcs (c.threads.erase t) :=
    tally_erase _ ht
  have hrest : tally Thread.arcs (c.threads.erase t) = 0 := by
    simp only [liveArcs] at hs
    omega
  have hlw : liveWeaks c = 0 := by omega
  have him : count Pc.implicitWeak c = 0 := by omega
  have hfg : count Pc.freeing c = 0 := by omega
  refine ⟨by omega, hlw, ?_⟩
  intro u hu
  have hu' := Multiset.mem_of_mem_erase hu
  have hua : u.arcs = 0 := tally_eq_zero.mp hrest u hu
  have huw : u.weaks = 0 :=
    tally_eq_zero.mp (by simp only [liveWeaks] at hlw; omega) u hu'
  exact ⟨hua, huw, h.idle_of_empty hu' hua huw (tally_eq_zero.mp him u hu')
    (tally_eq_zero.mp hfg u hu')⟩

/-! ## The sentinel window -/

/-- With the sentinel parked, a thread that owns no `Weak`, not the implicit
    weak, and is not itself in the window leaves `alloc_ref_count` alone:
    `downgrade`'s CAS expects a value below `usize::MAX - 1` and `get_mut`'s
    expects 1. -/
theorem Act.alloc_eq_of_sentinel {d d' : ArcData} {u u' : Thread} (h : Act d u d' u')
    (hM : d.allocRefCount = MAX) (hw : u.weaks = 0) (hi : u.pc.implicitWeak = 0)
    (hwin : u.pc.window = 0) : d'.allocRefCount = d.allocRefCount := by
  cases h with
  | dropWeakLast hp _ | dropWeakOther hp _ => simp [hp] at hi
  | weakDropLast _ hw' _ | weakDropOther _ hw' _ | weakClone _ hw' _
  | weakCloneAbort _ hw' _ => omega
  | downgradeCas _ _ hb he => omega
  | getMut _ _ h1 =>
      rw [hM] at h1
      exact absurd h1 (by decide)
  | getMutSome hp | getMutShared hp => simp [hp] at hwin
  | _ => rfl

/-- Inside the window the counter holds the sentinel, and every other thread
    owns no `Weak`, not the implicit weak, and is outside the window. -/
theorem others_of_window {c : Conf} (h : Inv c) {t : Thread} (ht : t ∈ c.threads)
    (hwin : t.pc.window = 1) :
    c.shared.allocRefCount = MAX ∧
      ∀ u ∈ c.threads.erase t, u.weaks = 0 ∧ u.pc.implicitWeak = 0 ∧ u.pc.window = 0 := by
  have hW : count Pc.window c = 1 + tally (fun u => u.pc.window) (c.threads.erase t) := by
    rw [count_eq, tally_erase _ ht, hwin]
  have hle := h.window_le
  obtain ⟨hM, hw1⟩ := h.alloc_open (by omega)
  have hs := h.strong
  simp only [weakCount] at hw1
  -- the window's thread borrows an `Arc`, so the `Arc`s still own the implicit weak
  have hta : 1 ≤ t.arcs := by
    have hb := (h.borrows t ht).1
    have := Pc.window_add_held_le t.pc
    omega
  have hd : 1 ≤ c.shared.dataRefCount := by
    have := le_tally (f := Thread.arcs) ht
    simp only [liveArcs] at hs
    omega
  have hlw : tally Thread.weaks c.threads = 0 := by simp only [liveWeaks] at hw1; omega
  have him : count Pc.implicitWeak c = 0 := by omega
  refine ⟨hM, fun u hu => ?_⟩
  have hu' := Multiset.mem_of_mem_erase hu
  exact ⟨tally_eq_zero.mp hlw u hu', tally_eq_zero.mp him u hu',
    tally_eq_zero.mp (show tally (fun u => u.pc.window) (c.threads.erase t) = 0 by omega) u hu⟩

/-! ## `get_mut` run with the other threads idle -/

/-- From `idle`, only `get_mut`'s successful `compare_exchange` reaches
    `getMutLoad`. -/
theorem Act.getMutLoad_of_idle {d d₁ : ArcData} {t t₁ : Thread} (h : Act d t d₁ t₁)
    (hi : t.pc = .idle) (h₁ : t₁.pc = .getMutLoad) :
    d.allocRefCount = 1 ∧ d₁ = { d with allocRefCount := MAX } := by
  cases h <;> simp_all

/-- At `getMutLoad` the only step is the load of `data_ref_count`. -/
theorem Act.of_getMutLoad {d d₂ : ArcData} {t t₂ : Thread} (h : Act d t d₂ t₂)
    (hp : t.pc = .getMutLoad) :
    d₂ = d ∧ t₂.pc = .getMutStore (decide (d.dataRefCount = 1)) := by
  cases h <;> simp_all

/-- From `getMutStore b`, the store returns `Some` only if `b` is `true`. -/
theorem Act.isUnique_of_held {d d₃ : ArcData} {t t₃ : Thread} {b : Bool}
    (h : Act d t d₃ t₃) (hp : t.pc = .getMutStore b) (h₃ : t₃.pc = .getMutHeld) :
    b = true := by
  cases h <;> simp_all

/-- Every thread idle: the window is closed and nobody owns the implicit weak,
    so `alloc_ref_count` counts the `Weak`s plus one for the `Arc`s. -/
theorem alloc_of_idle {c : Conf} (h : Inv c) (hidle : ∀ u ∈ c.threads, u.pc = .idle) :
    c.shared.allocRefCount = liveWeaks c + min 1 c.shared.dataRefCount := by
  have hwin : count Pc.window c = 0 := count_eq_zero_of_idle rfl hidle
  have him : count Pc.implicitWeak c = 0 := count_eq_zero_of_idle rfl hidle
  rw [h.alloc_closed hwin, weakCount, him, Nat.add_zero]

/-- Every thread idle, one `Arc` and no `Weak`: both counters are 1. -/
theorem counts_of_unique {c : Conf} (h : Inv c) (hidle : ∀ u ∈ c.threads, u.pc = .idle)
    (h1 : liveArcs c = 1) (h0 : liveWeaks c = 0) :
    c.shared.dataRefCount = 1 ∧ c.shared.allocRefCount = 1 := by
  have hal := alloc_of_idle h hidle
  have hs := h.strong
  have hd : c.shared.dataRefCount = 1 := by omega
  refine ⟨hd, ?_⟩
  rw [hal, h0, hd]
  rfl

/-- The only step of an idle thread that changes nothing is `get_mut`'s
    failed `compare_exchange`, which needs `alloc_ref_count` other than 1. -/
theorem Act.ne_self_of_one {d d' : ArcData} {t t' : Thread} (h : Act d t d' t') (hd : d' = d)
    (ht : t' = t) (hi : t.pc = .idle) (h1 : d.allocRefCount = 1) : False := by
  obtain ⟨a, w, p⟩ := t
  -- every other step from `idle` moves the pc or changes the handles
  cases h <;> simp_all <;> omega

/-- After the load of a `data_ref_count` of 1, the store returns `Some`. -/
theorem Act.held_of_store_true {d d' : ArcData} {t t' : Thread} (h : Act d t d' t')
    (hp : t.pc = .getMutStore true) : t'.pc = .getMutHeld := by
  cases h <;> simp_all

/-- Run by itself, `get_mut` returns `Some` exactly when its `Arc` is the
    only handle. -/
theorem getMut_some_iff {c : Conf} (h : Inv c) {t : Thread} (hi : t.pc = .idle)
    (ha : 0 < t.arcs) (hidle : ∀ u ∈ c.threads, u.pc = .idle) :
    (∃ d₁ t₁ d₂ t₂ d₃ t₃, Act c.shared t d₁ t₁ ∧ t₁.pc = .getMutLoad ∧
      Act d₁ t₁ d₂ t₂ ∧ Act d₂ t₂ d₃ t₃ ∧ t₃.pc = .getMutHeld) ↔
      liveArcs c = 1 ∧ liveWeaks c = 0 := by
  have hal := alloc_of_idle h hidle
  have hs := h.strong
  constructor
  · rintro ⟨d₁, t₁, d₂, t₂, d₃, t₃, h₁, hp₁, h₂, h₃, hp₃⟩
    obtain ⟨ha1, rfl⟩ := h₁.getMutLoad_of_idle hi hp₁
    obtain ⟨rfl, hp₂⟩ := h₂.of_getMutLoad hp₁
    have hu : c.shared.dataRefCount = 1 := of_decide_eq_true (h₃.isUnique_of_held hp₂ hp₃)
    omega
  · rintro ⟨h1, h0⟩
    have hd : c.shared.dataRefCount = 1 := by omega
    have hstore : ({ t with pc := .getMutLoad } : Thread).pc = .getMutLoad := rfl
    refine ⟨_, _, _, _, _, _, Act.getMut hi ha (by omega), rfl, Act.getMutLoad hstore,
      Act.getMutSome ?_, rfl⟩
    simp [hd]

/-- The only `Arc` of `init 0` after a `get_mut` that returned `Some`. -/
def heldConf : Conf := ⟨⟨1, 1, 0, 0, 0, 0, false⟩, {⟨1, 0, .getMutHeld⟩}⟩

theorem reach_heldConf : ReflTransGen Step (init 0) heldConf := by
  have s1 : ReflTransGen Step (init 0) ⟨⟨1, MAX, 0, 0, 0, 0, false⟩, {⟨1, 0, .getMutLoad⟩}⟩ :=
    reach_solo 0 (Act.getMut rfl (by decide) rfl)
  have s2 : ReflTransGen Step ⟨⟨1, MAX, 0, 0, 0, 0, false⟩, {⟨1, 0, .getMutLoad⟩}⟩
      ⟨⟨1, MAX, 0, 0, 0, 0, false⟩, {⟨1, 0, .getMutStore true⟩}⟩ :=
    reach_solo 0 (Act.getMutLoad rfl)
  have s3 : ReflTransGen Step ⟨⟨1, MAX, 0, 0, 0, 0, false⟩, {⟨1, 0, .getMutStore true⟩}⟩
      heldConf :=
    reach_solo 0 (Act.getMutSome rfl)
  exact s1.trans (s2.trans s3)

/-- **`get_mut` IS EXCLUSIVE.** In every configuration reached without an
    overflow guard firing: while a thread holds the `&mut T`, its `Arc` is the
    only handle and every other thread is idle, owns nothing and has no step;
    while `get_mut` has the sentinel parked, the counter holds it and no other
    thread's step changes the counter; and a thread that runs `get_mut` while
    every other thread is idle gets `Some` exactly when its `Arc` is the only
    handle, and then its `compare_exchange` cannot fail and every run of it
    ends holding the `&mut T`. -/
theorem getMut_exclusive (c : Conf) (hr : Reachable c) (hf : c.shared.fired = false) :
    (∀ t ∈ c.threads, t.pc = .getMutHeld →
      liveArcs c = 1 ∧ liveWeaks c = 0 ∧
      ∀ u ∈ c.threads.erase t, u.arcs = 0 ∧ u.weaks = 0 ∧ u.pc = .idle ∧
        ∀ d' u', ¬ Act c.shared u d' u') ∧
    (∀ t ∈ c.threads, (t.pc = .getMutLoad ∨ ∃ b, t.pc = .getMutStore b) →
      c.shared.allocRefCount = MAX ∧
      ∀ u ∈ c.threads.erase t, ∀ d' u', Act c.shared u d' u' →
        d'.allocRefCount = c.shared.allocRefCount) ∧
    (∀ t ∈ c.threads, t.pc = .idle → 0 < t.arcs → (∀ u ∈ c.threads.erase t, u.pc = .idle) →
      ((∃ d₁ t₁ d₂ t₂ d₃ t₃, Act c.shared t d₁ t₁ ∧ t₁.pc = .getMutLoad ∧
        Act d₁ t₁ d₂ t₂ ∧ Act d₂ t₂ d₃ t₃ ∧ t₃.pc = .getMutHeld) ↔
        liveArcs c = 1 ∧ liveWeaks c = 0) ∧
      (liveArcs c = 1 → liveWeaks c = 0 → ¬ Act c.shared t c.shared t ∧
        ∀ d₁ t₁ d₂ t₂ d₃ t₃, Act c.shared t d₁ t₁ → t₁.pc = .getMutLoad →
          Act d₁ t₁ d₂ t₂ → Act d₂ t₂ d₃ t₃ → t₃.pc = .getMutHeld)) := by
  have hinv := inv_reachable hr hf
  refine ⟨?_, ?_, ?_⟩
  · intro t ht hh
    obtain ⟨h1, h0, hrest⟩ := others_of_held hinv ht hh
    refine ⟨h1, h0, fun u hu => ?_⟩
    obtain ⟨hua, huw, hui⟩ := hrest u hu
    exact ⟨hua, huw, hui, fun d' u' hact => hact.false_of_empty hui hua huw⟩
  · intro t ht hwin
    have hw1 : t.pc.window = 1 := by
      rcases hwin with hp | ⟨b, hp⟩ <;> simp [hp]
    obtain ⟨hM, hrest⟩ := others_of_window hinv ht hw1
    refine ⟨hM, fun u hu d' u' hact => ?_⟩
    obtain ⟨huw, hui, huwin⟩ := hrest u hu
    exact hact.alloc_eq_of_sentinel hM huw hui huwin
  · intro t ht hi ha hrest
    have hidle : ∀ u ∈ c.threads, u.pc = .idle := by
      intro u hu
      by_cases hut : u = t
      · exact hut ▸ hi
      · exact hrest u ((Multiset.mem_erase_of_ne hut).mpr hu)
    refine ⟨getMut_some_iff hinv hi ha hidle, fun h1 h0 => ?_⟩
    obtain ⟨hd, hal⟩ := counts_of_unique hinv hidle h1 h0
    -- the `compare_exchange` finds 1, so the `None` branch is not enabled
    refine ⟨fun hs => hs.ne_self_of_one rfl rfl hi hal, ?_⟩
    intro d₁ t₁ d₂ t₂ d₃ t₃ h₁ hp₁ h₂ h₃
    obtain ⟨-, rfl⟩ := h₁.getMutLoad_of_idle hi hp₁
    obtain ⟨rfl, hp₂⟩ := h₂.of_getMutLoad hp₁
    -- the load reads the only `Arc`'s count
    have hp₂' : t₂.pc = .getMutStore true := by
      rw [hp₂]
      simp [hd]
    exact h₃.held_of_store_true hp₂'

theorem getMut_exclusive_heldConf :
    Reachable heldConf ∧ heldConf.shared.fired = false ∧
    ((∀ t ∈ heldConf.threads, t.pc = .getMutHeld →
      liveArcs heldConf = 1 ∧ liveWeaks heldConf = 0 ∧
      ∀ u ∈ heldConf.threads.erase t, u.arcs = 0 ∧ u.weaks = 0 ∧ u.pc = .idle ∧
        ∀ d' u', ¬ Act heldConf.shared u d' u') ∧
    (∀ t ∈ heldConf.threads, (t.pc = .getMutLoad ∨ ∃ b, t.pc = .getMutStore b) →
      heldConf.shared.allocRefCount = MAX ∧
      ∀ u ∈ heldConf.threads.erase t, ∀ d' u', Act heldConf.shared u d' u' →
        d'.allocRefCount = heldConf.shared.allocRefCount) ∧
    (∀ t ∈ heldConf.threads, t.pc = .idle → 0 < t.arcs →
      (∀ u ∈ heldConf.threads.erase t, u.pc = .idle) →
      ((∃ d₁ t₁ d₂ t₂ d₃ t₃, Act heldConf.shared t d₁ t₁ ∧ t₁.pc = .getMutLoad ∧
        Act d₁ t₁ d₂ t₂ ∧ Act d₂ t₂ d₃ t₃ ∧ t₃.pc = .getMutHeld) ↔
        liveArcs heldConf = 1 ∧ liveWeaks heldConf = 0) ∧
      (liveArcs heldConf = 1 → liveWeaks heldConf = 0 → ¬ Act heldConf.shared t heldConf.shared t ∧
        ∀ d₁ t₁ d₂ t₂ d₃ t₃, Act heldConf.shared t d₁ t₁ → t₁.pc = .getMutLoad →
          Act d₁ t₁ d₂ t₂ → Act d₂ t₂ d₃ t₃ → t₃.pc = .getMutHeld))) :=
  ⟨⟨0, reach_heldConf⟩, rfl, getMut_exclusive heldConf ⟨0, reach_heldConf⟩ rfl⟩

/-! ## A wrapped strong count

    `Weak::upgrade` only asserts `n < usize::MAX`, so upgrades whose `Arc`s are
    leaked raise `data_ref_count` to `usize::MAX` without a guard firing.  A
    `clone` then wraps it to 0 and heads for `abort()`; before it gets there
    another thread's `clone` makes the count 1 and its `get_mut` succeeds. -/

/-- One `Weak::upgrade` whose `Arc` is leaked at once. -/
theorem reach_upgrade_forget (rest : Multiset Thread) {d : ArcData} {a w : Nat}
    (hw : 0 < w) (h0 : d.dataRefCount ≠ 0) (hM : d.dataRefCount < MAX) :
    ReflTransGen Step ⟨d, ⟨a, w, .idle⟩ ::ₘ rest⟩
      ⟨{ d with dataRefCount := d.dataRefCount + 1, leakedArcs := d.leakedArcs + 1 },
        ⟨a, w, .idle⟩ ::ₘ rest⟩ := by
  have s1 : ReflTransGen Step ⟨d, ⟨a, w, .idle⟩ ::ₘ rest⟩
      ⟨d, ⟨a, w, .upgradeLoop d.dataRefCount⟩ ::ₘ rest⟩ :=
    reach_solo rest (Act.upgrade rfl hw)
  have s2 : ReflTransGen Step ⟨d, ⟨a, w, .upgradeLoop d.dataRefCount⟩ ::ₘ rest⟩
      ⟨{ d with dataRefCount := d.dataRefCount + 1 }, ⟨a + 1, w, .idle⟩ ::ₘ rest⟩ :=
    reach_solo rest (Act.upgradeCas rfl h0 hM rfl)
  have s3 : ReflTransGen Step
      ⟨{ d with dataRefCount := d.dataRefCount + 1 }, ⟨a + 1, w, .idle⟩ ::ₘ rest⟩
      ⟨{ d with dataRefCount := d.dataRefCount + 1, leakedArcs := d.leakedArcs + 1 },
        ⟨a, w, .idle⟩ ::ₘ rest⟩ :=
    reach_solo rest (Act.forgetArc rfl (Nat.succ_pos a))
  exact s1.trans (s2.trans s3)

/-- `i` upgrade-and-leak rounds raise the strong count by `i`. -/
theorem reach_pump (rest : Multiset Thread) {a w : Nat} (hw : 0 < w) (d : ArcData)
    (h0 : d.dataRefCount ≠ 0) (i : Nat) (hi : d.dataRefCount + i ≤ MAX) :
    ReflTransGen Step ⟨d, ⟨a, w, .idle⟩ ::ₘ rest⟩
      ⟨{ d with dataRefCount := d.dataRefCount + i, leakedArcs := d.leakedArcs + i },
        ⟨a, w, .idle⟩ ::ₘ rest⟩ := by
  induction i with
  | zero => exact .refl
  | succ i ih =>
      -- the rounds so far, then one more from the count they reached
      have hround : ReflTransGen Step
          ⟨{ d with dataRefCount := d.dataRefCount + i, leakedArcs := d.leakedArcs + i },
            ⟨a, w, .idle⟩ ::ₘ rest⟩
          ⟨{ d with
              dataRefCount := d.dataRefCount + (i + 1)
              leakedArcs := d.leakedArcs + (i + 1) }, ⟨a, w, .idle⟩ ::ₘ rest⟩ :=
        reach_upgrade_forget rest hw (show d.dataRefCount + i ≠ 0 by omega)
          (show d.dataRefCount + i < MAX by omega)
      exact (ih (by omega)).trans hround

/-- Two threads, each with one `Arc`; the first holds a `Weak` as well and
    the strong count is 2. -/
theorem reach_twoArcs : ReflTransGen Step (init 1)
    ⟨⟨2, 2, 0, 0, 0, 0, false⟩, ⟨1, 1, .idle⟩ ::ₘ {⟨1, 0, .idle⟩}⟩ := by
  have s1 : ReflTransGen Step (init 1)
      ⟨⟨2, 1, 0, 0, 0, 0, false⟩, ⟨2, 0, .idle⟩ ::ₘ {Thread.empty}⟩ :=
    reach_solo {Thread.empty} (Act.clone rfl (by decide) (by decide))
  have s2 : ReflTransGen Step ⟨⟨2, 1, 0, 0, 0, 0, false⟩, ⟨2, 0, .idle⟩ ::ₘ {Thread.empty}⟩
      ⟨⟨2, 1, 0, 0, 0, 0, false⟩, ⟨1, 0, .idle⟩ ::ₘ {⟨1, 0, .idle⟩}⟩ :=
    reach_duo 0 (Pass.arc rfl (by decide))
  have s3 : ReflTransGen Step ⟨⟨2, 1, 0, 0, 0, 0, false⟩, ⟨1, 0, .idle⟩ ::ₘ {⟨1, 0, .idle⟩}⟩
      ⟨⟨2, 1, 0, 0, 0, 0, false⟩, ⟨1, 0, .downgradeLoop 1⟩ ::ₘ {⟨1, 0, .idle⟩}⟩ :=
    reach_solo {⟨1, 0, .idle⟩} (Act.downgrade rfl (by decide))
  have s4 : ReflTransGen Step
      ⟨⟨2, 1, 0, 0, 0, 0, false⟩, ⟨1, 0, .downgradeLoop 1⟩ ::ₘ {⟨1, 0, .idle⟩}⟩
      ⟨⟨2, 2, 0, 0, 0, 0, false⟩, ⟨1, 1, .idle⟩ ::ₘ {⟨1, 0, .idle⟩}⟩ :=
    reach_solo {⟨1, 0, .idle⟩} (Act.downgradeCas rfl (by decide) (by decide) rfl)
  exact s1.trans (s2.trans (s3.trans s4))

/-- The first thread pumps the strong count to `usize::MAX` and drops its
    `Weak`; no guard has fired. -/
theorem reach_pumped : ReflTransGen Step (init 1)
    ⟨⟨MAX, 1, 0, 0, MAX - 2, 0, false⟩, ⟨1, 0, .idle⟩ ::ₘ {⟨1, 0, .idle⟩}⟩ := by
  have s1 : ReflTransGen Step ⟨⟨2, 2, 0, 0, 0, 0, false⟩, ⟨1, 1, .idle⟩ ::ₘ {⟨1, 0, .idle⟩}⟩
      ⟨⟨MAX, 2, 0, 0, MAX - 2, 0, false⟩, ⟨1, 1, .idle⟩ ::ₘ {⟨1, 0, .idle⟩}⟩ :=
    reach_pump {⟨1, 0, .idle⟩} (by decide) ⟨2, 2, 0, 0, 0, 0, false⟩ (by decide) (MAX - 2)
      (by decide)
  have s2 : ReflTransGen Step
      ⟨⟨MAX, 2, 0, 0, MAX - 2, 0, false⟩, ⟨1, 1, .idle⟩ ::ₘ {⟨1, 0, .idle⟩}⟩
      ⟨⟨MAX, 1, 0, 0, MAX - 2, 0, false⟩, ⟨1, 0, .idle⟩ ::ₘ {⟨1, 0, .idle⟩}⟩ :=
    reach_solo {⟨1, 0, .idle⟩} (Act.weakDropOther rfl (by decide) (by decide))
  exact reach_twoArcs.trans (s1.trans s2)

/-- From there a `clone` wraps the count to 0 and its guard fires. -/
theorem step_wrap : Step ⟨⟨MAX, 1, 0, 0, MAX - 2, 0, false⟩, ⟨1, 0, .idle⟩ ::ₘ {⟨1, 0, .idle⟩}⟩
    ⟨⟨0, 1, 0, 0, MAX - 2, 0, true⟩, ⟨1, 0, .aborting⟩ ::ₘ {⟨1, 0, .idle⟩}⟩ :=
  Interleaving.Step.solo {⟨1, 0, .idle⟩} (Act.cloneAbort rfl (by decide) (by decide))

theorem reach_wrapped : ReflTransGen Step (init 1)
    ⟨⟨0, 1, 0, 0, MAX - 2, 0, true⟩, ⟨1, 0, .aborting⟩ ::ₘ {⟨1, 0, .idle⟩}⟩ :=
  reach_pumped.tail step_wrap

/-- The second thread, before the first reaches `abort()`: its `Arc` and the
    `&mut T` that `get_mut` returned, among `usize::MAX + 1` live `Arc`s. -/
def wrappedHeld : Conf :=
  ⟨⟨1, 1, 0, 0, MAX - 2, 0, true⟩, ⟨2, 0, .getMutHeld⟩ ::ₘ {⟨1, 0, .aborting⟩}⟩

theorem reach_wrappedHeld : ReflTransGen Step (init 1) wrappedHeld := by
  -- the second thread steps next: bring it to the front
  have hswap : (⟨1, 0, .aborting⟩ ::ₘ {⟨1, 0, .idle⟩} : Multiset Thread) =
      ⟨1, 0, .idle⟩ ::ₘ {⟨1, 0, .aborting⟩} :=
    Multiset.cons_swap _ _ 0
  have s1 : ReflTransGen Step
      ⟨⟨0, 1, 0, 0, MAX - 2, 0, true⟩, ⟨1, 0, .idle⟩ ::ₘ {⟨1, 0, .aborting⟩}⟩
      ⟨⟨1, 1, 0, 0, MAX - 2, 0, true⟩, ⟨2, 0, .idle⟩ ::ₘ {⟨1, 0, .aborting⟩}⟩ :=
    reach_solo {⟨1, 0, .aborting⟩} (Act.clone rfl (by decide) (by decide))
  have s2 : ReflTransGen Step
      ⟨⟨1, 1, 0, 0, MAX - 2, 0, true⟩, ⟨2, 0, .idle⟩ ::ₘ {⟨1, 0, .aborting⟩}⟩
      ⟨⟨1, MAX, 0, 0, MAX - 2, 0, true⟩, ⟨2, 0, .getMutLoad⟩ ::ₘ {⟨1, 0, .aborting⟩}⟩ :=
    reach_solo {⟨1, 0, .aborting⟩} (Act.getMut rfl (by decide) rfl)
  have s3 : ReflTransGen Step
      ⟨⟨1, MAX, 0, 0, MAX - 2, 0, true⟩, ⟨2, 0, .getMutLoad⟩ ::ₘ {⟨1, 0, .aborting⟩}⟩
      ⟨⟨1, MAX, 0, 0, MAX - 2, 0, true⟩, ⟨2, 0, .getMutStore true⟩ ::ₘ {⟨1, 0, .aborting⟩}⟩ :=
    reach_solo {⟨1, 0, .aborting⟩} (Act.getMutLoad rfl)
  have s4 : ReflTransGen Step
      ⟨⟨1, MAX, 0, 0, MAX - 2, 0, true⟩, ⟨2, 0, .getMutStore true⟩ ::ₘ {⟨1, 0, .aborting⟩}⟩
      wrappedHeld :=
    reach_solo {⟨1, 0, .aborting⟩} (Act.getMutSome rfl)
  have hw := reach_wrapped
  rw [hswap] at hw
  exact hw.trans (s1.trans (s2.trans (s3.trans s4)))

theorem getMut_some_among_many :
    ¬ ∀ c : Conf, Reachable c → ∀ t ∈ c.threads, t.pc = .getMutHeld →
      liveArcs c = 1 ∧ liveWeaks c = 0 := by
  intro h
  have hmem : (⟨2, 0, .getMutHeld⟩ : Thread) ∈ wrappedHeld.threads := by simp [wrappedHeld]
  have h1 := (h wrappedHeld ⟨1, reach_wrappedHeld⟩ _ hmem rfl).1
  have hl : liveArcs wrappedHeld = MAX + 1 := by
    simp [liveArcs, wrappedHeld]
    decide
  rw [hl] at h1
  exact absurd h1 (by decide)

end Optimization
