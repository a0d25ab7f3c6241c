import AtomicsAndLocks.Mutex.Model

/-! # The futex mutexes — the invariant

    One invariant serves the three `Mutex`es; `w` is the value that says
    "locked, and there may be sleepers": 1 in `09-01`, 2 in the others.

    * The state is at most `w`, at most one thread holds the guard, and the
      state is 0 exactly when none does.
    * The futex's count of sleepers is the number of threads asleep.
    * A sleeper is not stranded: the state is `w`, or a `drop` is about to
      call `wake_one`, or a thread is about to `swap` in the contended loop.
    * A critical section between its read and its write saw the current
      value, and the value is `f` applied once per finished critical section.

    `Counts` is the counting part around the thread that steps, with the
    other threads' tallies as plain numbers; each kind of step keeps it by
    `omega` once the stepping thread's indicators are known. -/

namespace Mutex

open Interleaving

variable {α : Type} {w : Nat} {f : α → α} {v : α}

/-- The invariant of a `Mutex` whose "locked, maybe sleepers" state is `w`,
    whose critical section applies `f`, started from the value `v`. -/
structure Inv (w : Nat) (f : α → α) (v : α) (c : Conf α) : Prop where
  state_le : c.shared.state ≤ w
  /-- At most one thread holds the guard. -/
  holding_le : tally Pc.holding c.threads ≤ 1
  /-- The state is 0 exactly when nobody holds the guard. -/
  state_eq_zero : c.shared.state = 0 ↔ tally Pc.holding c.threads = 0
  waiters_eq : c.shared.waiters = tally Pc.sleeping c.threads
  /-- Somebody will wake a sleeper. -/
  sleepers : 0 < tally Pc.sleeping c.threads →
    c.shared.state = w ∨ 0 < tally Pc.waking c.threads ∨ 0 < tally Pc.swapping c.threads
  /-- A critical section about to write saw the current value. -/
  fresh : ∀ r, Pc.write r ∈ c.threads → r = c.shared.value
  value_eq : c.shared.value = f^[c.shared.done] v

theorem inv_init (w : Nat) (f : α → α) (v : α) (n : Nat) : Inv w f v (init v n) where
  state_le := Nat.zero_le w
  holding_le := by simp [init]
  state_eq_zero := by simp [init]
  waiters_eq := by simp [init]
  sleepers := by simp [init]
  fresh := by
    intro r hr
    simp only [init, Multiset.mem_replicate] at hr
    cases hr.2
  value_eq := rfl

/-! ## The counting part around one thread -/

/-- `Inv`'s counting fields at a configuration `t ::ₘ rest`, with the state
    `s`, the futex count `waiters`, and `rest`'s tallies `H S K W`. -/
def Counts (w s waiters : Nat) (t : Pc α) (H S K W : Nat) : Prop :=
  s ≤ w ∧ t.holding + H ≤ 1 ∧ (s = 0 ↔ t.holding + H = 0) ∧ waiters = t.sleeping + S ∧
    (0 < t.sleeping + S → s = w ∨ 0 < t.waking + K ∨ 0 < t.swapping + W)

/-- `Counts` with `rest`'s own tallies. -/
abbrev RestCounts (w : Nat) (d : Futex α) (t : Pc α) (rest : Multiset (Pc α)) : Prop :=
  Counts w d.state d.waiters t (tally Pc.holding rest) (tally Pc.sleeping rest)
    (tally Pc.waking rest) (tally Pc.swapping rest)

theorem restCounts_of_inv {d : Futex α} {t : Pc α} {rest : Multiset (Pc α)}
    (h : Inv w f v ⟨d, t ::ₘ rest⟩) : RestCounts w d t rest := by
  have h1 := h.state_le
  have h2 := h.holding_le
  have h3 := h.state_eq_zero
  have h4 := h.waiters_eq
  have h5 := h.sleepers
  simp only [tally_cons] at h2 h3 h4 h5
  exact ⟨h1, h2, h3, h4, h5⟩

/-- A step that keeps the counts, leaves the value alone and starts no
    write keeps `Inv`. -/
theorem Inv.of_quiet {d d' : Futex α} {t t' : Pc α} {rest : Multiset (Pc α)}
    (h : Inv w f v ⟨d, t ::ₘ rest⟩) (hc : RestCounts w d' t' rest)
    (hv : d'.value = d.value) (hd : d'.done = d.done) (ht' : ∀ r, t' ≠ .write r) :
    Inv w f v ⟨d', t' ::ₘ rest⟩ := by
  obtain ⟨h1, h2, h3, h4, h5⟩ := hc
  refine ⟨h1, by simpa using h2, by simpa using h3, by simpa using h4, by simpa using h5,
    ?_, ?_⟩
  · intro r hr
    rcases Multiset.mem_cons.mp hr with he | hr
    · exact absurd he.symm (ht' r)
    · rw [hv]
      exact h.fresh r (Multiset.mem_cons_of_mem hr)
  · rw [hv, hd]
    exact h.value_eq

/-! ## The shared moves -/

/-- `read`: the thread starts its write with the current value. -/
theorem inv_read {d : Futex α} {rest : Multiset (Pc α)}
    (h : Inv w f v ⟨d, .read ::ₘ rest⟩) : Inv w f v ⟨d, .write d.value ::ₘ rest⟩ := by
  obtain ⟨h1, h2, h3, h4, h5⟩ := restCounts_of_inv h
  refine ⟨h1, by simpa using h2, by simpa using h3, by simpa using h4, by simpa using h5,
    ?_, h.value_eq⟩
  intro r hr
  rcases Multiset.mem_cons.mp hr with he | hr
  · exact Pc.write.inj he
  · exact h.fresh r (Multiset.mem_cons_of_mem hr)

/-- `write`: the only holder writes `f` of the value it read, which is still
    the current one. -/
theorem inv_write {d : Futex α} {r : α} {rest : Multiset (Pc α)}
    (h : Inv w f v ⟨d, .write r ::ₘ rest⟩) :
    Inv w f v ⟨{ d with value := f r, done := d.done + 1 }, .unlock ::ₘ rest⟩ := by
  obtain ⟨h1, h2, h3, h4, h5⟩ := restCounts_of_inv h
  have hr : r = d.value := h.fresh r (Multiset.mem_cons_self _ _)
  -- the writer holds the guard, so nobody else is between a read and a write
  have hH : tally Pc.holding rest = 0 := by simp at h2; omega
  refine ⟨h1, by simpa using h2, by simpa using h3, by simpa using h4, by simpa using h5,
    ?_, ?_⟩
  · intro r' hr'
    rcases Multiset.mem_cons.mp hr' with he | hr'
    · cases he
    · have := le_tally (f := Pc.holding) hr'
      simp at this
      omega
  · show f r = f^[d.done + 1] v
    rw [Function.iterate_succ_apply', ← h.value_eq, hr]

theorem inv_common {d d' : Futex α} {t t' : Pc α} {rest : Multiset (Pc α)}
    (hs : Common f d t d' t') (h : Inv w f v ⟨d, t ::ₘ rest⟩) :
    Inv w f v ⟨d', t' ::ₘ rest⟩ := by
  have hc := restCounts_of_inv h
  cases hs with
  | read => exact inv_read h
  | write => exact inv_write h
  | spurious =>
      refine h.of_quiet ?_ rfl rfl (fun _ => nofun)
      simp only [RestCounts, Counts] at hc ⊢
      simp at hc ⊢
      omega
  | wakeNone h0 =>
      refine h.of_quiet ?_ rfl rfl (fun _ => nofun)
      simp only [RestCounts, Counts] at hc ⊢
      simp at hc ⊢
      omega

/-- `wake_one` with a sleeper: the sleeper goes back to its `swap`. -/
theorem inv_wake {d d' : Futex α} {t u t' u' : Pc α} {rest : Multiset (Pc α)}
    (hs : Wake d t u d' t' u') (h : Inv w f v ⟨d, t ::ₘ u ::ₘ rest⟩) :
    Inv w f v ⟨d', t' ::ₘ u' ::ₘ rest⟩ := by
  cases hs with
  | wakeOne h0 =>
      have h1 := h.state_le
      have h2 := h.holding_le
      have h3 := h.state_eq_zero
      have h4 := h.waiters_eq
      simp at h2 h3 h4
      refine ⟨h1, by simpa using h2, by simpa using h3, by simp; omega, ?_, ?_, h.value_eq⟩
      · intro _
        right; right
        simp
      · intro r hr
        simp only [Multiset.mem_cons, reduceCtorEq, false_or] at hr
        exact h.fresh r (by simp [hr])

/-! ## The `Mutex`es' own moves -/

/-- What the moves of a `Mutex` must do for `Inv` to hold: keep the counts,
    leave the value alone, and start no write. -/
def Keeps (w : Nat) (lock : Futex α → Pc α → Futex α → Pc α → Prop) : Prop :=
  ∀ {d d' : Futex α} {t t' : Pc α}, lock d t d' t' → ∀ {H S K W : Nat},
    Counts w d.state d.waiters t H S K W →
    Counts w d'.state d'.waiters t' H S K W ∧ d'.value = d.value ∧ d'.done = d.done ∧
      ∀ r, t' ≠ .write r

theorem inv_step {lock : Futex α → Pc α → Futex α → Pc α → Prop} (hk : Keeps w lock)
    {c c' : Conf α} (h : Inv w f v c) (hs : Step lock f c c') : Inv w f v c' := by
  cases hs with
  | solo rest ha =>
      rcases ha with hl | hc
      · obtain ⟨hc', hv, hd, ht'⟩ := hk hl (restCounts_of_inv h)
        exact h.of_quiet hc' hv hd ht'
      · exact inv_common hc h
  | duo rest hw => exact inv_wake hw h

/-- **THE INVARIANT HOLDS** in every reachable configuration of a `Mutex`
    whose moves keep it. -/
theorem inv_reachable {lock : Futex α → Pc α → Futex α → Pc α → Prop} (hk : Keeps w lock)
    {c : Conf α} (hr : Reachable lock f v c) : Inv w f v c := by
  obtain ⟨n, hr⟩ := hr
  exact invariant_of_reach (R := Step lock f) (P := Inv w f v)
    (fun _ _ ha hab => inv_step hk ha hab) hr (inv_init w f v n)

/-- `09-01_mutex.rs`: every `swap(1)` leaves 1, so a sleeper always has the
    state 1 or a `wake_one` or `swap` coming. -/
theorem keeps_twoStateLock : Keeps 1 (TwoStateLock (α := α)) := by
  intro d d' t t' hs H S K W hc
  simp only [Counts] at hc ⊢
  cases hs with
  | swapLocked ht h1 =>
      rcases ht with rfl | rfl <;> simp at hc ⊢ <;> omega
  | swapAcquire ht h1 =>
      rcases ht with rfl | rfl <;> simp at hc ⊢ <;> omega
  | waitSleep h1 =>
      simp at hc ⊢
      omega
  | waitReturn h1 =>
      simp at hc ⊢
      omega
  | unlock =>
      simp at hc ⊢
      omega

/-- The three-state `Mutex`es, whichever loop a failed first try enters, as
    long as that loop head holds no guard and does not sleep. -/
theorem keeps_threeStateLock {contended : Pc α} (hh : contended.holding = 0)
    (hsl : contended.sleeping = 0) : Keeps 2 (ThreeStateLock contended) := by
  intro d d' t t' hs H S K W hc
  simp only [Counts] at hc ⊢
  cases hs with
  | lockFail h0 =>
      refine ⟨?_, rfl, rfl, ?_⟩
      · simp only [hh, hsl] at hc ⊢
        simp at hc ⊢
        omega
      · intro r he
        simp [he] at hh
  | lock h0 | casAcquire h0 | swapAcquire h0 | swapLocked h0 | casFail h0 =>
      simp at hc ⊢
      omega
  | spinAgain h1 hk | spinDone h1 | waitSleep h1 | waitReturn h1 | unlockWake h1
  | unlockQuiet h1 =>
      simp at hc ⊢
      omega

theorem keeps_avoidingSystemCall : Keeps 2 (avoidingSystemCall (α := α)) :=
  keeps_threeStateLock rfl rfl

theorem keeps_furtherImprovements : Keeps 2 (furtherImprovements (α := α)) :=
  keeps_threeStateLock rfl rfl

end Mutex
