import AtomicsAndLocks.Interleaving
import AtomicsAndLocks.Usize

/-! # The single-counter `Arc` (06-01_basic-reference-counter.rs, 06-01-02_updating.rs)

    One `ref_count` counts the `Arc`s.  `Arc::clone` is a `fetch_add(1)`
    whose old value, above `usize::MAX / 2`, sends the thread to `abort()`;
    `Arc::drop` is a `fetch_sub(1)`, and the thread whose `fetch_sub`
    returned 1 frees the `ArcData`.  `06-01-02` adds `Arc::get_mut`, a
    `load` that returns `Some(&mut T)` when it reads 1.

    The model is built as the ones of `06-02` and `06-03` are: any number of
    anonymous threads owning `Arc`s, one step per atomic access, the local
    check after an access taken with it, a handle passed from one thread to
    another as a hand-off, and an `abort` that leaves its thread stopped
    while the others move on.  The ghost fields count the frees and the
    handles leaked with `mem::forget`.

    `Inv` is the counting invariant, which needs fewer than `usize::MAX / 2`
    threads: with more, enough clones land on the counter before their
    `abort` checks to wrap it (`count_wraps`). -/

namespace ReferenceCounter

open Interleaving Usize Relation

/-- `ArcData<T>` without `T`, and a ghost record of its history. -/
structure ArcData where
  refCount : Nat
  /-- How many times `drop(Box::from_raw(..))` freed the `ArcData`. -/
  frees : Nat
  leaked : Nat
  deriving DecidableEq, Repr

/-- Where a thread stands in the operation it is running.  Operations not
    listed run in a single step from `idle`. -/
inductive Pc
  | idle
  /-- `Arc::clone`'s `fetch_add` returned more than `usize::MAX / 2`;
      `abort()` is next -/
  | abort
  /-- `Arc::drop`'s `fetch_sub` returned 1; `drop(Box::from_raw(..))` is next -/
  | free
  /-- `Arc::get_mut` returned `Some`: the thread holds the `&mut T` -/
  | getMutHeld
  deriving DecidableEq, Repr

/-- A thread: the `Arc`s it owns and where it stands. -/
structure Thread where
  arcs : Nat
  pc : Pc
  deriving DecidableEq, Repr

/-- One atomic step of `Arc::clone`, `Arc::drop` or `mem::forget`. -/
inductive Act : ArcData → Thread → ArcData → Thread → Prop
  /-- `fetch_add(1)` returned at most `usize::MAX / 2`. -/
  | clone {d : ArcData} {t : Thread} (hi : t.pc = .idle) (ha : 0 < t.arcs)
      (hn : d.refCount ≤ MAX / 2) :
      Act d t { d with refCount := wrappingAdd d.refCount } { t with arcs := t.arcs + 1 }
  /-- `fetch_add(1)` returned more: `abort()` is next. -/
  | cloneAbort {d : ArcData} {t : Thread} (hi : t.pc = .idle) (ha : 0 < t.arcs)
      (hn : MAX / 2 < d.refCount) :
      Act d t { d with refCount := wrappingAdd d.refCount } { t with pc := .abort }
  /-- `fetch_sub(1)` returned 1. -/
  | dropLast {d : ArcData} {t : Thread} (hi : t.pc = .idle) (ha : 0 < t.arcs)
      (h1 : d.refCount = 1) :
      Act d t { d with refCount := wrappingSub d.refCount } { t with arcs := t.arcs - 1, pc := .free }
  /-- `fetch_sub(1)` returned another value. -/
  | dropOther {d : ArcData} {t : Thread} (hi : t.pc = .idle) (ha : 0 < t.arcs)
      (h1 : d.refCount ≠ 1) :
      Act d t { d with refCount := wrappingSub d.refCount } { t with arcs := t.arcs - 1 }
  /-- `fence(Acquire)` and `drop(Box::from_raw(self.ptr.as_ptr()))`. -/
  | free {d : ArcData} {t : Thread} (h : t.pc = .free) :
      Act d t { d with frees := d.frees + 1 } { t with pc := .idle }
  /-- `mem::forget` of an `Arc`. -/
  | forget {d : ArcData} {t : Thread} (hi : t.pc = .idle) (ha : 0 < t.arcs) :
      Act d t { d with leaked := d.leaked + 1 } { t with arcs := t.arcs - 1 }

/-- `Arc::get_mut` of `06-01-02`. -/
inductive GetMut : ArcData → Thread → ArcData → Thread → Prop
  /-- The `load` returned 1: return `Some`. -/
  | some {d : ArcData} {t : Thread} (hi : t.pc = .idle) (ha : 0 < t.arcs)
      (h1 : d.refCount = 1) :
      GetMut d t d { t with pc := .getMutHeld }
  /-- The `load` returned another value: return `None`. -/
  | none {d : ArcData} {t : Thread} (hi : t.pc = .idle) (ha : 0 < t.arcs)
      (h1 : d.refCount ≠ 1) :
      GetMut d t d t
  /-- The caller stops using the `&mut T`. -/
  | release {d : ArcData} {t : Thread} (h : t.pc = .getMutHeld) :
      GetMut d t d { t with pc := .idle }

/-- The steps of `06-01-02`: those of `06-01` and `get_mut`'s. -/
def Updating (d : ArcData) (t : Thread) (d' : ArcData) (t' : Thread) : Prop :=
  Act d t d' t' ∨ GetMut d t d' t'

/-- A thread between operations moves one of its `Arc`s to another thread. -/
inductive Pass : ArcData → Thread → Thread → ArcData → Thread → Thread → Prop
  | arc {d : ArcData} {t u : Thread} (hi : t.pc = .idle) (ha : 0 < t.arcs) :
      Pass d t u d { t with arcs := t.arcs - 1 } { u with arcs := u.arcs + 1 }

abbrev Conf := Interleaving.Conf ArcData Thread

/-- Right after `Arc::new`: one thread owns the only `Arc`, `n` others own nothing. -/
def init (n : Nat) : Conf :=
  ⟨⟨1, 0, 0⟩, ⟨1, .idle⟩ ::ₘ Multiset.replicate n ⟨0, .idle⟩⟩

/-- The configurations of `06-01-02` some run of some number of threads reaches. -/
def Reachable (c : Conf) : Prop :=
  ∃ n, ReflTransGen (Interleaving.Step Updating Pass) (init n) c

/-- The configurations of `06-01`, which has no `get_mut`. -/
def BasicReachable (c : Conf) : Prop :=
  ∃ n, ReflTransGen (Interleaving.Step Act Pass) (init n) c

/-- A run of `06-01` is a run of `06-01-02` that never calls `get_mut`. -/
theorem BasicReachable.updating {c : Conf} (h : BasicReachable c) : Reachable c := by
  obtain ⟨n, hr⟩ := h
  refine ⟨n, ?_⟩
  induction hr with
  | refl => exact .refl
  | tail _ hs ih =>
      refine ih.tail ?_
      cases hs with
      | solo rest ha => exact .solo rest (Or.inl ha)
      | duo rest hp => exact .duo rest hp

/-- `Arc`s that exist and were never dropped: owned by a thread, or leaked.
    A drop whose `fetch_sub` has run no longer owns its `Arc`. -/
def liveHandles (c : Conf) : Nat := tally Thread.arcs c.threads + c.shared.leaked

/-! ## Counting the threads -/

/-- Indicator of a clone whose `fetch_add` landed, stopped at `abort()`. -/
def Pc.aborting : Pc → Nat
  | .abort => 1
  | _ => 0

/-- Indicator of a drop about to free the `ArcData`. -/
def Pc.freeing : Pc → Nat
  | .free => 1
  | _ => 0

/-- Indicator of a thread holding `get_mut`'s `&mut T`. -/
def Pc.holding : Pc → Nat
  | .getMutHeld => 1
  | _ => 0

/-- The `Arc`s of a thread holding `get_mut`'s `&mut T`. -/
def Thread.heldArcs (t : Thread) : Nat :=
  match t.pc with
  | .getMutHeld => t.arcs
  | _ => 0

/-- How many threads stand where `f` counts. -/
def count (f : Pc → Nat) (c : Conf) : Nat := tally (fun t => f t.pc) c.threads

theorem Thread.heldArcs_le (t : Thread) : t.heldArcs ≤ t.arcs := by
  unfold Thread.heldArcs
  split <;> omega

theorem Thread.heldArcs_eq_zero {t : Thread} (h : t.pc.holding = 0) : t.heldArcs = 0 := by
  unfold Thread.heldArcs
  cases hp : t.pc with
  | getMutHeld =>
      rw [hp] at h
      cases h
  | idle | abort | free => rfl

theorem Pc.aborting_le (p : Pc) : p.aborting ≤ 1 := by
  cases p <;> decide

/-- The invariant. -/
structure Inv (c : Conf) : Prop where
  /-- `ref_count` is the live `Arc`s and the clones stopped at `abort()`. -/
  refCount_eq : c.shared.refCount = liveHandles c + count Pc.aborting c
  /-- Past `usize::MAX / 2 + 1` only by clones stopped at `abort()`. -/
  below : c.shared.refCount ≤ MAX / 2 + 1 + count Pc.aborting c
  frees : c.shared.frees + count Pc.freeing c ≤ 1
  /-- Once a drop saw 1, the counter stays at 0. -/
  dead : 0 < c.shared.frees + count Pc.freeing c → c.shared.refCount = 0
  /-- The holder of `get_mut`'s `&mut T` owns the only `Arc`. -/
  held : 0 < count Pc.holding c →
    c.shared.refCount = 1 ∧ tally Thread.heldArcs c.threads = 1
  holders : count Pc.holding c ≤ tally Thread.heldArcs c.threads

theorem inv_init (n : Nat) : Inv (init n) where
  refCount_eq := by simp [init, liveHandles, count, Pc.aborting]
  below := by
    simp only [init, count, tally_cons, tally_replicate, Pc.aborting]
    omega
  frees := by simp [init, count, Pc.freeing]
  dead := by simp [init, count, Pc.freeing]
  held := by simp [init, count, Pc.holding]
  holders := by simp [init, count, Pc.holding, Thread.heldArcs]

/-! ## One step keeps the invariant

    `Counts` is `Inv` around the thread `t` that steps, the other threads'
    tallies as plain numbers: `A` `Arc`s, `Ab` clones stopped at `abort()`,
    `F` drops about to free, `H` holders of `&mut T` owning `Ha` `Arc`s. -/

def Counts (d : ArcData) (t : Thread) (A Ab F H Ha : Nat) : Prop :=
  d.refCount = t.arcs + A + d.leaked + (t.pc.aborting + Ab) ∧
  d.refCount ≤ MAX / 2 + 1 + (t.pc.aborting + Ab) ∧
  d.frees + (t.pc.freeing + F) ≤ 1 ∧
  (0 < d.frees + (t.pc.freeing + F) → d.refCount = 0) ∧
  (0 < t.pc.holding + H → d.refCount = 1 ∧ t.heldArcs + Ha = 1) ∧
  t.pc.holding + H ≤ t.heldArcs + Ha

/-- `Counts` at the tallies of the threads that are not stepping. -/
abbrev RestCounts (d : ArcData) (t : Thread) (rest : Multiset Thread) : Prop :=
  Counts d t (tally Thread.arcs rest) (tally (fun u => u.pc.aborting) rest)
    (tally (fun u => u.pc.freeing) rest) (tally (fun u => u.pc.holding) rest)
    (tally Thread.heldArcs rest)

theorem inv_iff_counts {d : ArcData} {t : Thread} {rest : Multiset Thread} :
    Inv ⟨d, t ::ₘ rest⟩ ↔ RestCounts d t rest := by
  simp only [RestCounts, Counts]
  constructor
  · rintro ⟨h1, h2, h3, h4, h5, h6⟩
    simp only [liveHandles, count, tally_cons] at h1 h2 h3 h4 h5 h6
    refine ⟨by omega, by omega, by omega, fun h => h4 (by omega), fun h => ?_, by omega⟩
    have := h5 (by omega)
    omega
  · rintro ⟨h1, h2, h3, h4, h5, h6⟩
    refine ⟨?_, ?_, ?_, fun h => ?_, fun h => ?_, ?_⟩
    · simp only [liveHandles, count, tally_cons]
      omega
    · simp only [count, tally_cons]
      omega
    · simp only [count, tally_cons]
      omega
    · simp only [count, tally_cons] at h
      exact h4 (by omega)
    · simp only [count, tally_cons] at h ⊢
      have := h5 (by omega)
      omega
    · simp only [count, tally_cons]
      omega

section Steps

variable {d d' : ArcData} {t t' : Thread} {A Ab F H Ha : Nat}

/-- **ONE STEP KEEPS THE COUNTS**, for fewer than `usize::MAX / 2` other
    clones at `abort()`: no `fetch_add` or `fetch_sub` wraps. -/
theorem Counts.step (h : Updating d t d' t') (hc : Counts d t A Ab F H Ha) (hHa : Ha ≤ A)
    (hAb : Ab < MAX / 2) : Counts d' t' A Ab F H Ha := by
  have hm := two_mul_half
  unfold Counts at hc ⊢
  rcases h with h | h
  · cases h with
    | clone hi ha hn =>
        simp only [hi, Pc.aborting, Pc.freeing, Pc.holding, Thread.heldArcs] at hc ⊢
        rw [wrappingAdd_of_lt _ (by omega)]
        omega
    | cloneAbort hi ha hn =>
        simp only [hi, Pc.aborting, Pc.freeing, Pc.holding, Thread.heldArcs] at hc ⊢
        -- the old value is below `usize::MAX`: at most `Ab` clones sit past the guard
        rw [wrappingAdd_of_lt _ (by omega)]
        omega
    | dropLast hi ha h1 =>
        simp only [hi, Pc.aborting, Pc.freeing, Pc.holding, Thread.heldArcs] at hc ⊢
        rw [h1, wrappingSub_of_pos 1 Nat.one_pos (by omega)]
        omega
    | dropOther hi ha h1 =>
        simp only [hi, Pc.aborting, Pc.freeing, Pc.holding, Thread.heldArcs] at hc ⊢
        rw [wrappingSub_of_pos _ (by omega) (by omega)]
        omega
    | free h =>
        simp only [h, Pc.aborting, Pc.freeing, Pc.holding, Thread.heldArcs] at hc ⊢
        omega
    | forget hi ha =>
        simp only [hi, Pc.aborting, Pc.freeing, Pc.holding, Thread.heldArcs] at hc ⊢
        omega
  · cases h with
    | some hi ha h1 =>
        simp only [hi, Pc.aborting, Pc.freeing, Pc.holding, Thread.heldArcs] at hc ⊢
        omega
    | none hi ha h1 => exact hc
    | release h =>
        simp only [h, Pc.aborting, Pc.freeing, Pc.holding, Thread.heldArcs] at hc ⊢
        omega

end Steps

/-- A hand-off moves an `Arc` between two threads and changes no tally but
    the `Arc`s' owners: the receiver does not hold `get_mut`'s `&mut T`,
    since that holder owns the only `Arc` and the giver owns one. -/
theorem inv_pass {d d' : ArcData} {t u t' u' : Thread} {rest : Multiset Thread}
    (h : Pass d t u d' t' u') (hinv : Inv ⟨d, t ::ₘ u ::ₘ rest⟩) :
    Inv ⟨d', t' ::ₘ u' ::ₘ rest⟩ := by
  cases h with
  | arc hi ha =>
      have hu : u.pc ≠ .getMutHeld := by
        intro hu
        have h1 := hinv.refCount_eq
        have h5 := hinv.held
        have h6 := hinv.holders
        have hrest : tally Thread.heldArcs rest ≤ tally Thread.arcs rest :=
          tally_le_tally fun v _ => Thread.heldArcs_le v
        simp only [liveHandles, count, tally_cons] at h1 h5 h6
        simp only [hu, hi, Pc.holding, Thread.heldArcs] at h5 h6
        have := h5 (by omega)
        omega
      have ht0 : ({ t with arcs := t.arcs - 1 } : Thread).heldArcs = t.heldArcs := by
        simp only [Thread.heldArcs, hi]
      have hu0 : ({ u with arcs := u.arcs + 1 } : Thread).heldArcs = u.heldArcs := by
        cases hp : u.pc with
        | getMutHeld => exact absurd hp hu
        | idle | abort | free => simp only [Thread.heldArcs, hp]
      -- no tally changes: the pcs stay, and one `Arc` changes owner
      have hcount : ∀ f : Pc → Nat,
          count f ⟨d, { t with arcs := t.arcs - 1 } ::ₘ { u with arcs := u.arcs + 1 } ::ₘ rest⟩ =
            count f ⟨d, t ::ₘ u ::ₘ rest⟩ := by
        intro f
        simp only [count, tally_cons]
      have hlive :
          liveHandles ⟨d, { t with arcs := t.arcs - 1 } ::ₘ { u with arcs := u.arcs + 1 } ::ₘ rest⟩ =
            liveHandles ⟨d, t ::ₘ u ::ₘ rest⟩ := by
        simp only [liveHandles, tally_cons]
        omega
      have hheld : tally Thread.heldArcs
            ({ t with arcs := t.arcs - 1 } ::ₘ { u with arcs := u.arcs + 1 } ::ₘ rest) =
          tally Thread.heldArcs (t ::ₘ u ::ₘ rest) := by
        simp only [tally_cons, ht0, hu0]
      obtain ⟨h1, h2, h3, h4, h5, h6⟩ := hinv
      refine ⟨?_, ?_, ?_, ?_, ?_, ?_⟩
      · rw [hlive, hcount]
        exact h1
      · rw [hcount]
        exact h2
      · rw [hcount]
        exact h3
      · rw [hcount]
        exact h4
      · rw [hcount, hheld]
        exact h5
      · rw [hcount, hheld]
        exact h6

theorem inv_step {c c' : Conf} (hN : Multiset.card c.threads < MAX / 2) (hinv : Inv c)
    (h : Interleaving.Step Updating Pass c c') : Inv c' := by
  cases h with
  | solo rest ha =>
      have hc := inv_iff_counts.mp hinv
      have hHa : tally Thread.heldArcs rest ≤ tally Thread.arcs rest :=
        tally_le_tally fun v _ => Thread.heldArcs_le v
      -- the other threads are fewer than `usize::MAX / 2`, and so are their aborts
      have hAb : tally (fun u => u.pc.aborting) rest < MAX / 2 := by
        have := tally_le_card (f := fun u : Thread => u.pc.aborting) (m := rest)
          fun v _ => Pc.aborting_le v.pc
        rw [Multiset.card_cons] at hN
        omega
      exact inv_iff_counts.mpr (Counts.step ha hc hHa hAb)
  | duo rest hp => exact inv_pass hp hinv

/-- **THE INVARIANT HOLDS** in every configuration that fewer than
    `usize::MAX / 2` threads reach. -/
theorem inv_reachable {c : Conf} (hr : Reachable c) (hN : Multiset.card c.threads < MAX / 2) :
    Inv c := by
  obtain ⟨n, hr⟩ := hr
  exact invariant_of_reach_card (B := fun k => k < MAX / 2)
    (fun _ _ hb hinv hab => inv_step hb hinv hab) hr (inv_init n) hN

/-! ## What the invariant says -/

section Consequences

variable {c : Conf} {t : Thread}

/-- Once a drop's `fetch_sub` returned 1, the counter is 0 and no `Arc` is
    live, nor any clone stopped at `abort()`. -/
theorem Inv.dead_of_pos (h : Inv c) (hpos : 0 < c.shared.frees + count Pc.freeing c) :
    c.shared.refCount = 0 ∧ liveHandles c = 0 ∧ count Pc.aborting c = 0 := by
  have h0 := h.dead hpos
  have h1 := h.refCount_eq
  omega

/-- The holder of `get_mut`'s `&mut T` owns one `Arc`, the only live one. -/
theorem Inv.unique_of_held (h : Inv c) (ht : t ∈ c.threads) (hp : t.pc = .getMutHeld) :
    t.arcs = 1 ∧ liveHandles c = 1 ∧ count Pc.aborting c = 0 := by
  have ht1 : t.pc.holding = 1 := by rw [hp]; rfl
  have hself : t.heldArcs = t.arcs := by simp only [Thread.heldArcs, hp]
  -- split the tallies at the holder
  have eH : count Pc.holding c =
      1 + tally (fun u : Thread => u.pc.holding) (c.threads.erase t) := by
    rw [count, tally_erase _ ht, ht1]
  have eHa : tally Thread.heldArcs c.threads =
      t.arcs + tally Thread.heldArcs (c.threads.erase t) := by
    rw [tally_erase _ ht, hself]
  obtain ⟨h1, hHa⟩ := h.held (by omega)
  have h2 := h.holders
  -- the others hold no `&mut T`, so none of their `Arc`s counts as held
  have hzero : tally (fun u : Thread => u.pc.holding) (c.threads.erase t) = 0 := by omega
  have hrest : tally Thread.heldArcs (c.threads.erase t) = 0 := by
    rw [tally_eq_zero] at hzero ⊢
    exact fun u hu => Thread.heldArcs_eq_zero (hzero u hu)
  have hta : t.arcs = 1 := by omega
  have hlive := h.refCount_eq
  have harcs : t.arcs ≤ tally Thread.arcs c.threads := le_tally ht
  simp only [liveHandles] at hlive ⊢
  exact ⟨hta, by omega, by omega⟩

/-- With every thread between operations, the live `Arc`s are the counter. -/
theorem Inv.refCount_of_idle (h : Inv c) (hi : ∀ u ∈ c.threads, u.pc = .idle) :
    c.shared.refCount = liveHandles c := by
  have hab : count Pc.aborting c = 0 := by
    unfold count
    rw [tally_eq_zero]
    intro u hu
    rw [hi u hu]
    rfl
  rw [h.refCount_eq, hab, Nat.add_zero]

end Consequences

/-- From an idle thread whose load reads 1, every step of `get_mut` returns
    `Some`: its `None` branch needs another count. -/
theorem GetMut.held_of_one {d d' : ArcData} {t t' : Thread} (h : GetMut d t d' t')
    (hi : t.pc = .idle) (h1 : d.refCount = 1) : t'.pc = .getMutHeld := by
  cases h with
  | some => rfl
  | none _ _ hne => exact absurd h1 hne
  | release hp =>
      rw [hi] at hp
      cases hp

/-- With fewer than `usize::MAX / 2` threads, in every reachable
    configuration: `ref_count` is the live `Arc`s and the clones stopped at
    `abort()`; at most one drop saw 1, and the `ArcData` is freed at most
    once, by it; a drop about to free finds the counter at 0 and no `Arc`
    live, and none is live after the free; the holder of `get_mut`'s
    `&mut T` owns the only live `Arc`; and when the caller's `Arc` is the only
    live one and every thread is between operations, `get_mut` returns
    `Some`, and none of its steps from there returns `None`. -/
theorem counter_counts_handles (c : Conf) (hr : Reachable c)
    (hN : Multiset.card c.threads < MAX / 2) :
    c.shared.refCount = liveHandles c + count Pc.aborting c ∧
    c.shared.frees + count Pc.freeing c ≤ 1 ∧
    (∀ t ∈ c.threads, t.pc = .free → c.shared.refCount = 0 ∧ liveHandles c = 0) ∧
    (c.shared.frees = 1 → liveHandles c = 0) ∧
    (∀ t ∈ c.threads, t.pc = .getMutHeld →
      t.arcs = 1 ∧ liveHandles c = 1 ∧ count Pc.aborting c = 0) ∧
    (∀ t ∈ c.threads, t.pc = .idle → 0 < t.arcs → liveHandles c = 1 →
      (∀ u ∈ c.threads, u.pc = .idle) →
        GetMut c.shared t c.shared { t with pc := .getMutHeld } ∧
          ∀ d' t', GetMut c.shared t d' t' → t'.pc = .getMutHeld) := by
  have h := inv_reachable hr hN
  refine ⟨h.refCount_eq, h.frees, ?_, ?_, ?_, ?_⟩
  · intro t ht hp
    -- the drop about to free counts among the threads that saw 1
    have hF : 1 ≤ count Pc.freeing c := by
      have := le_tally (f := fun u : Thread => u.pc.freeing) ht
      simp only [hp, Pc.freeing] at this
      exact this
    obtain ⟨h0, hl, -⟩ := h.dead_of_pos (by omega)
    exact ⟨h0, hl⟩
  · intro hf
    exact (h.dead_of_pos (by omega)).2.1
  · intro t ht hp
    exact h.unique_of_held ht hp
  · intro t ht hi ha hl hall
    have h1 : c.shared.refCount = 1 := by
      rw [h.refCount_of_idle hall, hl]
    exact ⟨.some hi ha h1, fun d' t' hg => hg.held_of_one hi h1⟩

/-- A thread holding `get_mut`'s `&mut T`. -/
def heldConf : Conf := ⟨⟨1, 0, 0⟩, {⟨1, .getMutHeld⟩}⟩

theorem reach_heldConf : Reachable heldConf := by
  refine ⟨0, ReflTransGen.single ?_⟩
  exact Interleaving.Step.solo 0 (Or.inr (GetMut.some rfl Nat.one_pos rfl))

theorem counter_counts_handles_heldConf :
    Reachable heldConf ∧ Multiset.card heldConf.threads < MAX / 2 ∧
    (heldConf.shared.refCount = liveHandles heldConf + count Pc.aborting heldConf ∧
    heldConf.shared.frees + count Pc.freeing heldConf ≤ 1 ∧
    (∀ t ∈ heldConf.threads, t.pc = .free →
      heldConf.shared.refCount = 0 ∧ liveHandles heldConf = 0) ∧
    (heldConf.shared.frees = 1 → liveHandles heldConf = 0) ∧
    (∀ t ∈ heldConf.threads, t.pc = .getMutHeld →
      t.arcs = 1 ∧ liveHandles heldConf = 1 ∧ count Pc.aborting heldConf = 0) ∧
    (∀ t ∈ heldConf.threads, t.pc = .idle → 0 < t.arcs → liveHandles heldConf = 1 →
      (∀ u ∈ heldConf.threads, u.pc = .idle) →
        GetMut heldConf.shared t heldConf.shared { t with pc := .getMutHeld } ∧
          ∀ d' t', GetMut heldConf.shared t d' t' → t'.pc = .getMutHeld)) :=
  have hcard : Multiset.card heldConf.threads < MAX / 2 := by
    simp [heldConf, MAX]
  ⟨reach_heldConf, hcard, counter_counts_handles heldConf reach_heldConf hcard⟩

/-! ## Without the bound on the threads

    The owner of the first `Arc` clones it `usize::MAX / 2` times, handing
    each clone to a thread of its own, which raises `ref_count` to
    `usize::MAX / 2 + 1`; then each of those threads calls `Arc::clone`,
    whose `fetch_add` lands before its `abort` check, and the owner does the
    same last: `usize::MAX / 2 + 1` increments past the guard take the
    counter to `usize::MAX + 1`, which wraps to zero.  The whole run is one of
    `06-01`, without `get_mut`. -/

/-- The `ArcData` with the counter at `n`. -/
def withCount (n : Nat) : ArcData := ⟨n, 0, 0⟩

abbrev BasicStep : Conf → Conf → Prop := Interleaving.Step Act Pass

theorem withCount_wrappingAdd (n : Nat) (h : n < MAX) :
    { withCount n with refCount := wrappingAdd (withCount n).refCount } = withCount (n + 1) := by
  simp only [withCount, wrappingAdd_of_lt n h]

/-- The owner clones its `Arc` `k` times, handing each clone on. -/
theorem reach_handouts (k : Nat) (hk : k ≤ MAX / 2) (rest : Multiset Thread) :
    ReflTransGen BasicStep
      ⟨withCount 1, ⟨1, .idle⟩ ::ₘ (Multiset.replicate k ⟨0, .idle⟩ + rest)⟩
      ⟨withCount (k + 1), ⟨1, .idle⟩ ::ₘ (Multiset.replicate k ⟨1, .idle⟩ + rest)⟩ := by
  induction k generalizing rest with
  | zero =>
      simp only [Multiset.replicate_zero, Multiset.zero_add, Nat.zero_add]
      exact ReflTransGen.refl
  | succ k ih =>
      have hlt : k + 1 < MAX := by
        have := two_mul_half
        omega
      -- the first `k` rounds leave one empty thread for the last
      have e1 : Multiset.replicate (k + 1) (⟨0, .idle⟩ : Thread) + rest
          = Multiset.replicate k ⟨0, .idle⟩ + (⟨0, .idle⟩ : Thread) ::ₘ rest := by
        rw [Multiset.replicate_succ, Multiset.cons_add, Multiset.add_cons]
      have e2 : Multiset.replicate k (⟨1, .idle⟩ : Thread) + (⟨0, .idle⟩ : Thread) ::ₘ rest
          = (⟨0, .idle⟩ : Thread) ::ₘ (Multiset.replicate k ⟨1, .idle⟩ + rest) :=
        Multiset.add_cons ..
      have e3 : Multiset.replicate (k + 1) (⟨1, .idle⟩ : Thread) + rest
          = (⟨1, .idle⟩ : Thread) ::ₘ (Multiset.replicate k ⟨1, .idle⟩ + rest) := by
        rw [Multiset.replicate_succ, Multiset.cons_add]
      have hclone := Act.clone (d := withCount (k + 1)) (t := ⟨1, .idle⟩) rfl Nat.one_pos
        (show k + 1 ≤ MAX / 2 by omega)
      rw [withCount_wrappingAdd _ hlt] at hclone
      have s1 := ih (by omega) ((⟨0, .idle⟩ : Thread) ::ₘ rest)
      have s2 : ReflTransGen BasicStep
          ⟨withCount (k + 1),
            ⟨1, .idle⟩ ::ₘ (Multiset.replicate k ⟨1, .idle⟩ + (⟨0, .idle⟩ : Thread) ::ₘ rest)⟩
          ⟨withCount (k + 1 + 1),
            ⟨2, .idle⟩ ::ₘ (⟨0, .idle⟩ : Thread) ::ₘ (Multiset.replicate k ⟨1, .idle⟩ + rest)⟩ := by
        rw [e2]
        exact reach_solo _ hclone
      -- the owner hands the new `Arc` to the empty thread
      have s3 : ReflTransGen BasicStep
          ⟨withCount (k + 1 + 1),
            ⟨2, .idle⟩ ::ₘ (⟨0, .idle⟩ : Thread) ::ₘ (Multiset.replicate k ⟨1, .idle⟩ + rest)⟩
          ⟨withCount (k + 1 + 1),
            ⟨1, .idle⟩ ::ₘ (⟨1, .idle⟩ : Thread) ::ₘ (Multiset.replicate k ⟨1, .idle⟩ + rest)⟩ :=
        reach_duo _ (Pass.arc rfl (by decide))
      rw [e1, e3]
      exact s1.trans (s2.trans s3)

/-- A clone past the guard: its `fetch_add` lands, `abort()` is next. -/
theorem act_cloneAbort (i : Nat) (hi : i < MAX / 2) :
    Act (withCount (MAX / 2 + 1 + i)) ⟨1, .idle⟩
      (withCount (MAX / 2 + 1 + (i + 1))) ⟨1, .abort⟩ := by
  have hlt : MAX / 2 + 1 + i < MAX := by
    have := two_mul_half
    omega
  have h := Act.cloneAbort (d := withCount (MAX / 2 + 1 + i)) (t := ⟨1, .idle⟩) rfl
    Nat.one_pos (show MAX / 2 < MAX / 2 + 1 + i by omega)
  rw [withCount_wrappingAdd _ hlt] at h
  exact h

/-- The `usize::MAX / 2` holders of a clone each call `Arc::clone` and stop
    at its `abort()`, taking the counter from `usize::MAX / 2 + 1` to
    `usize::MAX`. -/
theorem reach_cloneAborts (rest : Multiset Thread) :
    ReflTransGen BasicStep
      ⟨withCount (MAX / 2 + 1), Multiset.replicate (MAX / 2) ⟨1, .idle⟩ + rest⟩
      ⟨withCount MAX, Multiset.replicate (MAX / 2) ⟨1, .abort⟩ + rest⟩ := by
  have h : ReflTransGen BasicStep
      ⟨withCount (MAX / 2 + 1 + 0), Multiset.replicate (MAX / 2) ⟨1, .idle⟩ + rest⟩
      ⟨withCount (MAX / 2 + 1 + MAX / 2), Multiset.replicate (MAX / 2) ⟨1, .abort⟩ + rest⟩ :=
    reach_replicate (fun i => withCount (MAX / 2 + 1 + i)) (MAX / 2) act_cloneAbort rest
  have eN : MAX / 2 + 1 + MAX / 2 = MAX := by
    have := two_mul_half
    omega
  rw [Nat.add_zero, eN] at h
  exact h

/-- Every thread stopped at `abort()`, each owning an `Arc`: the first
    owner and `n` holders of a clone, with the counter wrapped to zero. -/
def stopped (n : Nat) : Conf :=
  ⟨withCount 0, ⟨1, .abort⟩ ::ₘ Multiset.replicate n ⟨1, .abort⟩⟩

theorem live_stopped (n : Nat) : liveHandles (stopped n) = n + 1 := by
  simp only [stopped, liveHandles, withCount, tally_cons, tally_replicate, Nat.mul_one]
  omega

theorem reach_stopped : ReflTransGen BasicStep (init (MAX / 2)) (stopped (MAX / 2)) := by
  have s1 : ReflTransGen BasicStep (init (MAX / 2))
      ⟨withCount (MAX / 2 + 1), ⟨1, .idle⟩ ::ₘ Multiset.replicate (MAX / 2) ⟨1, .idle⟩⟩ := by
    have h := reach_handouts (MAX / 2) (Nat.le_refl _) 0
    simp only [Multiset.add_zero] at h
    exact h
  have e1 : (⟨1, .idle⟩ : Thread) ::ₘ Multiset.replicate (MAX / 2) ⟨1, .idle⟩
      = Multiset.replicate (MAX / 2) ⟨1, .idle⟩ + {⟨1, .idle⟩} := by
    rw [← Multiset.singleton_add, Multiset.add_comm]
  have e2 : Multiset.replicate (MAX / 2) (⟨1, .abort⟩ : Thread) + {⟨1, .idle⟩}
      = (⟨1, .idle⟩ : Thread) ::ₘ Multiset.replicate (MAX / 2) ⟨1, .abort⟩ := by
    rw [← Multiset.singleton_add, Multiset.add_comm]
  have s2 := reach_cloneAborts {⟨1, .idle⟩}
  rw [← e1, e2] at s2
  -- last, the owner calls `Arc::clone`: `usize::MAX + 1` wraps to 0
  have hclone := Act.cloneAbort (d := withCount MAX) (t := ⟨1, .idle⟩) rfl Nat.one_pos
    (show MAX / 2 < MAX by have := two_mul_half; omega)
  have e3 : { withCount MAX with refCount := wrappingAdd (withCount MAX).refCount } =
      withCount 0 := by
    simp only [withCount, wrappingAdd_MAX]
  rw [e3] at hclone
  have s3 : ReflTransGen BasicStep
      ⟨withCount MAX, ⟨1, .idle⟩ ::ₘ Multiset.replicate (MAX / 2) ⟨1, .abort⟩⟩
      (stopped (MAX / 2)) :=
    reach_solo _ hclone
  exact s1.trans (s2.trans s3)

/-- **THE COUNT WRAPS** with `2^63` threads, in `06-01` and so in `06-01-02`:
    a reachable configuration whose `ref_count` is not the live `Arc`s and
    the clones stopped at `abort()`. -/
theorem count_wraps :
    ¬ ∀ c, Reachable c → c.shared.refCount = liveHandles c + count Pc.aborting c := by
  intro h
  have hr : Reachable (stopped (MAX / 2)) :=
    BasicReachable.updating ⟨MAX / 2, reach_stopped⟩
  have hw := h (stopped (MAX / 2)) hr
  have h1 := live_stopped (MAX / 2)
  have h0 : (stopped (MAX / 2)).shared.refCount = 0 := rfl
  omega

end ReferenceCounter
