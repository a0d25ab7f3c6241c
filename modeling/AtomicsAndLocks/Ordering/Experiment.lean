import AtomicsAndLocks.Interleaving
import AtomicsAndLocks.Memory.Views

/-! # A spin lock with the wrong orderings (07-04-03_experiment.rs)

    Four threads each take a spin lock a million times, by
    `while locked.swap(true, acq) {}`, increment `counter` by a relaxed load
    and a relaxed store while they hold it, and release it by
    `locked.store(false, rel)`; after the scope has joined them, `main`
    prints `counter.into_inner()`, the latest write of `counter`.  `main`
    does this twice: first with `acq` and `rel` both `Relaxed` and a
    `compiler_fence` after the swap and before the release, then with
    `Acquire` and `Release`.  A `compiler_fence` only keeps the compiler
    from moving the thread's own accesses across it and orders nothing
    between threads; each thread here runs in program order already, so it
    is no step.  `n` threads with `k` iterations each stand for the four
    and the million; `locked`'s `false` and `true` are 0 and 1.

    The relaxed store of the counter goes after the writes its thread
    knows, but not always last: a holder that has not seen the previous
    holder's write may place its own before it (`Step.storeBefore`), which
    moves the later writes, and what every thread knows of them, one place
    on.  The release of `locked` goes last: the writes of `locked` a holder
    has not seen are all swaps' (`release_goes_last`).

    Whatever the orderings, the swap is a read-modify-write and reads
    `locked`'s latest write: at most one thread holds the lock, and each
    write of the counter is at most its timestamp, so the count printed is
    at most `n * k` (`count_at_most`).  With `Acquire` and `Release` the
    lock passes the counter's latest write on to the next holder, whose
    store then goes last, the counter's writes are `0, 1, 2, …` and the
    count is exactly `n * k` (`count_exact`).  With `Relaxed` a holder may
    load a stale value, and a run can end one short
    (`count_can_fall_short`). -/

namespace Experiment

open Views Interleaving Relation

/-- `locked` and `counter`. -/
inductive Loc
  | locked
  | counter
  deriving DecidableEq

/-- A thread of the scope, by the statement that is next, with its view. -/
inductive Thread
  /-- The `for` loop, with `k` iterations to go. -/
  | loop (k : Nat) (T : TView Loc)
  /-- `while locked.swap(true, acq) {}`, with `k` iterations to go after this one. -/
  | swap (k : Nat) (T : TView Loc)
  /-- Holding the lock: `counter.load(Relaxed)` is next. -/
  | load (k : Nat) (T : TView Loc)
  /-- `counter.store(old + 1, Relaxed)` is next. -/
  | store (k old : Nat) (T : TView Loc)
  /-- `locked.store(false, rel)` is next. -/
  | unlock (k : Nat) (T : TView Loc)

/-- One step of a thread that takes the lock by `swap(true, acq)` and
    releases it by `store(false, rel)`. -/
inductive Act (acq rel : Views.Ordering) : Memory Loc Nat → Thread → Memory Loc Nat → Thread → Prop
  | start {M : Memory Loc Nat} {k : Nat} {T : TView Loc} :
      Act acq rel M (.loop (k + 1) T) M (.swap k T)
  /-- The swap returns `true`: the loop spins. -/
  | spin {M M' : Memory Loc Nat} {k : Nat} {T T' : TView Loc}
      (h : Update acq .locked (fun _ => 1) T M 1 T' M') :
      Act acq rel M (.swap k T) M' (.swap k T')
  /-- The swap returns `false`: the lock is taken. -/
  | acquire {M M' : Memory Loc Nat} {k : Nat} {T T' : TView Loc}
      (h : Update acq .locked (fun _ => 1) T M 0 T' M') :
      Act acq rel M (.swap k T) M' (.load k T')
  | load {M : Memory Loc Nat} {k v : Nat} {T T' : TView Loc}
      (h : Load .relaxed .counter T M v T') : Act acq rel M (.load k T) M (.store k v T')
  /-- The store placed after every write of the counter. -/
  | store {M : Memory Loc Nat} {k old : Nat} {T : TView Loc} :
      Act acq rel M (.store k old T) (M.store T .relaxed .counter (old + 1))
        (.unlock k (T.write .counter (M .counter).length))
  | unlock {M : Memory Loc Nat} {k : Nat} {T : TView Loc} :
      Act acq rel M (.unlock k T) (M.store T rel .locked 0)
        (.loop k (T.write .locked (M .locked).length))

/-- The thread, its view knowing the writes of the counter from `p` on one
    place later. -/
def Thread.shift (p : Nat) : Thread → Thread
  | .loop k T => .loop k (T.shift .counter p)
  | .swap k T => .swap k (T.shift .counter p)
  | .load k T => .load k (T.shift .counter p)
  | .store k old T => .store k old (T.shift .counter p)
  | .unlock k T => .unlock k (T.shift .counter p)

abbrev Conf := Interleaving.Conf (Memory Loc Nat) Thread

/-- A step of the scope: a step of one thread, or a holder's
    `counter.store(old + 1, Relaxed)` placed at `p`, after the writes it
    knows and before writes of the counter it has not seen, which move one
    place on in memory and in every thread's view. -/
inductive Step (acq rel : Views.Ordering) : Conf → Conf → Prop
  | act {c c' : Conf} (h : Interleaving.Step (Act acq rel) noHandOff c c') : Step acq rel c c'
  | storeBefore {M : Memory Loc Nat} {k old p : Nat} {T : TView Loc} {rest : Multiset Thread}
      (hT : T.cur .counter < p) (hp : p < (M .counter).length) :
      Step acq rel ⟨M, .store k old T ::ₘ rest⟩
        ⟨M.storeAt T .relaxed .counter p (old + 1),
          .unlock k ((T.shift .counter p).write .counter p) ::ₘ rest.map (Thread.shift p)⟩

/-- `locked` false, `counter` 0, and `n` threads with `k` iterations each. -/
def init (n k : Nat) : Conf :=
  ⟨Memory.init fun _ => 0, Multiset.replicate n (.loop k TView.init)⟩

def Reachable (acq rel : Views.Ordering) (n k : Nat) (c : Conf) : Prop :=
  ReflTransGen (Step acq rel) (init n k) c

/-- Whether the thread has left its loop. -/
def Thread.returned : Thread → Bool
  | .loop 0 _ => true
  | _ => false

/-- The scope is over: every thread has left its loop. -/
def Finished (c : Conf) : Prop := ∀ t ∈ c.threads, t.returned = true

/-! ## For any orderings -/

/-- The increments a thread has still to store. -/
def Thread.pending : Thread → Nat
  | .loop k _ | .unlock k _ => k
  | .swap k _ | .load k _ | .store k _ _ => k + 1

/-- Whether the thread holds the lock. -/
def Thread.holding : Thread → Nat
  | .load _ _ | .store _ _ _ | .unlock _ _ => 1
  | _ => 0

/-- A thread about to store loaded a write of the counter, and so a value
    below the count of its writes and at most what it knows of them. -/
def Thread.Loaded (M : Memory Loc Nat) : Thread → Prop
  | .store _ old T => old < (M .counter).length ∧ old ≤ T.cur .counter
  | _ => True

@[simp] theorem Thread.holding_shift (p : Nat) (t : Thread) : (t.shift p).holding = t.holding := by
  cases t <;> rfl

@[simp] theorem Thread.pending_shift (p : Nat) (t : Thread) : (t.shift p).pending = t.pending := by
  cases t <;> rfl

/-- Shifting the threads' views changes no share of a tally that reads none. -/
theorem tally_shift {f : Thread → Nat} {p : Nat} (hf : ∀ t, f (t.shift p) = f t)
    (m : Multiset Thread) : tally f (m.map (Thread.shift p)) = tally f m := by
  rw [tally_map]
  simp only [hf]

theorem Thread.pending_of_returned {t : Thread} (h : t.returned = true) : t.pending = 0 := by
  cases t with
  | loop k T =>
      cases k with
      | zero => rfl
      | succ k => cases h
  | swap | load | store | unlock => cases h

theorem Thread.Loaded.mono {M M' : Memory Loc Nat} {t : Thread} (h : t.Loaded M)
    (hle : (M .counter).length ≤ (M' .counter).length) : t.Loaded M' := by
  cases t with
  | store k old T => exact ⟨Nat.lt_of_lt_of_le h.1 hle, h.2⟩
  | loop | swap | load | unlock => trivial

/-- What a thread loaded stays below what it knows when its view shifts. -/
theorem Thread.Loaded.shift {M M' : Memory Loc Nat} {t : Thread} (h : t.Loaded M)
    (hle : (M .counter).length ≤ (M' .counter).length) (p : Nat) : (t.shift p).Loaded M' := by
  cases t with
  | store k old T =>
      have hcur : T.cur .counter ≤ T.cur.shift .counter p .counter := View.le_shift T.cur .counter
      exact ⟨Nat.lt_of_lt_of_le h.1 hle, Nat.le_trans h.2 hcur⟩
  | loop | swap | load | unlock => trivial

structure Inv (n k : Nat) (c : Conf) : Prop where
  /-- At most one thread holds the lock, and `locked`'s latest write says
      whether one does. -/
  holders : tally Thread.holding c.threads ≤ 1
  locked : c.shared.latest .locked = some (tally Thread.holding c.threads)
  bounded : c.shared.Bounded .counter
  loaded : ∀ t ∈ c.threads, t.Loaded c.shared
  /-- The counter's writes and the increments still to store: the initial
      write and `n * k` more. -/
  pending : (c.shared .counter).length + tally Thread.pending c.threads = n * k + 1

theorem inv_init (n k : Nat) : Inv n k (init n k) where
  holders := by simp [init, Thread.holding]
  locked := by simp [init, Thread.holding, Memory.latest, Memory.init]
  bounded := Memory.bounded_init _
  loaded t ht := by
    rw [Multiset.eq_of_mem_replicate ht]
    trivial
  pending := by
    simp only [init, tally_replicate, Thread.pending, Memory.init, List.length_singleton]
    omega

section Act

variable {acq rel : Views.Ordering} {M M' : Memory Loc Nat} {t t' : Thread}

/-- The lock, with `h` holders among the other threads: a swap that reads
    `false` takes it, one that reads `true` finds it held, and only its
    holder releases it. -/
theorem Act.locked (ha : Act acq rel M t M' t') {h : Nat}
    (hl : M.latest .locked = some (t.holding + h)) (hh : t.holding + h ≤ 1) :
    M'.latest .locked = some (t'.holding + h) ∧ t'.holding + h ≤ 1 := by
  cases ha with
  | start => exact ⟨hl, hh⟩
  | spin hu =>
      obtain ⟨hv, hv'⟩ := hu.latest_eq
      -- the swap read the holder's `true`
      rw [hl, Option.some.injEq] at hv
      exact ⟨hv'.trans (congrArg some hv.symm), hh⟩
  | acquire hu =>
      obtain ⟨hv, hv'⟩ := hu.latest_eq
      rw [hl, Option.some.injEq] at hv
      have h0 : h = 0 := by simp only [Thread.holding] at hv; omega
      exact ⟨by rw [hv', h0]; rfl, by simp [Thread.holding, h0]⟩
  | load => exact ⟨hl, hh⟩
  | store =>
      rw [Memory.latest_store_ne _ _ _ _ (by decide : Loc.locked ≠ Loc.counter)]
      exact ⟨hl, hh⟩
  | unlock =>
      have h0 : h = 0 := by simp only [Thread.holding] at hh; omega
      exact ⟨by rw [Memory.latest_store_self, h0]; rfl, by simp [Thread.holding, h0]⟩

/-- Each step stores at most one increment, and the counter's writes count
    the increments stored. -/
theorem Act.pending (ha : Act acq rel M t M' t') :
    (M' .counter).length + t'.pending = (M .counter).length + t.pending ∧
      t'.pending ≤ t.pending := by
  cases ha with
  | start | load => exact ⟨rfl, le_refl _⟩
  | spin hu | acquire hu =>
      rw [hu.frame (by decide : Loc.counter ≠ Loc.locked)]
      exact ⟨rfl, le_refl _⟩
  | store =>
      simp only [Memory.store_self, List.length_append, List.length_singleton, Thread.pending]
      omega
  | unlock =>
      rw [Memory.store_ne _ _ _ _ (by decide : Loc.counter ≠ Loc.locked)]
      exact ⟨rfl, le_refl _⟩

/-- The store writes one more than a value it loaded: at most its timestamp. -/
theorem Act.bounded (ha : Act acq rel M t M' t') (hb : M.Bounded .counter) (hl : t.Loaded M) :
    M'.Bounded .counter := by
  cases ha with
  | start | load => exact hb
  | spin hu | acquire hu => exact hb.of_eq (hu.frame (by decide))
  | store => exact hb.store _ _ hl.1
  | unlock => exact hb.of_eq (Memory.store_ne _ _ _ _ (by decide))

theorem Act.loaded (ha : Act acq rel M t M' t') (hb : M.Bounded .counter) : t'.Loaded M' := by
  cases ha with
  | load hl => exact ⟨hl.lt_of_bounded hb, hl.le_cur_of_bounded hb⟩
  | start | spin | acquire | store | unlock => trivial

end Act

theorem inv_act {acq rel : Views.Ordering} {n k : Nat} {c c' : Conf} (h : Inv n k c)
    (hs : Interleaving.Step (Act acq rel) noHandOff c c') : Inv n k c' := by
  cases hs with
  | @solo M M' t t' rest ha =>
      have hl := h.locked
      have hh := h.holders
      have hp := h.pending
      simp only [tally_cons] at hl hh hp
      obtain ⟨hl', hh'⟩ := ha.locked hl hh
      obtain ⟨hp', hle⟩ := ha.pending
      have hgrow : (M .counter).length ≤ (M' .counter).length := by omega
      have ht := h.loaded t (Multiset.mem_cons_self t rest)
      refine ⟨by simpa using hh', by simpa using hl', ha.bounded h.bounded ht, ?_, ?_⟩
      · intro u hu
        rcases Multiset.mem_cons.mp hu with rfl | hu
        · exact ha.loaded h.bounded
        -- the others' loads stay below a count that only grows
        · exact (h.loaded u (Multiset.mem_cons_of_mem hu)).mono hgrow
      · simp only [tally_cons]
        omega
  | duo rest hd => cases hd

/-- A store placed before writes of the counter not yet seen keeps the
    invariant: the writes it moves keep their values and go later, and the
    value it stores is at most its place, after what its thread knows. -/
theorem Inv.storeBefore {n k j old p : Nat} {M : Memory Loc Nat} {T : TView Loc}
    {rest : Multiset Thread} (h : Inv n k ⟨M, .store j old T ::ₘ rest⟩)
    (hT : T.cur .counter < p) (hp : p < (M .counter).length) :
    Inv n k ⟨M.storeAt T .relaxed .counter p (old + 1),
      .unlock j ((T.shift .counter p).write .counter p) ::ₘ rest.map (Thread.shift p)⟩ := by
  have hne : Loc.locked ≠ Loc.counter := by decide
  have hlen : ((M.storeAt T .relaxed .counter p (old + 1)) .counter).length =
      (M .counter).length + 1 := Memory.length_storeAt_self hp.le
  have hgrow : (M .counter).length ≤ ((M.storeAt T .relaxed .counter p (old + 1)) .counter).length :=
    by omega
  obtain ⟨-, hle⟩ : old < (M .counter).length ∧ old ≤ T.cur .counter :=
    h.loaded _ (Multiset.mem_cons_self _ _)
  have hh := h.holders
  have hl := h.locked
  have hpd := h.pending
  simp only [tally_cons] at hh hl hpd
  refine ⟨?_, ?_, h.bounded.storeAt T .relaxed hp.le (by omega), ?_, ?_⟩
  · rw [tally_cons, tally_shift (Thread.holding_shift p)]
    exact hh
  · rw [Memory.latest_storeAt_ne _ _ _ _ _ hne, tally_cons, tally_shift (Thread.holding_shift p)]
    exact hl
  · intro u hu
    rcases Multiset.mem_cons.mp hu with rfl | hu
    · trivial
    -- the others' views move with the writes they know
    · obtain ⟨u₀, hu₀, rfl⟩ := Multiset.mem_map.mp hu
      exact (h.loaded u₀ (Multiset.mem_cons_of_mem hu₀)).shift hgrow p
  · show _ + tally Thread.pending (_ ::ₘ _) = _
    rw [tally_cons, tally_shift (Thread.pending_shift p), hlen]
    simp only [Thread.pending] at hpd ⊢
    omega

theorem inv_step {acq rel : Views.Ordering} {n k : Nat} {c c' : Conf} (h : Inv n k c)
    (hs : Step acq rel c c') : Inv n k c' := by
  cases hs with
  | act hs => exact inv_act h hs
  | storeBefore hT hp => exact h.storeBefore hT hp

theorem inv_reachable {acq rel : Views.Ordering} {n k : Nat} {c : Conf} (hr : Reachable acq rel n k c) :
    Inv n k c := by
  induction hr with
  | refl => exact inv_init n k
  | tail _ hs ih => exact inv_step ih hs

/-- Once every thread has left its loop, all `n * k` increments are stored. -/
theorem Inv.length_of_finished {n k : Nat} {c : Conf} (h : Inv n k c) (hf : Finished c) :
    (c.shared .counter).length = n * k + 1 := by
  have hz : tally Thread.pending c.threads = 0 :=
    tally_eq_zero.mpr fun t ht => Thread.pending_of_returned (hf t ht)
  have hp := h.pending
  omega

/-- For any orderings of the swap and the release, in every run: at most
    one thread holds the lock, and `locked`'s latest write is `true` exactly
    when one does; each write of the counter is at most its timestamp; and
    once every thread has left its loop, the count `main` prints is at most
    the `n * k` increments. -/
theorem count_at_most (acq rel : Views.Ordering) (n k : Nat) (c : Conf)
    (hr : Reachable acq rel n k c) :
    tally Thread.holding c.threads ≤ 1 ∧
      c.shared.latest .locked = some (tally Thread.holding c.threads) ∧
      c.shared.Bounded .counter ∧
      (Finished c → ∃ v, c.shared.latest .counter = some v ∧ v ≤ n * k) := by
  have h := inv_reachable hr
  refine ⟨h.holders, h.locked, h.bounded, fun hf => ?_⟩
  have hlen := h.length_of_finished hf
  obtain ⟨v, hv⟩ := Memory.exists_latest (M := c.shared) (l := Loc.counter)
    (List.ne_nil_of_length_pos (by omega))
  have hlt := h.bounded.latest_lt hv
  exact ⟨v, hv, by omega⟩

/-! ## With `Acquire` and `Release` -/

/-- What a holder knows of the counter when the lock hands it on: the
    latest write, and, about to store, that it loaded it. -/
def Thread.Knows (M : Memory Loc Nat) : Thread → Prop
  | .load _ T | .unlock _ T => (M .counter).length ≤ T.cur .counter + 1
  | .store _ old T => old + 1 = (M .counter).length ∧ (M .counter).length ≤ T.cur .counter + 1
  | _ => True

theorem Thread.Knows.of_eq {M M' : Memory Loc Nat} {t : Thread} (h : t.Knows M)
    (hM : M' .counter = M .counter) : t.Knows M' := by
  cases t with
  | load k T | unlock k T =>
      show (M' .counter).length ≤ _
      rw [hM]
      exact h
  | store k old T =>
      show _ = (M' .counter).length ∧ (M' .counter).length ≤ _
      rw [hM]
      exact h
  | loop | swap => trivial

theorem Thread.knows_of_holding {M : Memory Loc Nat} {t : Thread} (h : t.holding = 0) :
    t.Knows M := by
  cases t with
  | load | store | unlock => cases h
  | loop | swap => trivial

/-- With the lock free, `locked`'s latest write released a view that knows
    the counter's latest write. -/
def Handed (M : Memory Loc Nat) : Prop :=
  ∃ m, (M .locked).getLast? = some m ∧ (M .counter).length ≤ m.view .counter + 1

structure Synced (c : Conf) : Prop where
  counts : c.shared.Counts .counter
  handed : tally Thread.holding c.threads = 0 → Handed c.shared
  knows : ∀ t ∈ c.threads, t.Knows c.shared

theorem synced_init (n k : Nat) : Synced (init n k) where
  counts := Memory.counts_init _
  handed _ := ⟨⟨0, ⊥⟩, rfl, le_refl 1⟩
  knows t ht := by
    rw [Multiset.eq_of_mem_replicate ht]
    trivial

section Act

variable {M M' : Memory Loc Nat} {t t' : Thread}

/-- One step under `Acquire` and `Release`, with `h` holders among the
    other threads.  The acquiring swap joins the view the release handed
    on; the holder's load then reads the latest write, and its store writes
    the next value. -/
theorem Act.synced (ha : Act .acquire .release M t M' t') {h : Nat}
    (hl : M.latest .locked = some (t.holding + h)) (hh : t.holding + h ≤ 1)
    (hc : M.Counts .counter) (hk : t.Knows M) (hd : t.holding + h = 0 → Handed M) :
    M'.Counts .counter ∧ t'.Knows M' ∧ (t'.holding + h = 0 → Handed M') ∧
      (M' .counter = M .counter ∨ h = 0) := by
  cases ha with
  | start => exact ⟨hc, trivial, hd, .inl rfl⟩
  | spin hu =>
      have hf := hu.frame (by decide : Loc.counter ≠ Loc.locked)
      obtain ⟨hv, -⟩ := hu.latest_eq
      rw [hl, Option.some.injEq] at hv
      -- another thread holds the lock, so nothing is handed on
      exact ⟨hc.of_eq hf, trivial, fun h0 => absurd (h0.symm.trans hv) (by decide), .inl hf⟩
  | acquire hu =>
      have hf := hu.frame (by decide : Loc.counter ≠ Loc.locked)
      obtain ⟨hv, -⟩ := hu.latest_eq
      rw [hl, Option.some.injEq] at hv
      obtain ⟨m, hm, hR⟩ := hd hv
      obtain ⟨m', hm', hle⟩ := hu.view_le_cur rfl
      rw [hm] at hm'
      cases hm'
      refine ⟨hc.of_eq hf, ?_, fun h1 => by simp [Thread.holding] at h1, .inl hf⟩
      show (M' .counter).length ≤ _
      rw [hf]
      exact Nat.le_trans hR (Nat.add_le_add_right (hle Loc.counter) 1)
  | @load k v T T' hld =>
      obtain ⟨hge, hlt, R, hT'⟩ := Load.of_counts hc hld
      have hk' : (M .counter).length ≤ T.cur .counter + 1 := hk
      -- the load read the latest write, and knows it
      have hcur : v ≤ T'.cur .counter := by
        rw [hT']
        exact TView.ts_le_read
      exact ⟨hc, ⟨by omega, by omega⟩, hd, .inl rfl⟩
  | @store k old T =>
      have hk' : old + 1 = (M .counter).length := hk.1
      have hc' := hc.store T .relaxed
      rw [← hk'] at hc'
      refine ⟨hc', ?_, fun h1 => by simp [Thread.holding] at h1, .inr ?_⟩
      · show ((M.store T .relaxed .counter (old + 1)) .counter).length ≤ _ + 1
        rw [Memory.store_self, List.length_append, List.length_singleton]
        exact Nat.add_le_add_right TView.ts_le_write 1
      · simp only [Thread.holding] at hh
        omega
  | @unlock k T =>
      have hf := Memory.store_ne M T .release 0 (by decide : Loc.counter ≠ Loc.locked)
      have hk' : (M .counter).length ≤ T.cur .counter + 1 := hk
      refine ⟨hc.of_eq hf, trivial, fun _ => ?_, .inl hf⟩
      -- the release hands on everything the holder knows
      refine ⟨_, by rw [Memory.store_self, List.getLast?_concat], ?_⟩
      rw [hf]
      exact Nat.le_trans hk' (Nat.add_le_add_right (TView.le_released rfl Loc.counter) 1)

end Act

theorem synced_act {n k : Nat} {c c' : Conf} (hi : Inv n k c) (h : Synced c)
    (hs : Interleaving.Step (Act .acquire .release) noHandOff c c') : Synced c' := by
  cases hs with
  | @solo M M' t t' rest ha =>
      have hl := hi.locked
      have hh := hi.holders
      have hd := h.handed
      simp only [tally_cons] at hl hh hd
      obtain ⟨hc', hk', hd', hrest⟩ :=
        ha.synced hl hh h.counts (h.knows t (Multiset.mem_cons_self t rest)) hd
      refine ⟨hc', by simpa using hd', ?_⟩
      intro u hu
      rcases Multiset.mem_cons.mp hu with rfl | hu
      · exact hk'
      · rcases hrest with hM | h0
        · exact (h.knows u (Multiset.mem_cons_of_mem hu)).of_eq hM
        -- the stepping thread was the only holder
        · exact Thread.knows_of_holding (tally_eq_zero.mp h0 u hu)
  | duo rest hd => cases hd

theorem synced_step {n k : Nat} {c c' : Conf} (hi : Inv n k c) (h : Synced c)
    (hs : Step .acquire .release c c') : Synced c' := by
  cases hs with
  | act hs => exact synced_act hi h hs
  | @storeBefore M k old p T rest hT hp =>
      -- the holder knows the counter's latest write, so its store goes last
      obtain ⟨-, hk⟩ : old + 1 = (M .counter).length ∧ (M .counter).length ≤ T.cur .counter + 1 :=
        h.knows _ (Multiset.mem_cons_self _ _)
      omega

theorem synced_reachable {n k : Nat} {c : Conf} (hr : Reachable .acquire .release n k c) :
    Inv n k c ∧ Synced c := by
  induction hr with
  | refl => exact ⟨inv_init n k, synced_init n k⟩
  | tail _ hs ih => exact ⟨inv_step ih.1 hs, synced_step ih.1 ih.2 hs⟩

/-- With `Acquire` and `Release`, in every run: the counter's writes are
    `0, 1, 2, …` in modification order, so no increment is lost, and once
    every thread has left its loop the count `main` prints is exactly
    `n * k`. -/
theorem count_exact (n k : Nat) (c : Conf) (hr : Reachable .acquire .release n k c) :
    c.shared.Counts .counter ∧ (Finished c → c.shared.latest .counter = some (n * k)) := by
  obtain ⟨hi, hs⟩ := synced_reachable hr
  refine ⟨hs.counts, fun hf => ?_⟩
  have hlen := hi.length_of_finished hf
  rw [hs.counts.latest (List.ne_nil_of_length_pos (by omega)), hlen]
  rfl

/-! ## Runs that finish

    Reads of the latest write can always be taken by a thread whose view
    knows no later one.  A run in which the threads take the lock one after
    another, each running all its iterations alone and loading the
    counter's latest write, finishes with the exact count, whatever the
    orderings.  With `Relaxed` the second holder may instead load the
    initial 0. -/

/-- The thread knows no write of the counter beyond the last, and its
    relaxed writes release none. -/
def Fresh (M : Memory Loc Nat) (T : TView Loc) : Prop :=
  T.cur .counter < (M .counter).length ∧ T.rel .counter < (M .counter).length

/-- The lock is free, and its latest write released no write of the
    counter beyond the last. -/
def Free (M : Memory Loc Nat) : Prop :=
  ∃ m, (M .locked).getLast? = some m ∧ m.val = 0 ∧ m.view .counter < (M .counter).length

theorem Fresh.mono {M M' : Memory Loc Nat} {T : TView Loc} (h : Fresh M T)
    (hle : (M .counter).length ≤ (M' .counter).length) : Fresh M' T :=
  ⟨Nat.lt_of_lt_of_le h.1 hle, Nat.lt_of_lt_of_le h.2 hle⟩

/-- A thread that knows only the initial writes is fresh in any memory. -/
theorem fresh_init {M : Memory Loc Nat} (hM : M .counter ≠ []) : Fresh M TView.init :=
  ⟨List.length_pos_of_ne_nil hM, List.length_pos_of_ne_nil hM⟩

theorem free_init : Free (Memory.init fun _ => 0) := ⟨⟨0, ⊥⟩, rfl, rfl, Nat.zero_lt_one⟩

/-- Steps of the threads, one after another, are steps of the scope. -/
theorem Step.of_acts {acq rel : Views.Ordering} {c c' : Conf}
    (h : ReflTransGen (Interleaving.Step (Act acq rel) noHandOff) c c') :
    ReflTransGen (Step acq rel) c c' :=
  ReflTransGen.mono (fun _ _ => Step.act) _ _ h

section Runs

variable (acq rel : Views.Ordering) (rest : Multiset Thread)

/-- A thread with an iteration to go takes the free lock: its swap reads
    the `false` of the last release, and adds to its view of the counter at
    most what that release released. -/
theorem take_lock {j : Nat} {M : Memory Loc Nat} {T : TView Loc} (hT : Fresh M T) (hf : Free M) :
    ∃ M₁ T₁, ReflTransGen (Step acq rel) ⟨M, .loop (j + 1) T ::ₘ rest⟩ ⟨M₁, .load j T₁ ::ₘ rest⟩ ∧
      M₁ .counter = M .counter ∧ Fresh M₁ T₁ ∧
      (acq.isAcquire = false → T₁.cur .counter = T.cur .counter) := by
  have hne : Loc.counter ≠ Loc.locked := by decide
  obtain ⟨m, hm, hm0, hmv⟩ := hf
  have hu : Update acq .locked (fun _ => 1) T M m.val _ _ := .latest hm
  rw [hm0] at hu
  have hfr := hu.frame hne
  refine ⟨_, _, Step.of_acts ((reach_solo rest .start).tail (.solo rest (.acquire hu))), hfr,
    ⟨?_, ?_⟩, fun ho => ?_⟩
  · rw [hfr, TView.write_cur_ne hne]
    exact Nat.lt_of_le_of_lt (TView.read_cur_le_ne hne) (max_lt hT.1 hmv)
  · rw [hfr]
    exact hT.2
  · rw [TView.write_cur_ne hne, TView.read_cur_ne ho hne]

/-- A holder loads the write of the counter at `ts`, which its view allows. -/
theorem load_at {j ts : Nat} {M : Memory Loc Nat} {T : TView Loc} {m : Msg Loc Nat}
    (hT : Fresh M T) (hts : T.cur .counter ≤ ts) (hm : (M .counter)[ts]? = some m) :
    ∃ T₂, ReflTransGen (Step acq rel) ⟨M, .load j T ::ₘ rest⟩ ⟨M, .store j m.val T₂ ::ₘ rest⟩ ∧
      Fresh M T₂ := by
  have hlt : ts < (M .counter).length := (List.getElem?_eq_some_iff.mp hm).1
  refine ⟨_, Step.of_acts (reach_solo rest (.load (.read ⟨hts, hm⟩))), ?_, hT.2⟩
  -- a relaxed load knows the write it read, and nothing more of the counter
  show (T.read .relaxed .counter ts m.view).cur .counter < _
  rw [TView.read_cur_self rfl hts]
  exact hlt

/-- A holder that loaded `v` stores `v + 1` and releases the lock. -/
theorem release_lock {j v : Nat} {M : Memory Loc Nat} {T : TView Loc} (hT : Fresh M T) :
    ∃ M' T', ReflTransGen (Step acq rel) ⟨M, .store j v T ::ₘ rest⟩ ⟨M', .loop j T' ::ₘ rest⟩ ∧
      Fresh M' T' ∧ Free M' ∧ M'.latest .counter = some (v + 1) ∧
      (M' .counter).length = (M .counter).length + 1 := by
  have hne : Loc.counter ≠ Loc.locked := by decide
  have hlen : ((M.store T .relaxed .counter (v + 1)) .counter).length = (M .counter).length + 1 := by
    rw [Memory.store_self, List.length_append, List.length_singleton]
  have hcur : (T.write .counter (M .counter).length).cur .counter = (M .counter).length :=
    TView.write_cur_self (Nat.le_of_lt hT.1)
  have hfr := Memory.store_ne (M.store T .relaxed .counter (v + 1))
    (T.write .counter (M .counter).length) rel 0 hne
  refine ⟨_, _, Step.of_acts ((reach_solo rest .store).tail (.solo rest .unlock)), ⟨?_, ?_⟩,
    ⟨_, by rw [Memory.store_self, List.getLast?_concat], rfl, ?_⟩, ?_, by rw [hfr, hlen]⟩
  · rw [TView.write_cur_ne hne, hfr, hlen, hcur]
    exact Nat.lt_succ_self _
  · show T.rel .counter < _
    rw [hfr, hlen]
    exact Nat.lt_succ_of_lt hT.2
  -- the release releases the holder's view, or, relaxed, what its relaxed writes release
  · refine Nat.lt_of_le_of_lt (TView.released_le_ne hne) ?_
    rw [hfr, hlen, hcur, View.bot_apply]
    have hrel : (T.write Loc.counter (M Loc.counter).length).rel .counter < (M .counter).length := hT.2
    omega
  · rw [Memory.latest_store_ne _ _ _ _ hne, Memory.latest_store_self]

/-- One iteration alone, loading the latest write: the count goes up by one. -/
theorem iteration {j v : Nat} {M : Memory Loc Nat} {T : TView Loc} (hT : Fresh M T) (hf : Free M)
    (hv : M.latest .counter = some v) :
    ∃ M' T', ReflTransGen (Step acq rel) ⟨M, .loop (j + 1) T ::ₘ rest⟩ ⟨M', .loop j T' ::ₘ rest⟩ ∧
      Fresh M' T' ∧ Free M' ∧ M'.latest .counter = some (v + 1) ∧
      (M' .counter).length = (M .counter).length + 1 := by
  obtain ⟨M₁, T₁, r₁, hc, hT₁, -⟩ := take_lock acq rel rest (j := j) hT hf
  obtain ⟨m, hm, rfl⟩ := Option.map_eq_some_iff.mp hv
  have hlast : (M₁ .counter)[(M₁ .counter).length - 1]? = some m := by
    rw [← List.getLast?_eq_getElem?, hc]
    exact hm
  have hts : T₁.cur .counter ≤ (M₁ .counter).length - 1 := by
    have := hT₁.1
    omega
  obtain ⟨T₂, r₂, hT₂⟩ := load_at acq rel rest (j := j) hT₁ hts hlast
  obtain ⟨M', T', r₃, hT', hf', hv', hlen⟩ := release_lock acq rel rest hT₂
  exact ⟨M', T', (r₁.trans r₂).trans r₃, hT', hf', hv', by rw [hlen, hc]⟩

/-- All of a thread's iterations alone. -/
theorem iterations (j : Nat) : ∀ (v : Nat) (M : Memory Loc Nat) (T : TView Loc), Fresh M T →
    Free M → M.latest .counter = some v →
    ∃ M' T', ReflTransGen (Step acq rel) ⟨M, .loop j T ::ₘ rest⟩ ⟨M', .loop 0 T' ::ₘ rest⟩ ∧
      Free M' ∧ M'.latest .counter = some (v + j) ∧ (M .counter).length ≤ (M' .counter).length := by
  induction j with
  | zero =>
      intro v M T _ hf hv
      exact ⟨M, T, .refl, hf, hv, le_refl _⟩
  | succ j ih =>
      intro v M T hT hf hv
      obtain ⟨M₁, T₁, r₁, hT₁, hf₁, hv₁, hlen₁⟩ := iteration acq rel rest hT hf hv
      obtain ⟨M', T', r', hf', hv', hle⟩ := ih (v + 1) M₁ T₁ hT₁ hf₁ hv₁
      refine ⟨M', T', r₁.trans r', hf', ?_, by omega⟩
      rw [hv', Nat.add_assoc, Nat.add_comm 1 j]

end Runs

/-- Threads that each run all their iterations alone, one after another,
    finish, and the count goes up by all their increments. -/
theorem run_all (acq rel : Views.Ordering) (todo : Multiset Thread) :
    ∀ (fin : Multiset Thread) (M : Memory Loc Nat) (v : Nat),
      (∀ t ∈ todo, ∃ j T, t = .loop j T ∧ Fresh M T) → (∀ t ∈ fin, t.returned = true) →
      Free M → M.latest .counter = some v →
      ∃ c, ReflTransGen (Step acq rel) ⟨M, todo + fin⟩ c ∧ Finished c ∧
        c.shared.latest .counter = some (v + tally Thread.pending todo) := by
  induction todo using Multiset.induction_on with
  | empty =>
      intro fin M v _ hfin _ hv
      refine ⟨⟨M, 0 + fin⟩, .refl, fun t ht => hfin t (by simpa using ht), by simpa using hv⟩
  | cons t todo ih =>
      intro fin M v htodo hfin hf hv
      obtain ⟨j, T, rfl, hT⟩ := htodo _ (Multiset.mem_cons_self _ _)
      obtain ⟨M₁, T₁, r₁, hf₁, hv₁, hle⟩ := iterations acq rel (todo + fin) j v M T hT hf hv
      -- the thread that finished joins those that have
      have hfresh : ∀ u ∈ todo, ∃ j T, u = .loop j T ∧ Fresh M₁ T := by
        intro u hu
        obtain ⟨j', T', hu', hT'⟩ := htodo u (Multiset.mem_cons_of_mem hu)
        exact ⟨j', T', hu', hT'.mono hle⟩
      have hfin' : ∀ u ∈ Thread.loop 0 T₁ ::ₘ fin, u.returned = true := by
        intro u hu
        rcases Multiset.mem_cons.mp hu with rfl | hu
        · rfl
        · exact hfin u hu
      obtain ⟨c, r, hc, hvc⟩ := ih (.loop 0 T₁ ::ₘ fin) M₁ (v + j) hfresh hfin' hf₁ hv₁
      have hmove : Thread.loop 0 T₁ ::ₘ (todo + fin) = todo + (Thread.loop 0 T₁ ::ₘ fin) :=
        (Multiset.add_cons _ _ _).symm
      rw [hmove] at r₁
      refine ⟨c, ?_, hc, ?_⟩
      · rw [Multiset.cons_add]
        exact r₁.trans r
      · rw [hvc, tally_cons, Nat.add_assoc]
        rfl

/-- Whatever the orderings, the run in which the threads take turns, each
    running all its iterations, finishes with the exact count. -/
theorem can_finish (acq rel : Views.Ordering) (n k : Nat) :
    ∃ c, Reachable acq rel n k c ∧ Finished c ∧ c.shared.latest .counter = some (n * k) := by
  have hfresh : ∀ t ∈ Multiset.replicate n (Thread.loop k TView.init),
      ∃ j T, t = .loop j T ∧ Fresh (Memory.init fun _ => 0) T :=
    fun t ht => ⟨k, TView.init, Multiset.eq_of_mem_replicate ht, fresh_init (List.cons_ne_nil _ _)⟩
  obtain ⟨c, r, hc, hv⟩ := run_all acq rel _ 0 (Memory.init fun _ => 0) 0 hfresh (by simp)
    free_init rfl
  rw [add_zero] at r
  refine ⟨c, r, hc, ?_⟩
  rw [hv, tally_replicate, Nat.zero_add]
  rfl

/-- With `Relaxed` orderings, two threads or more with an iteration each or
    more have a run that finishes one short: the second holder loads the
    initial 0, which its view still allows since the swap it took the lock
    with acquired nothing, and stores 1 over the first holder's 1. -/
theorem count_can_fall_short (n k : Nat) (hn : 2 ≤ n) (hk : 1 ≤ k) :
    ∃ c, Reachable .relaxed .relaxed n k c ∧ Finished c ∧
      c.shared.latest .counter = some (n * k - 1) := by
  obtain ⟨n, rfl⟩ : ∃ n', n = n' + 2 := ⟨n - 2, by omega⟩
  obtain ⟨k, rfl⟩ : ∃ k', k = k' + 1 := ⟨k - 1, by omega⟩
  have hinit : init (n + 2) (k + 1) = ⟨Memory.init fun _ => 0, .loop (k + 1) TView.init ::ₘ
      .loop (k + 1) TView.init ::ₘ Multiset.replicate n (.loop (k + 1) TView.init)⟩ := by
    simp only [init, Multiset.replicate_succ]
  -- the first thread runs an iteration, loading the latest write
  obtain ⟨M₁, TA, r₁, hTA, hf₁, hv₁, hlen₁⟩ := iteration .relaxed .relaxed
    (.loop (k + 1) TView.init ::ₘ Multiset.replicate n (.loop (k + 1) TView.init)) (j := k)
    (M := Memory.init fun _ => 0) (fresh_init (List.cons_ne_nil _ _)) free_init rfl
  rw [Multiset.cons_swap (Thread.loop k TA)] at r₁
  have hlen₁' : (M₁ .counter).length = 2 := hlen₁
  -- the second takes the lock knowing only the initial writes
  obtain ⟨M₂, TB₁, r₂, hc₂, hTB₁, hcur⟩ := take_lock .relaxed .relaxed
    (.loop k TA ::ₘ Multiset.replicate n (.loop (k + 1) TView.init)) (j := k)
    (fresh_init (List.ne_nil_of_length_pos (by omega))) hf₁
  obtain ⟨m₀, hm₀⟩ : ∃ m, (M₁ .counter)[0]? = some m :=
    ⟨_, List.getElem?_eq_getElem (by omega)⟩
  -- the write at timestamp 0 is the initial 0: each write is at most its timestamp
  have hreach : Reachable .relaxed .relaxed (n + 2) (k + 1)
      ⟨M₁, .loop (k + 1) TView.init ::ₘ .loop k TA ::ₘ
        Multiset.replicate n (.loop (k + 1) TView.init)⟩ := by
    unfold Reachable
    rw [hinit]
    exact r₁
  have hzero : m₀.val = 0 := Nat.le_zero.mp ((inv_reachable hreach).bounded 0 m₀ hm₀)
  rw [← hc₂] at hm₀
  obtain ⟨TB₂, r₃, hTB₂⟩ := load_at .relaxed .relaxed
    (.loop k TA ::ₘ Multiset.replicate n (.loop (k + 1) TView.init)) (j := k) hTB₁
    (Nat.le_of_eq (hcur rfl)) hm₀
  obtain ⟨M₃, TB, r₄, hTB, hf₃, hv₃, hlen₃⟩ := release_lock .relaxed .relaxed
    (.loop k TA ::ₘ Multiset.replicate n (.loop (k + 1) TView.init)) (j := k) (v := m₀.val) hTB₂
  rw [hzero] at hv₃
  -- then the threads run their other iterations one after another
  have hfresh : ∀ t ∈ Thread.loop k TB ::ₘ .loop k TA ::ₘ
      Multiset.replicate n (.loop (k + 1) TView.init), ∃ j T, t = .loop j T ∧ Fresh M₃ T := by
    intro t ht
    rcases Multiset.mem_cons.mp ht with rfl | ht
    · exact ⟨k, TB, rfl, hTB⟩
    rcases Multiset.mem_cons.mp ht with rfl | ht
    · exact ⟨k, TA, rfl, hTA.mono (by rw [hlen₃, hc₂]; omega)⟩
    · exact ⟨k + 1, TView.init, Multiset.eq_of_mem_replicate ht,
        fresh_init (List.ne_nil_of_length_pos (by omega))⟩
  obtain ⟨c, r₅, hc, hv⟩ := run_all .relaxed .relaxed _ 0 M₃ 1 hfresh (by simp) hf₃ hv₃
  rw [add_zero] at r₅
  refine ⟨c, ?_, hc, ?_⟩
  · unfold Reachable
    rw [hinit]
    exact (((r₁.trans r₂).trans r₃).trans r₄).trans r₅
  · rw [hv]
    simp only [tally_cons, tally_replicate, Thread.pending]
    rw [Nat.add_mul]
    generalize n * (k + 1) = a
    congr 1
    omega

/-- `main`'s first run, at the source's four threads and a million
    iterations. -/
theorem count_can_fall_short_source :
    2 ≤ 4 ∧ 1 ≤ 1000000 ∧ ∃ c, Reachable .relaxed .relaxed 4 1000000 c ∧ Finished c ∧
      c.shared.latest .counter = some (4 * 1000000 - 1) :=
  ⟨by decide, by decide, count_can_fall_short 4 1000000 (by decide) (by decide)⟩

/-- `main`'s second run, at the source's four threads and a million
    iterations, taken one thread after another. -/
theorem count_exact_source :
    ∃ c, Reachable .acquire .release 4 1000000 c ∧ Finished c ∧
      (c.shared.Counts .counter ∧ (Finished c → c.shared.latest .counter = some (4 * 1000000))) := by
  obtain ⟨c, hr, hf, -⟩ := can_finish .acquire .release 4 1000000
  exact ⟨c, hr, hf, count_exact 4 1000000 c hr⟩

/-- `main`'s first run, at the source's four threads and a million
    iterations, taken one thread after another. -/
theorem count_at_most_source :
    ∃ c, Reachable .relaxed .relaxed 4 1000000 c ∧ Finished c ∧
      (tally Thread.holding c.threads ≤ 1 ∧
        c.shared.latest .locked = some (tally Thread.holding c.threads) ∧
        c.shared.Bounded .counter ∧
        (Finished c → ∃ v, c.shared.latest .counter = some v ∧ v ≤ 4 * 1000000)) := by
  obtain ⟨c, hr, hf, -⟩ := can_finish .relaxed .relaxed 4 1000000
  exact ⟨c, hr, hf, count_at_most .relaxed .relaxed 4 1000000 c hr⟩


/-! ## The release goes last

    `locked.store(false, rel)` is a store, not a read-modify-write, and
    `Act.unlock` places its write last.  That is exact: the writes of
    `locked` that a holder has not seen are all `true`s, which only swaps
    write, and a store cannot go between a swap and the write that swap
    read. -/

/-- The writes of `locked` after what a holder knows are all `true`. -/
def Thread.SeesSwaps (M : Memory Loc Nat) : Thread → Prop
  | .load _ T | .store _ _ T | .unlock _ T =>
      ∀ ts m, T.cur .locked < ts → (M .locked)[ts]? = some m → m.val = 1
  | _ => True

theorem Thread.seesSwaps_of_holding {M : Memory Loc Nat} {t : Thread} (h : t.holding = 0) :
    t.SeesSwaps M := by
  cases t with
  | load | store | unlock => cases h
  | loop | swap => trivial

/-- What a holder has not seen stays all `true` while `locked` gains only
    `true`s. -/
theorem Thread.SeesSwaps.of_map_val {M M' : Memory Loc Nat} {t : Thread} (h : t.SeesSwaps M)
    {l : List Nat} (hM : (M' .locked).map Msg.val = (M .locked).map Msg.val ++ l)
    (hl : ∀ v ∈ l, v = 1) : t.SeesSwaps M' := by
  cases t with
  | loop | swap => trivial
  | load _ T | store _ _ T | unlock _ T =>
      intro ts m hts hm
      have hv : ((M' .locked).map Msg.val)[ts]? = some m.val := by
        rw [List.getElem?_map, hm]
        rfl
      rw [hM] at hv
      rcases Nat.lt_or_ge ts (M .locked).length with hlt | hge
      · rw [List.getElem?_append_left (by simpa using hlt), List.getElem?_map] at hv
        obtain ⟨m₀, hm₀, hval⟩ := Option.map_eq_some_iff.mp hv
        rw [← hval]
        exact h ts m₀ hts hm₀
      · rw [List.getElem?_append_right (by simpa using hge)] at hv
        exact hl _ (List.mem_of_getElem? hv)

/-- Shifting the counter changes nothing a thread knows of `locked`. -/
theorem Thread.SeesSwaps.shift {M M' : Memory Loc Nat} {t : Thread} (h : t.SeesSwaps M)
    (hM : (M' .locked).map Msg.val = (M .locked).map Msg.val) (p : Nat) :
    (t.shift p).SeesSwaps M' := by
  have h' := h.of_map_val (l := []) (by rw [hM, List.append_nil]) (by simp)
  cases t with
  | loop | swap => trivial
  | load _ T | store _ _ T | unlock _ T =>
      intro ts m hts hm
      rw [TView.shift_cur, View.shift_ne (by decide)] at hts
      exact h' ts m hts hm

section Act

variable {acq rel : Views.Ordering} {M M' : Memory Loc Nat} {t t' : Thread}

/-- What a step writes to `locked`: `true`s only, unless no other thread
    holds the lock. -/
theorem Act.locked_vals (ha : Act acq rel M t M' t') {h : Nat}
    (hl : M.latest .locked = some (t.holding + h)) (hh : t.holding + h ≤ 1) :
    (∃ l, (M' .locked).map Msg.val = (M .locked).map Msg.val ++ l ∧ ∀ v ∈ l, v = 1) ∨ h = 0 := by
  cases ha with
  | start | load => exact .inl ⟨[], by simp, by simp⟩
  | spin hu =>
      obtain ⟨m, R, -, -, rfl⟩ := hu.append
      exact .inl ⟨[1], by simp, by simp⟩
  | acquire hu =>
      -- the swap read `false`: nobody held the lock
      obtain ⟨hv, -⟩ := hu.latest_eq
      rw [hl, Option.some.injEq] at hv
      exact .inr (by simp only [Thread.holding] at hv; omega)
  | store => exact .inl ⟨[], by rw [Memory.store_ne _ _ _ _ (by decide)]; simp, by simp⟩
  | unlock => exact .inr (by simp only [Thread.holding] at hh; omega)

/-- The stepping thread: its acquiring swap knows its own write, the
    latest, and while it holds the lock it writes only the counter. -/
theorem Act.seesSwaps (ha : Act acq rel M t M' t') (hs : t.SeesSwaps M) : t'.SeesSwaps M' := by
  have hne : Loc.locked ≠ Loc.counter := by decide
  cases ha with
  | start | spin | unlock => trivial
  | acquire hu =>
      obtain ⟨hle, hlen⟩ := hu.length_le_cur
      intro ts m hts hm
      have hlt := (List.getElem?_eq_some_iff.mp hm).1
      omega
  | load hld =>
      cases hld with
      | read _ =>
          intro ts m hts hm
          rw [TView.read_cur_ne rfl hne] at hts
          exact hs ts m hts hm
  | store =>
      intro ts m hts hm
      rw [TView.write_cur_ne hne] at hts
      rw [Memory.store_ne _ _ _ _ hne] at hm
      exact hs ts m hts hm

end Act

theorem seesSwaps_act {acq rel : Views.Ordering} {n k : Nat} {c c' : Conf} (hi : Inv n k c)
    (h : ∀ t ∈ c.threads, t.SeesSwaps c.shared)
    (hs : Interleaving.Step (Act acq rel) noHandOff c c') : ∀ t ∈ c'.threads, t.SeesSwaps c'.shared := by
  cases hs with
  | @solo M M' t t' rest ha =>
      have hl := hi.locked
      have hh := hi.holders
      simp only [tally_cons] at hl hh
      intro u hu
      rcases Multiset.mem_cons.mp hu with rfl | hu
      · exact ha.seesSwaps (h t (Multiset.mem_cons_self t rest))
      · rcases ha.locked_vals hl hh with ⟨l, hM, hl1⟩ | h0
        · exact (h u (Multiset.mem_cons_of_mem hu)).of_map_val hM hl1
        -- the stepping thread took or released the lock: no other holds it
        · exact Thread.seesSwaps_of_holding (tally_eq_zero.mp h0 u hu)
  | duo rest hd => cases hd

/-- A store of the counter placed early changes no write of `locked` and
    nothing a thread knows of it. -/
theorem seesSwaps_storeBefore {j old p : Nat} {M : Memory Loc Nat} {T : TView Loc}
    {rest : Multiset Thread} (h : ∀ t ∈ Thread.store j old T ::ₘ rest, t.SeesSwaps M) :
    ∀ t ∈ Thread.unlock j ((T.shift .counter p).write .counter p) ::ₘ rest.map (Thread.shift p),
      t.SeesSwaps (M.storeAt T .relaxed .counter p (old + 1)) := by
  have hne : Loc.locked ≠ Loc.counter := by decide
  have hM : ((M.storeAt T .relaxed .counter p (old + 1)) .locked).map Msg.val =
      (M .locked).map Msg.val := Memory.map_val_storeAt_ne hne
  intro u hu
  rcases Multiset.mem_cons.mp hu with rfl | hu
  · have hs := (h _ (Multiset.mem_cons_self _ _)).shift hM p
    intro ts m hts hm
    rw [TView.write_cur_ne hne] at hts
    exact hs ts m hts hm
  · obtain ⟨u₀, hu₀, rfl⟩ := Multiset.mem_map.mp hu
    exact (h u₀ (Multiset.mem_cons_of_mem hu₀)).shift hM p

theorem seesSwaps_reachable {acq rel : Views.Ordering} {n k : Nat} {c : Conf}
    (hr : Reachable acq rel n k c) : Inv n k c ∧ ∀ t ∈ c.threads, t.SeesSwaps c.shared := by
  induction hr with
  | refl =>
      refine ⟨inv_init n k, fun t ht => ?_⟩
      rw [Multiset.eq_of_mem_replicate ht]
      trivial
  | tail _ hs ih =>
      refine ⟨inv_step ih.1 hs, ?_⟩
      cases hs with
      | act hs => exact seesSwaps_act ih.1 ih.2 hs
      | storeBefore _ _ => exact seesSwaps_storeBefore ih.2

/-- For any orderings, in every run, the writes of `locked` that a thread
    holding the lock has not seen are all `true`s of swaps that found it
    held: its release, which cannot go between a swap and the write that
    swap read, goes after all of them. -/
theorem release_goes_last (acq rel : Views.Ordering) (n k : Nat) (c : Conf)
    (hr : Reachable acq rel n k c) : ∀ t ∈ c.threads, t.SeesSwaps c.shared :=
  (seesSwaps_reachable hr).2

/-- The view with which the first holder of a `Relaxed` run leaves its swap. -/
def firstHolder : TView Loc := (TView.init.read .relaxed .locked 0 ⊥).write .locked 1

/-- What the first holder's swap releases. -/
def firstReleased : View Loc := (TView.init.read .relaxed .locked 0 ⊥).released .relaxed .locked 1 ⊥

/-- Two threads of one iteration, `Relaxed`: the first took the lock, and
    the second's swap found it held and wrote `true` after it. -/
def spun : Conf :=
  ⟨((Memory.init fun _ => 0).append .locked ⟨1, firstReleased⟩).append .locked
      ⟨1, (TView.init.read .relaxed .locked 1 firstReleased).released .relaxed .locked 2
        firstReleased⟩,
    .swap 0 ((TView.init.read .relaxed .locked 1 firstReleased).write .locked 2) ::ₘ
      .load 0 firstHolder ::ₘ 0⟩

theorem reach_spun : Reachable .relaxed .relaxed 2 1 spun := by
  have e : init 2 1 = ⟨Memory.init fun _ => 0, .loop 1 TView.init ::ₘ .loop 1 TView.init ::ₘ 0⟩ :=
    rfl
  -- the first thread takes the lock, reading the initial `false`
  have hu₁ : Update .relaxed .locked (fun _ => 1) TView.init (Memory.init fun _ => 0) 0 firstHolder
      ((Memory.init fun _ => 0).append .locked ⟨1, firstReleased⟩) :=
    Update.latest (m := ⟨0, ⊥⟩) rfl
  have r₁ : ReflTransGen (Interleaving.Step (Act .relaxed .relaxed) noHandOff) (init 2 1)
      ⟨(Memory.init fun _ => 0).append .locked ⟨1, firstReleased⟩,
        .load 0 firstHolder ::ₘ .loop 1 TView.init ::ₘ 0⟩ := by
    rw [e]
    exact (reach_solo _ .start).tail (.solo _ (.acquire hu₁))
  -- then the second swaps, reading the first's `true`
  have hu₂ : Update .relaxed .locked (fun _ => 1) TView.init
      ((Memory.init fun _ => 0).append .locked ⟨1, firstReleased⟩) 1
      ((TView.init.read .relaxed .locked 1 firstReleased).write .locked 2) spun.shared :=
    Update.latest (m := ⟨1, firstReleased⟩) rfl
  have r₂ : ReflTransGen (Interleaving.Step (Act .relaxed .relaxed) noHandOff)
      ⟨(Memory.init fun _ => 0).append .locked ⟨1, firstReleased⟩,
        .loop 1 TView.init ::ₘ .load 0 firstHolder ::ₘ 0⟩ spun :=
    (reach_solo _ .start).tail (.solo _ (.spin hu₂))
  rw [Multiset.cons_swap] at r₁
  exact Step.of_acts (r₁.trans r₂)

/-- The holder has not seen the latest write of `locked`, the second
    thread's `true`. -/
theorem release_goes_last_spun :
    Reachable .relaxed .relaxed 2 1 spun ∧ Thread.load 0 firstHolder ∈ spun.threads ∧
      firstHolder.cur .locked + 2 = (spun.shared .locked).length ∧
      ∀ t ∈ spun.threads, t.SeesSwaps spun.shared :=
  ⟨reach_spun, by simp [spun], by decide,
    release_goes_last .relaxed .relaxed 2 1 spun reach_spun⟩

end Experiment
