import AtomicsAndLocks.Interleaving

/-! # Spin locks (04-01, 04-02, 04-03, 03-05-01)

    Four locks on one `AtomicBool`, which differ only in how they take it:

    * `04-02_unsafe-spin-lock.rs` and `04-03_safe-interface-with-lock-guard.rs`:
      `lock` loops on `swap(true, Acquire)` until it returns `false`;
    * `04-01_minimum-implementation.rs`: `lock` loops on
      `compare_exchange_weak(false, true, Acquire, Relaxed)` until it
      succeeds, and a weak exchange may fail on `false` too;
    * `03-05-01_lock-example.rs`: `f` tries `compare_exchange(false, true,
      Acquire, Relaxed)` once, and does nothing more if it fails.

    All four release the lock with `store(false, Release)`: `unlock`, which
    the caller of `04-02` may only call once it is done with the `&mut T`,
    `Guard::drop` in `04-03`, and `f`'s own store in `03-05-01`.  Between
    taking and releasing, the holder reads and writes the value in the
    `UnsafeCell` (through the `&mut T`, through `Deref` and `DerefMut`, or
    `DATA` itself), as many times as it likes: a write stores `apply b r`,
    the operation `b` on the value `r` it read, as `push` does on a `Vec` or
    a `String`.  Reads and writes of the cell are plain accesses, one step
    each.

    `Inv` says that `locked` is set exactly when one thread holds the lock,
    that a holder between its read and its write read the current value,
    and that the value is the start value with the logged writes applied in
    order.  It holds for every acquiring access that takes the lock only
    when it is free (`Acquires`); the three kinds of `lock` all do. -/

namespace SpinLock

open Interleaving Relation

variable {α β : Type}

/-- `locked`, the value in the `UnsafeCell`, and a ghost log of the
    operations written to it, in order. -/
structure Lock (α β : Type) where
  locked : Bool
  value : α
  log : List β

inductive Pc (α β : Type) where
  | idle
  /-- In `lock`'s loop: the acquiring access is next. -/
  | spin
  /-- Holding the lock. -/
  | held
  /-- Read `r` through the lock; it writes `apply b r` next. -/
  | write (b : β) (r : α)

/-- The moves every lock shares: the critical section and the release. -/
inductive Common (apply : β → α → α) : Lock α β → Pc α β → Lock α β → Pc α β → Prop
  | read {d : Lock α β} {b : β} : Common apply d .held d (.write b d.value)
  | write {d : Lock α β} {b : β} {r : α} :
      Common apply d (.write b r) { d with value := apply b r, log := d.log ++ [b] } .held
  /-- `locked.store(false, Release)`. -/
  | unlock {d : Lock α β} : Common apply d .held { d with locked := false } .idle

/-- `lock` of `04-02` and `04-03`: `while self.locked.swap(true, Acquire)`. -/
inductive SwapLock : Lock α β → Pc α β → Lock α β → Pc α β → Prop
  | call {d : Lock α β} : SwapLock d .idle d .spin
  /-- `swap(true)` returns `false`: the loop ends. -/
  | acquire {d : Lock α β} (h : d.locked = false) :
      SwapLock d .spin { d with locked := true } .held
  /-- `swap(true)` returns `true`, and writes `true` over it: `spin_loop()`. -/
  | spin {d : Lock α β} (h : d.locked = true) : SwapLock d .spin d .spin

/-- `lock` of `04-01`: `while compare_exchange_weak(false, true, Acquire, Relaxed).is_err()`. -/
inductive WeakCasLock : Lock α β → Pc α β → Lock α β → Pc α β → Prop
  | call {d : Lock α β} : WeakCasLock d .idle d .spin
  | acquire {d : Lock α β} (h : d.locked = false) :
      WeakCasLock d .spin { d with locked := true } .held
  /-- The exchange fails, on `true` or spuriously on `false`: `spin_loop()`. -/
  | fail {d : Lock α β} : WeakCasLock d .spin d .spin

/-- `f` of `03-05-01`: `if LOCKED.compare_exchange(false, true, Acquire, Relaxed).is_ok()`. -/
inductive TryLock : Lock α β → Pc α β → Lock α β → Pc α β → Prop
  | acquire {d : Lock α β} (h : d.locked = false) :
      TryLock d .idle { d with locked := true } .held
  /-- The exchange fails: `f` returns without touching `DATA`. -/
  | fail {d : Lock α β} (h : d.locked = true) : TryLock d .idle d .idle

/-- One step of one thread: an acquiring access or a shared move. -/
def Act (lock : Lock α β → Pc α β → Lock α β → Pc α β → Prop) (apply : β → α → α)
    (d : Lock α β) (t : Pc α β) (d' : Lock α β) (t' : Pc α β) : Prop :=
  lock d t d' t' ∨ Common apply d t d' t'

abbrev Conf (α β : Type) := Interleaving.Conf (Lock α β) (Pc α β)

abbrev Step (lock : Lock α β → Pc α β → Lock α β → Pc α β → Prop) (apply : β → α → α) :
    Conf α β → Conf α β → Prop :=
  Interleaving.Step (Act lock apply) noHandOff

/-- `SpinLock::new(v)` and `n` threads outside it. -/
def init (v : α) (n : Nat) : Conf α β := ⟨⟨false, v, []⟩, Multiset.replicate n .idle⟩

def Reachable (lock : Lock α β → Pc α β → Lock α β → Pc α β → Prop) (apply : β → α → α)
    (v : α) (c : Conf α β) : Prop :=
  ∃ n, ReflTransGen (Step lock apply) (init v n) c

/-- Holding the lock. -/
@[simp] def Pc.holding : Pc α β → Nat
  | .held | .write _ _ => 1
  | _ => 0

/-! ## The invariant -/

structure Inv (apply : β → α → α) (v : α) (c : Conf α β) : Prop where
  /-- `locked` is set exactly when a thread holds the lock. -/
  locked_eq : c.shared.locked.toNat = tally Pc.holding c.threads
  /-- A holder about to write read the current value. -/
  fresh : ∀ b r, Pc.write b r ∈ c.threads → r = c.shared.value
  value_eq : c.shared.value = c.shared.log.foldl (fun r b => apply b r) v

theorem inv_init (apply : β → α → α) (v : α) (n : Nat) : Inv apply v (init v n) where
  locked_eq := by simp [init]
  fresh := by
    intro b r hr
    cases Multiset.eq_of_mem_replicate hr
  value_eq := rfl

section Inv

variable {apply : β → α → α} {v : α} {d d' : Lock α β} {t t' : Pc α β}
  {rest : Multiset (Pc α β)}

/-- The others hold nothing while the stepping thread holds the lock. -/
theorem Inv.rest_zero (h : Inv apply v ⟨d, t ::ₘ rest⟩) (ht : t.holding = 1) :
    tally Pc.holding rest = 0 := by
  have hl := h.locked_eq
  have := Bool.toNat_le d.locked
  simp only [tally_cons] at hl
  omega

/-- Nobody else is about to write while the stepping thread holds the lock. -/
theorem Inv.no_write (h : Inv apply v ⟨d, t ::ₘ rest⟩) (ht : t.holding = 1) :
    ∀ b r, Pc.write b r ∉ rest := by
  intro b r hb
  have h1 := le_tally (f := Pc.holding) hb
  have h0 := h.rest_zero ht
  simp at h1
  omega

/-- What an acquiring access may do: take the free lock, or move between the
    states outside it and leave the lock alone. -/
def Acquires (lock : Lock α β → Pc α β → Lock α β → Pc α β → Prop) : Prop :=
  ∀ {d d' : Lock α β} {t t' : Pc α β}, lock d t d' t' → t.holding = 0 ∧
    ((d.locked = false ∧ t' = .held ∧ d' = { d with locked := true }) ∨
      (d' = d ∧ t'.holding = 0))

/-- Taking the free lock: the thread holds it alone. -/
theorem inv_acquire (h : Inv apply v ⟨d, t ::ₘ rest⟩) (ht : t.holding = 0)
    (hd : d.locked = false) : Inv apply v ⟨{ d with locked := true }, .held ::ₘ rest⟩ := by
  have hl := h.locked_eq
  simp only [tally_cons, hd, ht] at hl
  refine ⟨?_, ?_, h.value_eq⟩
  · simp only [tally_cons]
    simp at hl ⊢
    omega
  · intro b r hb
    -- nobody held the lock, so nobody was about to write
    rcases Multiset.mem_cons.mp hb with he | hb
    · cases he
    · have := le_tally (f := Pc.holding) hb
      simp at this hl
      omega

/-- A move outside the lock changes nothing shared. -/
theorem inv_outside (h : Inv apply v ⟨d, t ::ₘ rest⟩) (ht : t.holding = 0)
    (ht' : t'.holding = 0) : Inv apply v ⟨d, t' ::ₘ rest⟩ := by
  have hl := h.locked_eq
  simp only [tally_cons, ht] at hl
  refine ⟨by simp only [tally_cons, ht']; exact hl, ?_, h.value_eq⟩
  intro b r hb
  rcases Multiset.mem_cons.mp hb with rfl | hb
  · simp at ht'
  · exact h.fresh b r (Multiset.mem_cons_of_mem hb)

theorem inv_common (h : Inv apply v ⟨d, t ::ₘ rest⟩) (hs : Common apply d t d' t') :
    Inv apply v ⟨d', t' ::ₘ rest⟩ := by
  cases hs with
  | read =>
      refine ⟨by simpa using h.locked_eq, ?_, h.value_eq⟩
      intro b r hb
      rcases Multiset.mem_cons.mp hb with he | hb
      · cases he
        rfl
      · exact absurd hb (h.no_write rfl b r)
  | @write b r =>
      have hr : r = d.value := h.fresh b r (Multiset.mem_cons_self _ _)
      refine ⟨by simpa using h.locked_eq, ?_, ?_⟩
      · intro b' r' hb
        rcases Multiset.mem_cons.mp hb with he | hb
        · cases he
        · exact absurd hb (h.no_write rfl b' r')
      -- the only holder applies its operation to the current value
      · show apply b r = (d.log ++ [b]).foldl (fun r b => apply b r) v
        rw [List.foldl_append, List.foldl_cons, List.foldl_nil, ← h.value_eq, hr]
  | unlock =>
      have h0 := h.rest_zero rfl
      refine ⟨?_, ?_, h.value_eq⟩
      · simp [h0]
      · intro b r hb
        rcases Multiset.mem_cons.mp hb with he | hb
        · cases he
        · exact absurd hb (h.no_write rfl b r)

theorem inv_step {lock : Lock α β → Pc α β → Lock α β → Pc α β → Prop} (hk : Acquires lock)
    {c c' : Conf α β} (h : Inv apply v c) (hs : Step lock apply c c') : Inv apply v c' := by
  cases hs with
  | duo rest hh => exact hh.elim
  | solo rest ha =>
      rcases ha with hl | hc
      · obtain ⟨ht, ⟨hd, rfl, rfl⟩ | ⟨rfl, ht'⟩⟩ := hk hl
        · exact inv_acquire h ht hd
        · exact inv_outside h ht ht'
      · exact inv_common h hc

end Inv

theorem inv_reachable {lock : Lock α β → Pc α β → Lock α β → Pc α β → Prop}
    (hk : Acquires lock) {apply : β → α → α} {v : α} {c : Conf α β}
    (hr : Reachable lock apply v c) : Inv apply v c := by
  obtain ⟨n, hr⟩ := hr
  induction hr with
  | refl => exact inv_init apply v n
  | tail _ hs ih => exact inv_step hk ih hs

/-! ## The three ways to take the lock -/

theorem acquires_swapLock : Acquires (SwapLock (α := α) (β := β)) := by
  intro d d' t t' hs
  cases hs with
  | call => exact ⟨rfl, .inr ⟨rfl, rfl⟩⟩
  | acquire h => exact ⟨rfl, .inl ⟨h, rfl, rfl⟩⟩
  | spin => exact ⟨rfl, .inr ⟨rfl, rfl⟩⟩

theorem acquires_weakCasLock : Acquires (WeakCasLock (α := α) (β := β)) := by
  intro d d' t t' hs
  cases hs with
  | call => exact ⟨rfl, .inr ⟨rfl, rfl⟩⟩
  | acquire h => exact ⟨rfl, .inl ⟨h, rfl, rfl⟩⟩
  | fail => exact ⟨rfl, .inr ⟨rfl, rfl⟩⟩

theorem acquires_tryLock : Acquires (TryLock (α := α) (β := β)) := by
  intro d d' t t' hs
  cases hs with
  | acquire h => exact ⟨rfl, .inl ⟨h, rfl, rfl⟩⟩
  | fail => exact ⟨rfl, .inr ⟨rfl, rfl⟩⟩

/-! ## What every run guarantees -/

theorem Inv.holding_le {apply : β → α → α} {v : α} {c : Conf α β} (h : Inv apply v c) :
    tally Pc.holding c.threads ≤ 1 :=
  h.locked_eq ▸ Bool.toNat_le c.shared.locked

/-- For each of the three ways to take the lock, any number of threads, any
    critical sections and any interleaving, in every reachable
    configuration: at most one thread holds the lock, and `locked` is set
    exactly when one does; a holder about to write read the current value;
    and the value is the start value with every write made under the lock
    applied in the order the writes were made, so no write is lost. -/
theorem lock_serializes (apply : β → α → α) (v : α) (c : Conf α β)
    (hr : Reachable SwapLock apply v c ∨ Reachable WeakCasLock apply v c ∨
      Reachable TryLock apply v c) :
    tally Pc.holding c.threads ≤ 1 ∧
    (c.shared.locked = true ↔ tally Pc.holding c.threads = 1) ∧
    (∀ b r, Pc.write b r ∈ c.threads → r = c.shared.value) ∧
    c.shared.value = c.shared.log.foldl (fun r b => apply b r) v := by
  have h : Inv apply v c := by
    rcases hr with hr | hr | hr
    · exact inv_reachable acquires_swapLock hr
    · exact inv_reachable acquires_weakCasLock hr
    · exact inv_reachable acquires_tryLock hr
  refine ⟨h.holding_le, ?_, h.fresh, h.value_eq⟩
  rw [← h.locked_eq]
  cases c.shared.locked <;> simp

/-- One thread has taken the lock and added 5 to the value, 0. -/
def addedFive : Conf Nat Nat := ⟨⟨true, 5, [5]⟩, {.held}⟩

theorem reach_addedFive : Reachable SwapLock (fun b r => r + b) 0 addedFive := by
  refine ⟨1, ?_⟩
  have s1 : ReflTransGen (Step SwapLock (fun b r => r + b)) (init 0 1) ⟨⟨false, 0, []⟩, {.spin}⟩ :=
    reach_solo 0 (.inl SwapLock.call)
  have s2 : ReflTransGen (Step SwapLock (fun b r => r + b)) ⟨⟨false, 0, []⟩, {.spin}⟩
      ⟨⟨true, 0, []⟩, {.held}⟩ := reach_solo 0 (.inl (SwapLock.acquire rfl))
  have s3 : ReflTransGen (Step SwapLock (fun b r => r + b)) ⟨⟨true, 0, []⟩, {.held}⟩
      ⟨⟨true, 0, []⟩, {.write 5 0}⟩ := reach_solo 0 (.inr Common.read)
  have s4 : ReflTransGen (Step SwapLock (fun b r => r + b)) ⟨⟨true, 0, []⟩, {.write 5 0}⟩
      addedFive := reach_solo 0 (.inr Common.write)
  exact s1.trans (s2.trans (s3.trans s4))

theorem lock_serializes_addedFive :
    (Reachable SwapLock (fun b r => r + b) 0 addedFive ∨
      Reachable WeakCasLock (fun b r => r + b) 0 addedFive ∨
      Reachable TryLock (fun b r => r + b) 0 addedFive) ∧
    (tally Pc.holding addedFive.threads ≤ 1 ∧
      (addedFive.shared.locked = true ↔ tally Pc.holding addedFive.threads = 1) ∧
      (∀ b r, Pc.write b r ∈ addedFive.threads → r = addedFive.shared.value) ∧
      addedFive.shared.value = addedFive.shared.log.foldl (fun r b => r + b) 0) :=
  have hr : Reachable SwapLock (fun b r => r + b) 0 addedFive ∨
      Reachable WeakCasLock (fun b r => r + b) 0 addedFive ∨
      Reachable TryLock (fun b r => r + b) 0 addedFive := .inl reach_addedFive
  ⟨hr, lock_serializes (fun b r => r + b) 0 addedFive hr⟩

end SpinLock
