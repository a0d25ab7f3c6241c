import AtomicsAndLocks.Interleaving

/-! # A channel from a `Mutex` and a `Condvar` (05-01_simple-channel-with-mutex.rs)

    `Channel<T>` is a `Mutex<VecDeque<T>>` and a `Condvar`.  `send` locks the
    queue, `push_back`s the message, drops the temporary guard at the end of
    the statement and calls `notify_one`.  `receive` locks the queue and
    loops: `pop_front` returns a message, or `item_ready.wait(queue)` unlocks
    the queue and blocks, and locks it again before it returns.  Any number
    of threads call `send` and `receive`, in any order and as often as they
    like; the consumer and the producer of `01-08-02_condition_variables.rs`
    run the same statements.

    The `Mutex` and the `Condvar` are std's, as documented: `lock` waits
    until the lock is free and takes it; `wait` unlocks and blocks in one
    step, may return spuriously, and locks again before it returns;
    `notify_one` unblocks one blocked thread if there is one.  The
    `Condvar`'s count of blocked threads is part of the shared state.
    `VecDeque`'s methods are not atomic: `push_back` and `pop_front` read the
    queue in one step and write it in the next, so two of them at once would
    lose a message.  Nothing in the channel panics, so the `Mutex` is never
    poisoned and the `unwrap`s never fire.

    `Inv` says that the `Mutex` is locked exactly when one thread holds the
    guard; that a thread inside `push_back` or `pop_front` read the queue as
    it is; that the messages popped, followed by the queue, are the messages
    pushed, in order; and that while a receiver is blocked in `wait`, every
    queued message has a receiver awake in `receive` or a sender yet to call
    `notify_one` to answer for it. -/

namespace MutexChannel

open Interleaving Relation

variable {α : Type}

/-- The shared state: the `Mutex`'s lock, the `VecDeque` it protects, the
    threads blocked on the `Condvar`, and ghost logs of the messages pushed
    and popped, in order. -/
structure Chan (α : Type) where
  locked : Bool
  queue : List α
  waiters : Nat
  sent : List α
  received : List α

/-- Where a thread stands in `send` or `receive`. -/
inductive Pc (α : Type) where
  | idle
  /-- `send(m)`: `self.queue.lock()` is next. -/
  | sendLock (m : α)
  /-- Holding the guard: `push_back(m)` reads the queue next. -/
  | sendPush (m : α)
  /-- `push_back(m)` read the queue `q`; it writes `q` with `m` at the back next. -/
  | sendWrite (m : α) (q : List α)
  /-- The temporary guard is dropped at the end of the statement. -/
  | sendUnlock
  /-- `self.item_ready.notify_one()` is next. -/
  | sendNotify
  /-- `receive()`: `self.queue.lock()` is next. -/
  | recvLock
  /-- Holding the guard at the head of the loop: `pop_front()` reads the queue next. -/
  | recvPop
  /-- `pop_front()` found `m` in front of `q`; it writes `q` next. -/
  | recvTake (m : α) (q : List α)
  /-- `pop_front()` returned `None`: `self.item_ready.wait(queue)` is next. -/
  | recvWait
  /-- `return message` drops the guard. -/
  | recvReturn (m : α)
  /-- Blocked in `wait`, the guard given up. -/
  | waiting
  /-- Unblocked: `wait` locks the `Mutex` again before it returns. -/
  | relock
  deriving DecidableEq

/-- One step of one thread. -/
inductive Act : Chan α → Pc α → Chan α → Pc α → Prop
  /-- A thread calls `send(m)`. -/
  | send {d : Chan α} {m : α} : Act d .idle d (.sendLock m)
  /-- `lock()` takes the free lock. -/
  | sendLock {d : Chan α} {m : α} (h : d.locked = false) :
      Act d (.sendLock m) { d with locked := true } (.sendPush m)
  | pushRead {d : Chan α} {m : α} : Act d (.sendPush m) d (.sendWrite m d.queue)
  | pushWrite {d : Chan α} {m : α} {q : List α} :
      Act d (.sendWrite m q) { d with queue := q ++ [m], sent := d.sent ++ [m] } .sendUnlock
  | sendUnlock {d : Chan α} : Act d .sendUnlock { d with locked := false } .sendNotify
  /-- `notify_one()` with no thread blocked. -/
  | notifyNone {d : Chan α} (h : d.waiters = 0) : Act d .sendNotify d .idle
  /-- A thread calls `receive()`. -/
  | receive {d : Chan α} : Act d .idle d .recvLock
  /-- `lock()` takes the free lock. -/
  | recvLock {d : Chan α} (h : d.locked = false) :
      Act d .recvLock { d with locked := true } .recvPop
  /-- `pop_front()` reads a queue with `m` in front. -/
  | popRead {d : Chan α} {m : α} {q : List α} (h : d.queue = m :: q) :
      Act d .recvPop d (.recvTake m q)
  /-- `pop_front()` writes the rest of the queue and returns `Some(m)`. -/
  | popWrite {d : Chan α} {m : α} {q : List α} :
      Act d (.recvTake m q) { d with queue := q, received := d.received ++ [m] } (.recvReturn m)
  /-- `pop_front()` reads an empty queue and returns `None`. -/
  | popEmpty {d : Chan α} (h : d.queue = []) : Act d .recvPop d .recvWait
  /-- `wait(queue)` unlocks and blocks, in one step. -/
  | wait {d : Chan α} :
      Act d .recvWait { d with locked := false, waiters := d.waiters + 1 } .waiting
  /-- `wait` returns spuriously; it locks again next. -/
  | spurious {d : Chan α} : Act d .waiting { d with waiters := d.waiters - 1 } .relock
  /-- `wait` takes the free lock and returns the guard: the loop goes round. -/
  | relock {d : Chan α} (h : d.locked = false) :
      Act d .relock { d with locked := true } .recvPop
  | recvReturn {d : Chan α} {m : α} : Act d (.recvReturn m) { d with locked := false } .idle

/-- `notify_one()` unblocks one thread blocked in `wait`, which locks again next. -/
inductive Notify : Chan α → Pc α → Pc α → Chan α → Pc α → Pc α → Prop
  | one {d : Chan α} (h : 0 < d.waiters) :
      Notify d .sendNotify .waiting { d with waiters := d.waiters - 1 } .idle .relock

abbrev Conf (α : Type) := Interleaving.Conf (Chan α) (Pc α)

abbrev Step : Conf α → Conf α → Prop := Interleaving.Step Act Notify

/-- `Channel::default()` and `n` threads that have called neither method. -/
def init (n : Nat) : Conf α := ⟨⟨false, [], 0, [], []⟩, Multiset.replicate n .idle⟩

def Reachable (c : Conf α) : Prop := ∃ n, ReflTransGen Step (init n) c

/-! ## Counting threads by where they stand -/

namespace Pc

/-- Holding the guard: from `lock` to the drop of the guard or to `wait`. -/
@[simp] def holding : Pc α → Nat
  | .sendPush _ | .sendWrite _ _ | .sendUnlock | .recvPop | .recvTake _ _ | .recvWait
  | .recvReturn _ => 1
  | _ => 0

/-- Blocked in `wait`. -/
@[simp] def sleeping : Pc α → Nat
  | .waiting => 1
  | _ => 0

/-- In `receive`, bound to look at the queue before it blocks again. -/
@[simp] def awake : Pc α → Nat
  | .recvLock | .recvPop | .recvTake _ _ | .relock => 1
  | _ => 0

/-- Pushed its message, and has not called `notify_one`. -/
@[simp] def pending : Pc α → Nat
  | .sendUnlock | .sendNotify => 1
  | _ => 0

/-- What a thread inside `push_back` or `pop_front` read of the queue is the queue. -/
def Sees (queue : List α) : Pc α → Prop
  | .sendWrite _ q => q = queue
  | .recvTake m q => queue = m :: q
  | .recvWait => queue = []
  | _ => True

/-- Only a thread holding the guard has read the queue. -/
theorem sees_of_holding {p : Pc α} (h : p.holding = 0) (queue : List α) : p.Sees queue := by
  cases p with
  | sendWrite | recvTake | recvWait => simp at h
  | idle | sendLock | sendPush | sendUnlock | sendNotify | recvLock | recvPop | recvReturn
  | waiting | relock => trivial

end Pc

/-! ## The invariant -/

structure Inv (c : Conf α) : Prop where
  /-- The `Mutex` is locked exactly when a thread holds the guard. -/
  locked_eq : c.shared.locked.toNat = tally Pc.holding c.threads
  waiters_eq : c.shared.waiters = tally Pc.sleeping c.threads
  /-- While a receiver is blocked, every queued message has somebody to answer for it. -/
  covered : 0 < c.shared.waiters →
    c.shared.queue.length ≤ tally Pc.awake c.threads + tally Pc.pending c.threads
  sees : ∀ t ∈ c.threads, t.Sees c.shared.queue
  /-- The messages popped, then the queue: the messages pushed, in order. -/
  fifo : c.shared.received ++ c.shared.queue = c.shared.sent

theorem inv_init (n : Nat) : Inv (init n : Conf α) where
  locked_eq := by simp [init]
  waiters_eq := by simp [init]
  covered := by simp [init]
  sees := by
    intro t ht
    rw [Multiset.eq_of_mem_replicate ht]
    trivial
  fifo := rfl

/-- At most one thread holds the guard. -/
theorem Inv.holding_le {c : Conf α} (h : Inv c) : tally Pc.holding c.threads ≤ 1 :=
  h.locked_eq ▸ Bool.toNat_le c.shared.locked

/-- `Inv`'s counting fields at `t ::ₘ rest`, with `rest`'s tallies `H S A P`. -/
def Counts (locked : Bool) (waiters len : Nat) (t : Pc α) (H S A P : Nat) : Prop :=
  locked.toNat = t.holding + H ∧ waiters = t.sleeping + S ∧
    (0 < waiters → len ≤ t.awake + A + (t.pending + P))

section Steps

variable {d d' : Chan α} {t t' : Pc α} {H S A P : Nat}

/-- **ONE STEP KEEPS THE COUNTS**, the thread having read the queue as it is. -/
theorem Act.counts (hs : Act d t d' t') (hsees : t.Sees d.queue)
    (hc : Counts d.locked d.waiters d.queue.length t H S A P) :
    Counts d'.locked d'.waiters d'.queue.length t' H S A P := by
  have hl := Bool.toNat_le d.locked
  simp only [Counts] at hc ⊢
  cases hs with
  | pushWrite =>
      -- the queue grows by the message, and the sender owes a `notify_one`
      have hq : _ = d.queue := hsees
      simp [hq] at hc ⊢
      omega
  | popWrite =>
      have hq : d.queue = _ := hsees
      simp [hq] at hc ⊢
      omega
  | wait =>
      -- the receiver blocks on an empty queue
      have hq : d.queue = [] := hsees
      simp [hq] at hc ⊢
      omega
  | sendLock h | recvLock h | relock h | notifyNone h | popEmpty h =>
      simp [h] at hc ⊢
      omega
  | send | pushRead | sendUnlock | receive | popRead | spurious | recvReturn =>
      simp at hc ⊢
      omega

/-- The thread that stepped read the queue as it now is. -/
theorem Act.sees (hs : Act d t d' t') : t'.Sees d'.queue := by
  cases hs with
  | pushRead => rfl
  | popRead h => exact h
  | popEmpty h => exact h
  | send | sendLock | pushWrite | sendUnlock | notifyNone | receive | recvLock | popWrite
  | wait | spurious | relock | recvReturn => trivial

/-- Only a holder of the guard changes the queue. -/
theorem Act.queue_eq (hs : Act d t d' t') (ht : t.holding = 0) : d'.queue = d.queue := by
  cases hs with
  | pushWrite | popWrite => simp at ht
  | send | sendLock | pushRead | sendUnlock | notifyNone | receive | recvLock | popRead
  | popEmpty | wait | spurious | relock | recvReturn => rfl

/-- The push appends to the queue what it appends to the log of sends, and the
    pop moves the front of the queue to the log of receives. -/
theorem Act.fifo (hs : Act d t d' t') (hsees : t.Sees d.queue)
    (hf : d.received ++ d.queue = d.sent) : d'.received ++ d'.queue = d'.sent := by
  cases hs with
  | pushWrite =>
      have hq : _ = d.queue := hsees
      show d.received ++ (_ ++ [_]) = d.sent ++ [_]
      rw [hq, ← List.append_assoc, hf]
  | popWrite =>
      have hq : d.queue = _ := hsees
      show (d.received ++ [_]) ++ _ = d.sent
      rw [List.append_assoc, List.singleton_append, ← hq, hf]
  | send | sendLock | pushRead | sendUnlock | notifyNone | receive | recvLock | popRead
  | popEmpty | wait | spurious | relock | recvReturn => exact hf

end Steps

theorem inv_solo {d d' : Chan α} {t t' : Pc α} {rest : Multiset (Pc α)}
    (h : Inv ⟨d, t ::ₘ rest⟩) (hs : Act d t d' t') : Inv ⟨d', t' ::ₘ rest⟩ := by
  obtain ⟨hl, hw, hcov, hsees, hf⟩ := h
  have ht := hsees t (Multiset.mem_cons_self t rest)
  simp only [tally_cons] at hl hw hcov
  have hc : Counts d.locked d.waiters d.queue.length t (tally Pc.holding rest)
      (tally Pc.sleeping rest) (tally Pc.awake rest) (tally Pc.pending rest) := ⟨hl, hw, hcov⟩
  obtain ⟨hl', hw', hcov'⟩ := hs.counts ht hc
  refine ⟨by simpa using hl', by simpa using hw', by simpa using hcov', ?_, hs.fifo ht hf⟩
  intro u hu
  rcases Multiset.mem_cons.mp hu with rfl | hu
  · exact hs.sees
  · by_cases hh : t.holding = 0
    -- the queue is as the others read it
    · rw [hs.queue_eq hh]
      exact hsees u (Multiset.mem_cons_of_mem hu)
    -- the stepping thread holds the guard, so no other thread has read the queue
    · have hu0 : u.holding = 0 := by
        have := le_tally (f := Pc.holding) hu
        have := Bool.toNat_le d.locked
        omega
      exact Pc.sees_of_holding hu0 _

theorem inv_notify {d d' : Chan α} {t u t' u' : Pc α} {rest : Multiset (Pc α)}
    (h : Inv ⟨d, t ::ₘ u ::ₘ rest⟩) (hs : Notify d t u d' t' u') :
    Inv ⟨d', t' ::ₘ u' ::ₘ rest⟩ := by
  cases hs with
  | one h0 =>
      obtain ⟨hl, hw, hcov, hsees, hf⟩ := h
      simp only [tally_cons] at hl hw hcov
      -- the sleeper goes to look at the queue in place of the notifier's debt
      refine ⟨by simpa using hl, ?_, ?_, ?_, hf⟩
      · simp at hw ⊢
        omega
      · simp at hw hcov ⊢
        omega
      · intro v hv
        rcases Multiset.mem_cons.mp hv with rfl | hv
        · trivial
        rcases Multiset.mem_cons.mp hv with rfl | hv
        · trivial
        · exact hsees v (by simp [hv])

theorem inv_step {c c' : Conf α} (h : Inv c) (hs : Step c c') : Inv c' := by
  cases hs with
  | solo rest ha => exact inv_solo h ha
  | duo rest hn => exact inv_notify h hn

theorem inv_reachable {c : Conf α} (hr : Reachable c) : Inv c := by
  obtain ⟨n, hr⟩ := hr
  induction hr with
  | refl => exact inv_init n
  | tail _ hs ih => exact inv_step ih hs

/-! ## What every run guarantees -/

/-- A thread blocked in `wait` is one the `Condvar` counts. -/
theorem sleeping_pos {m : Multiset (Pc α)} (h : Pc.waiting ∈ m) : 0 < tally Pc.sleeping m :=
  Nat.lt_of_lt_of_le Nat.zero_lt_one (le_tally (f := Pc.sleeping) h)

/-- For any number of threads calling `send` and `receive` in any order, in
    every reachable configuration: at most one thread holds the guard, and
    the `Mutex` is locked exactly when one does; a thread inside `push_back`
    or `pop_front` works on the queue as it is, so no push or pop is lost to
    another; and the messages popped, followed by the queue, are the
    messages pushed: `receive` hands out every message sent once, in the
    order of the `push_back`s. -/
theorem receives_in_send_order (c : Conf α) (hr : Reachable c) :
    tally Pc.holding c.threads ≤ 1 ∧
    (c.shared.locked = true ↔ tally Pc.holding c.threads = 1) ∧
    (∀ m q, Pc.sendWrite m q ∈ c.threads → q = c.shared.queue) ∧
    (∀ m q, Pc.recvTake m q ∈ c.threads → c.shared.queue = m :: q) ∧
    c.shared.received ++ c.shared.queue = c.shared.sent := by
  have h := inv_reachable hr
  refine ⟨h.holding_le, ?_, fun m q hm => h.sees _ hm, fun m q hm => h.sees _ hm, h.fifo⟩
  rw [← h.locked_eq]
  cases c.shared.locked <;> simp

/-- **NO LOST WAKEUP.** For any number of threads calling `send` and
    `receive` in any order, in every reachable configuration: the
    `Condvar` counts the receivers blocked in `wait`; while one is blocked,
    the queue holds no more messages than there are receivers awake in
    `receive` and senders yet to call `notify_one`; so once every thread is
    between calls or blocked in `wait`, a blocked receiver means an empty
    queue. -/
theorem waiter_not_stranded (c : Conf α) (hr : Reachable c) :
    c.shared.waiters = tally Pc.sleeping c.threads ∧
    (Pc.waiting ∈ c.threads →
      c.shared.queue.length ≤ tally Pc.awake c.threads + tally Pc.pending c.threads) ∧
    ((∀ t ∈ c.threads, t = .idle ∨ t = .waiting) → Pc.waiting ∈ c.threads →
      c.shared.queue = []) := by
  have h := inv_reachable hr
  have hcov : Pc.waiting ∈ c.threads →
      c.shared.queue.length ≤ tally Pc.awake c.threads + tally Pc.pending c.threads := by
    intro hw
    exact h.covered (h.waiters_eq ▸ sleeping_pos hw)
  refine ⟨h.waiters_eq, hcov, ?_⟩
  intro hq hw
  -- nobody is awake in `receive` and nobody owes a `notify_one`
  have hA : tally Pc.awake c.threads = 0 := by
    refine tally_eq_zero.mpr fun t ht => ?_
    rcases hq t ht with rfl | rfl <;> rfl
  have hP : tally Pc.pending c.threads = 0 := by
    refine tally_eq_zero.mpr fun t ht => ?_
    rcases hq t ht with rfl | rfl <;> rfl
  have hlen := hcov hw
  rw [hA, hP] at hlen
  exact List.eq_nil_of_length_eq_zero (Nat.le_zero.mp hlen)

/-- A receiver blocked in `wait`, and a sender that has pushed 7 and is about
    to call `notify_one`. -/
def notifyPending : Conf Nat := ⟨⟨false, [7], 1, [7], []⟩, .sendNotify ::ₘ .waiting ::ₘ 0⟩

theorem reach_notifyPending : Reachable notifyPending := by
  refine ⟨2, ?_⟩
  have e0 : (init 2 : Conf Nat) = ⟨⟨false, [], 0, [], []⟩, .idle ::ₘ .idle ::ₘ 0⟩ := by
    simp only [init, Multiset.replicate_succ, Multiset.replicate_zero]
  -- the receiver finds the queue empty and blocks
  have r1 : ReflTransGen (Step (α := Nat)) (init 2) ⟨⟨false, [], 0, [], []⟩, .recvLock ::ₘ .idle ::ₘ 0⟩ := by
    rw [e0]
    exact reach_solo _ Act.receive
  have r2 : ReflTransGen (Step (α := Nat)) ⟨⟨false, [], 0, [], []⟩, .recvLock ::ₘ .idle ::ₘ 0⟩
      ⟨⟨true, [], 0, [], []⟩, .recvPop ::ₘ .idle ::ₘ 0⟩ := reach_solo _ (Act.recvLock rfl)
  have r3 : ReflTransGen (Step (α := Nat)) ⟨⟨true, [], 0, [], []⟩, .recvPop ::ₘ .idle ::ₘ 0⟩
      ⟨⟨true, [], 0, [], []⟩, .recvWait ::ₘ .idle ::ₘ 0⟩ := reach_solo _ (Act.popEmpty rfl)
  have r4 : ReflTransGen (Step (α := Nat)) ⟨⟨true, [], 0, [], []⟩, .recvWait ::ₘ .idle ::ₘ 0⟩
      ⟨⟨false, [], 1, [], []⟩, .waiting ::ₘ .idle ::ₘ 0⟩ := reach_solo _ Act.wait
  -- the sender pushes 7 and drops the guard
  have e : (Pc.waiting ::ₘ Pc.idle ::ₘ 0 : Multiset (Pc Nat)) = .idle ::ₘ .waiting ::ₘ 0 :=
    Multiset.cons_swap _ _ _
  have s1 : ReflTransGen (Step (α := Nat)) ⟨⟨false, [], 1, [], []⟩, .idle ::ₘ .waiting ::ₘ 0⟩
      ⟨⟨false, [], 1, [], []⟩, .sendLock 7 ::ₘ .waiting ::ₘ 0⟩ := reach_solo _ Act.send
  have s2 : ReflTransGen (Step (α := Nat)) ⟨⟨false, [], 1, [], []⟩, .sendLock 7 ::ₘ .waiting ::ₘ 0⟩
      ⟨⟨true, [], 1, [], []⟩, .sendPush 7 ::ₘ .waiting ::ₘ 0⟩ := reach_solo _ (Act.sendLock rfl)
  have s3 : ReflTransGen (Step (α := Nat)) ⟨⟨true, [], 1, [], []⟩, .sendPush 7 ::ₘ .waiting ::ₘ 0⟩
      ⟨⟨true, [], 1, [], []⟩, .sendWrite 7 [] ::ₘ .waiting ::ₘ 0⟩ := reach_solo _ Act.pushRead
  have s4 : ReflTransGen (Step (α := Nat)) ⟨⟨true, [], 1, [], []⟩, .sendWrite 7 [] ::ₘ .waiting ::ₘ 0⟩
      ⟨⟨true, [7], 1, [7], []⟩, .sendUnlock ::ₘ .waiting ::ₘ 0⟩ := reach_solo _ Act.pushWrite
  have s5 : ReflTransGen (Step (α := Nat)) ⟨⟨true, [7], 1, [7], []⟩, .sendUnlock ::ₘ .waiting ::ₘ 0⟩
      notifyPending := reach_solo _ Act.sendUnlock
  rw [e] at r4
  exact r1.trans (r2.trans (r3.trans (r4.trans (s1.trans (s2.trans (s3.trans (s4.trans s5)))))))

theorem receives_in_send_order_notifyPending :
    Reachable notifyPending ∧
    (tally Pc.holding notifyPending.threads ≤ 1 ∧
      (notifyPending.shared.locked = true ↔ tally Pc.holding notifyPending.threads = 1) ∧
      (∀ m q, Pc.sendWrite m q ∈ notifyPending.threads → q = notifyPending.shared.queue) ∧
      (∀ m q, Pc.recvTake m q ∈ notifyPending.threads → notifyPending.shared.queue = m :: q) ∧
      notifyPending.shared.received ++ notifyPending.shared.queue = notifyPending.shared.sent) :=
  ⟨reach_notifyPending, receives_in_send_order notifyPending reach_notifyPending⟩

theorem waiter_not_stranded_notifyPending :
    Reachable notifyPending ∧
    (notifyPending.shared.waiters = tally Pc.sleeping notifyPending.threads ∧
      (Pc.waiting ∈ notifyPending.threads →
        notifyPending.shared.queue.length ≤
          tally Pc.awake notifyPending.threads + tally Pc.pending notifyPending.threads) ∧
      ((∀ t ∈ notifyPending.threads, t = .idle ∨ t = .waiting) →
        Pc.waiting ∈ notifyPending.threads → notifyPending.shared.queue = [])) :=
  ⟨reach_notifyPending, waiter_not_stranded notifyPending reach_notifyPending⟩

end MutexChannel
