import AtomicsAndLocks.Interleaving

/-! # The futex mutexes — the model

    Three `Mutex`es built on one `AtomicU32` and the futex calls `wait` and
    `wake_one` of the `atomic-wait` crate:

    * `09-01_mutex.rs`: states 0 (unlocked) and 1 (locked); `lock` loops on
      `swap(1)` and sleeps with `wait(&state, 1)`; `drop` swaps 0 and always
      calls `wake_one`;
    * `09-01-01_avoiding-system-call.rs`: a third state 2 (locked, maybe
      waiters); `lock` tries `compare_exchange(0, 1)`, then loops on `swap(2)`
      and sleeps with `wait(&state, 2)`; `drop` calls `wake_one` only if its
      `swap(0)` returned 2;
    * `09-01-02_further-improvements.rs`: the same, but a failed first try
      enters `lock_contented`, which spins while the state is 1 (at most 100
      loads), tries `compare_exchange(0, 1)` once more, and only then loops
      on `swap(2)`.

    Every thread runs `lock`, a critical section that reads the protected
    value and writes `f` of it, and `MutexGuard::drop`, over and over.  Each
    atomic access is one step; the futex is the documented one: `wait(s, v)`
    checks `s == v` and goes to sleep in one step, a sleeper may wake
    spuriously, and `wake_one` wakes one sleeper if there is one.  The
    kernel's count of sleepers is part of the shared state. -/

namespace Mutex

open Interleaving

variable {α : Type}

/-- Where a thread stands: in `lock`, holding the guard, or in `drop`. -/
inductive Pc (α : Type) where
  /-- Outside the `Mutex`; `lock` starts with its first atomic access. -/
  | idle
  /-- `lock_contented`'s spin loop, after `spinCount` spins; a `load` is next. -/
  | spin (spinCount : Nat)
  /-- `lock_contented`'s second `compare_exchange(0, 1)` is next. -/
  | cas
  /-- The contended loop's `swap` is next. -/
  | swap
  /-- The `swap` said the lock is taken: `wait` is next. -/
  | wait
  /-- Asleep in `wait`. -/
  | blocked
  /-- The guard is held: the critical section reads the value next. -/
  | read
  /-- The guard is held: the critical section writes `f r` next. -/
  | write (r : α)
  /-- `MutexGuard::drop`: the `swap(0)` is next. -/
  | unlock
  /-- `MutexGuard::drop`: `wake_one` is next. -/
  | wake
  deriving DecidableEq, Repr

/-- The shared state: the `AtomicU32`, the futex's sleepers, the protected
    value, and a ghost count of finished critical sections. -/
structure Futex (α : Type) where
  state : Nat
  waiters : Nat
  value : α
  done : Nat
  deriving DecidableEq, Repr

/-! ## The moves every `Mutex` shares -/

/-- The critical section and the futex's own moves, the same for the three
    `Mutex`es. -/
inductive Common (f : α → α) : Futex α → Pc α → Futex α → Pc α → Prop
  /-- `*guard` is read. -/
  | read {d : Futex α} : Common f d .read d (.write d.value)
  /-- `*guard = f r` is written; the critical section is over. -/
  | write {d : Futex α} {r : α} :
      Common f d (.write r) { d with value := f r, done := d.done + 1 } .unlock
  /-- A sleeper returns from `wait` on its own. -/
  | spurious {d : Futex α} :
      Common f d .blocked { d with waiters := d.waiters - 1 } .swap
  /-- `wake_one` with nobody asleep. -/
  | wakeNone {d : Futex α} (h0 : d.waiters = 0) : Common f d .wake d .idle

/-- `wake_one` with a sleeper: the waker leaves `drop` and the sleeper returns
    from `wait` to the head of its loop. -/
inductive Wake : Futex α → Pc α → Pc α → Futex α → Pc α → Pc α → Prop
  | wakeOne {d : Futex α} (h0 : 0 < d.waiters) :
      Wake d .wake .blocked { d with waiters := d.waiters - 1 } .idle .swap

/-! ## `09-01_mutex.rs` -/

/-- `Mutex::lock` and `MutexGuard::drop` of `09-01_mutex.rs`. -/
inductive TwoStateLock : Futex α → Pc α → Futex α → Pc α → Prop
  /-- `swap(1)` returned 1: `wait(&state, 1)` is next. -/
  | swapLocked {d : Futex α} {t : Pc α} (ht : t = .idle ∨ t = .swap) (h1 : d.state = 1) :
      TwoStateLock d t { d with state := 1 } .wait
  /-- `swap(1)` returned 0: the guard is returned. -/
  | swapAcquire {d : Futex α} {t : Pc α} (ht : t = .idle ∨ t = .swap) (h1 : d.state ≠ 1) :
      TwoStateLock d t { d with state := 1 } .read
  /-- `wait(&state, 1)` finds 1 and sleeps. -/
  | waitSleep {d : Futex α} (h1 : d.state = 1) :
      TwoStateLock d .wait { d with waiters := d.waiters + 1 } .blocked
  /-- `wait(&state, 1)` finds another value and returns. -/
  | waitReturn {d : Futex α} (h1 : d.state ≠ 1) : TwoStateLock d .wait d .swap
  /-- `swap(0)`; `wake_one` is next whatever it returned. -/
  | unlock {d : Futex α} : TwoStateLock d .unlock { d with state := 0 } .wake

/-! ## `09-01-01_avoiding-system-call.rs` and `09-01-02_further-improvements.rs` -/

/-- `Mutex::lock`, `lock_contented` and `MutexGuard::drop` of the three-state
    `Mutex`es.  A failed first `compare_exchange` goes to `contended`: the
    `swap(2)` loop in `09-01-01`, `lock_contented`'s spin loop in `09-01-02`. -/
inductive ThreeStateLock (contended : Pc α) : Futex α → Pc α → Futex α → Pc α → Prop
  /-- `compare_exchange(0, 1)` succeeds: the guard is returned. -/
  | lock {d : Futex α} (h0 : d.state = 0) :
      ThreeStateLock contended d .idle { d with state := 1 } .read
  /-- `compare_exchange(0, 1)` fails. -/
  | lockFail {d : Futex α} (h0 : d.state ≠ 0) : ThreeStateLock contended d .idle d contended
  /-- `state.load() == 1 && spin_count < 100`: spin once more. -/
  | spinAgain {d : Futex α} {k : Nat} (h1 : d.state = 1) (hk : k < 100) :
      ThreeStateLock contended d (.spin k) d (.spin (k + 1))
  /-- The spin loop ends. -/
  | spinDone {d : Futex α} {k : Nat} (h : ¬ (d.state = 1 ∧ k < 100)) :
      ThreeStateLock contended d (.spin k) d .cas
  /-- `lock_contented`'s `compare_exchange(0, 1)` succeeds: return. -/
  | casAcquire {d : Futex α} (h0 : d.state = 0) :
      ThreeStateLock contended d .cas { d with state := 1 } .read
  /-- It fails: the `swap(2)` loop is next. -/
  | casFail {d : Futex α} (h0 : d.state ≠ 0) : ThreeStateLock contended d .cas d .swap
  /-- `swap(2)` returned 0: the loop ends and the guard is returned. -/
  | swapAcquire {d : Futex α} (h0 : d.state = 0) :
      ThreeStateLock contended d .swap { d with state := 2 } .read
  /-- `swap(2)` returned 1 or 2: `wait(&state, 2)` is next. -/
  | swapLocked {d : Futex α} (h0 : d.state ≠ 0) :
      ThreeStateLock contended d .swap { d with state := 2 } .wait
  /-- `wait(&state, 2)` finds 2 and sleeps. -/
  | waitSleep {d : Futex α} (h2 : d.state = 2) :
      ThreeStateLock contended d .wait { d with waiters := d.waiters + 1 } .blocked
  /-- `wait(&state, 2)` finds another value and returns. -/
  | waitReturn {d : Futex α} (h2 : d.state ≠ 2) : ThreeStateLock contended d .wait d .swap
  /-- `swap(0)` returned 2: `wake_one` is next. -/
  | unlockWake {d : Futex α} (h2 : d.state = 2) :
      ThreeStateLock contended d .unlock { d with state := 0 } .wake
  /-- `swap(0)` returned 1: `drop` returns. -/
  | unlockQuiet {d : Futex α} (h2 : d.state ≠ 2) :
      ThreeStateLock contended d .unlock { d with state := 0 } .idle

/-- `09-01-01_avoiding-system-call.rs`: a failed first try goes to the `swap(2)`
    loop. -/
def avoidingSystemCall : Futex α → Pc α → Futex α → Pc α → Prop :=
  ThreeStateLock .swap

/-- `09-01-02_further-improvements.rs`: a failed first try calls
    `lock_contented`, which spins first. -/
def furtherImprovements : Futex α → Pc α → Futex α → Pc α → Prop :=
  ThreeStateLock (.spin 0)

/-! ## Runs -/

/-- One step of one thread: a move of the `Mutex` or a shared one. -/
def Act (lock : Futex α → Pc α → Futex α → Pc α → Prop) (f : α → α)
    (d : Futex α) (t : Pc α) (d' : Futex α) (t' : Pc α) : Prop :=
  lock d t d' t' ∨ Common f d t d' t'

abbrev Conf (α : Type) := Interleaving.Conf (Futex α) (Pc α)

/-- One step of the program running the `Mutex` with moves `lock`. -/
abbrev Step (lock : Futex α → Pc α → Futex α → Pc α → Prop) (f : α → α) :
    Conf α → Conf α → Prop :=
  Interleaving.Step (Act lock f) Wake

/-- `Mutex::new(v)` and `n` threads about to call `lock`. -/
def init (v : α) (n : Nat) : Conf α :=
  ⟨⟨0, 0, v, 0⟩, Multiset.replicate n .idle⟩

/-- The configurations some run of some number of threads reaches. -/
def Reachable (lock : Futex α → Pc α → Futex α → Pc α → Prop) (f : α → α) (v : α)
    (c : Conf α) : Prop :=
  ∃ n, Relation.ReflTransGen (Step lock f) (init v n) c

/-! ## Counting threads by where they stand -/

namespace Pc

/-- The thread holds the guard: from the acquiring access to `drop`'s `swap(0)`. -/
@[simp] def holding : Pc α → Nat
  | .read => 1
  | .write _ => 1
  | .unlock => 1
  | _ => 0

/-- Asleep in `wait`. -/
@[simp] def sleeping : Pc α → Nat
  | .blocked => 1
  | _ => 0

/-- `drop` swapped out a value that obliges it to call `wake_one`, and has not. -/
@[simp] def waking : Pc α → Nat
  | .wake => 1
  | _ => 0

/-- The contended loop's `swap` is next. -/
@[simp] def swapping : Pc α → Nat
  | .swap => 1
  | _ => 0

/-- Inside `lock`, holding the guard, or inside `drop`. -/
@[simp] def busy : Pc α → Nat
  | .idle => 0
  | _ => 1

end Pc

end Mutex
