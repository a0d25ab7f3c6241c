import AtomicsAndLocks.Interleaving
import AtomicsAndLocks.Usize

/-! # The optimised `Arc` and `Weak` (06-03_optimization.rs) — the model

    `ArcData` keeps two counters: `data_ref_count` counts the `Arc`s and
    `alloc_ref_count` counts the `Weak`s plus ONE implicit weak that all the
    `Arc`s share while any of them is alive.  `get_mut` parks the sentinel
    `usize::MAX` in `alloc_ref_count` while it reads `data_ref_count`, and
    `downgrade` spins while it sees the sentinel.

    The model is a step relation over any number of threads.  Each thread owns
    some `Arc` and `Weak` handles to the one `ArcData` and stands at a program
    point of the operation it runs.  Every atomic access (`load`, `store`,
    `fetch_add`, `fetch_sub`, `compare_exchange`, `compare_exchange_weak`) is
    one step; the local work between two accesses (comparisons, the loop
    tests) is taken with the access before it, and the call of an operation
    with its first access.  `compare_exchange_weak` may fail even when the
    value matches.

    Overflow guards.  The `abort` checks of `Arc::clone` and `Weak::clone` test
    the value their `fetch_add` returned, so the test is taken with the
    `fetch_add`; `std::process::abort()` itself is a later action of that
    thread, and the other threads may still move before it lands: the model
    leaves the thread at `aborting`.  A failed `assert!` panics the thread,
    which unwinds to its caller without touching the counters.  The ghost
    field `fired` records that some guard fired.

    The value `T` is not modelled (nothing here reads it); the ghost fields
    count how often it was dropped, how often the allocation was freed, and
    how many handles were leaked with `mem::forget`. -/

namespace Optimization

open Interleaving Usize

/-- The control block `ArcData<T>` with a ghost record of its history. -/
structure ArcData where
  dataRefCount : Nat
  allocRefCount : Nat
  /-- How many times `ManuallyDrop::drop` ran on `data`. -/
  dataDrops : Nat
  /-- How many times the allocation went through `drop(Box::from_raw(..))`. -/
  frees : Nat
  /-- `Arc`s passed to `mem::forget`. -/
  leakedArcs : Nat
  /-- `Weak`s passed to `mem::forget`. -/
  leakedWeaks : Nat
  /-- Whether an overflow guard (an `abort` check or an `assert!`) has fired. -/
  fired : Bool
  deriving DecidableEq, Repr

/-- Where a thread stands in the operation it is running, with its locals.
    Operations not listed run in a single step from `idle`. -/
inductive Pc
  | idle
  /-- a `clone` saw a count above `usize::MAX / 2`; `abort()` is next -/
  | aborting
  /-- `Arc::drop` took the count to zero; `ManuallyDrop::drop` is next -/
  | dropData
  /-- `Arc::drop` is to drop the implicit `Weak { ptr }` -/
  | dropWeak
  /-- `Weak::drop` took the count to zero; `drop(Box::from_raw(..))` is next -/
  | free
  /-- `Arc::downgrade` at its loop head with `n` -/
  | downgradeLoop (n : Nat)
  /-- `Weak::upgrade` at its loop head with `n` -/
  | upgradeLoop (n : Nat)
  /-- `get_mut` holds the sentinel; the load of `data_ref_count` is next -/
  | getMutLoad
  /-- `get_mut` holds the sentinel; the `store(1)` is next -/
  | getMutStore (isUnique : Bool)
  /-- `get_mut` returned `Some`: the thread holds the `&mut T` -/
  | getMutHeld
  deriving DecidableEq, Repr

/-- A thread: the handles it owns and where it stands. -/
structure Thread where
  arcs : Nat
  weaks : Nat
  pc : Pc
  deriving DecidableEq, Repr

/-- One atomic step of one thread, read off the source operation by operation. -/
inductive Act : ArcData → Thread → ArcData → Thread → Prop
  /-- `Arc::clone`: `fetch_add(1)` returned at most `usize::MAX / 2`. -/
  | clone {d : ArcData} {t : Thread} (hi : t.pc = .idle) (ha : 0 < t.arcs)
      (hn : d.dataRefCount ≤ MAX / 2) :
      Act d t { d with dataRefCount := wrappingAdd d.dataRefCount }
        { t with arcs := t.arcs + 1 }
  /-- `Arc::clone`: `fetch_add(1)` returned more; the guard fires. -/
  | cloneAbort {d : ArcData} {t : Thread} (hi : t.pc = .idle) (ha : 0 < t.arcs)
      (hn : MAX / 2 < d.dataRefCount) :
      Act d t { d with dataRefCount := wrappingAdd d.dataRefCount, fired := true }
        { t with pc := .aborting }
  /-- `Arc::drop`: `fetch_sub(1)` returned 1. -/
  | dropLast {d : ArcData} {t : Thread} (hi : t.pc = .idle) (ha : 0 < t.arcs)
      (h1 : d.dataRefCount = 1) :
      Act d t { d with dataRefCount := wrappingSub d.dataRefCount }
        { t with arcs := t.arcs - 1, pc := .dropData }
  /-- `Arc::drop`: `fetch_sub(1)` returned another value. -/
  | dropOther {d : ArcData} {t : Thread} (hi : t.pc = .idle) (ha : 0 < t.arcs)
      (h1 : d.dataRefCount ≠ 1) :
      Act d t { d with dataRefCount := wrappingSub d.dataRefCount }
        { t with arcs := t.arcs - 1 }
  /-- `Arc::drop`: `ManuallyDrop::drop(&mut *self.data().data.get())`. -/
  | dropData {d : ArcData} {t : Thread} (h : t.pc = .dropData) :
      Act d t { d with dataDrops := d.dataDrops + 1 } { t with pc := .dropWeak }
  /-- `drop(Weak { ptr })` in `Arc::drop`: `fetch_sub(1)` returned 1. -/
  | dropWeakLast {d : ArcData} {t : Thread} (h : t.pc = .dropWeak)
      (h1 : d.allocRefCount = 1) :
      Act d t { d with allocRefCount := wrappingSub d.allocRefCount }
        { t with pc := .free }
  /-- `drop(Weak { ptr })` in `Arc::drop`: `fetch_sub(1)` returned another value. -/
  | dropWeakOther {d : ArcData} {t : Thread} (h : t.pc = .dropWeak)
      (h1 : d.allocRefCount ≠ 1) :
      Act d t { d with allocRefCount := wrappingSub d.allocRefCount }
        { t with pc := .idle }
  /-- `Weak::drop`: `fetch_sub(1)` returned 1. -/
  | weakDropLast {d : ArcData} {t : Thread} (hi : t.pc = .idle) (hw : 0 < t.weaks)
      (h1 : d.allocRefCount = 1) :
      Act d t { d with allocRefCount := wrappingSub d.allocRefCount }
        { t with weaks := t.weaks - 1, pc := .free }
  /-- `Weak::drop`: `fetch_sub(1)` returned another value. -/
  | weakDropOther {d : ArcData} {t : Thread} (hi : t.pc = .idle) (hw : 0 < t.weaks)
      (h1 : d.allocRefCount ≠ 1) :
      Act d t { d with allocRefCount := wrappingSub d.allocRefCount }
        { t with weaks := t.weaks - 1 }
  /-- `Weak::drop`: `drop(Box::from_raw(self.ptr.as_ptr()))`. -/
  | free {d : ArcData} {t : Thread} (h : t.pc = .free) :
      Act d t { d with frees := d.frees + 1 } { t with pc := .idle }
  /-- `Arc::downgrade`: the first `load` of `alloc_ref_count`. -/
  | downgrade {d : ArcData} {t : Thread} (hi : t.pc = .idle) (ha : 0 < t.arcs) :
      Act d t d { t with pc := .downgradeLoop d.allocRefCount }
  /-- `n == usize::MAX`: `spin_loop()`, then `load` again. -/
  | downgradeSpin {d : ArcData} {t : Thread} (h : t.pc = .downgradeLoop MAX) :
      Act d t d { t with pc := .downgradeLoop d.allocRefCount }
  /-- `assert!(n < usize::MAX - 1)` fails: the thread panics. -/
  | downgradePanic {d : ArcData} {t : Thread} {n : Nat} (h : t.pc = .downgradeLoop n)
      (hn : n ≠ MAX) (hb : MAX - 1 ≤ n) :
      Act d t { d with fired := true } { t with pc := .idle }
  /-- `compare_exchange_weak(n, n + 1)` succeeds: return the `Weak`. -/
  | downgradeCas {d : ArcData} {t : Thread} {n : Nat} (h : t.pc = .downgradeLoop n)
      (hn : n ≠ MAX) (hb : n < MAX - 1) (he : d.allocRefCount = n) :
      Act d t { d with allocRefCount := n + 1 } { t with weaks := t.weaks + 1, pc := .idle }
  /-- `compare_exchange_weak(n, n + 1)` fails, possibly spuriously: `n = e`. -/
  | downgradeRetry {d : ArcData} {t : Thread} {n : Nat} (h : t.pc = .downgradeLoop n)
      (hn : n ≠ MAX) (hb : n < MAX - 1) :
      Act d t d { t with pc := .downgradeLoop d.allocRefCount }
  /-- `Weak::upgrade`: the first `load` of `data_ref_count`. -/
  | upgrade {d : ArcData} {t : Thread} (hi : t.pc = .idle) (hw : 0 < t.weaks) :
      Act d t d { t with pc := .upgradeLoop d.dataRefCount }
  /-- `n == 0`: return `None`. -/
  | upgradeNone {d : ArcData} {t : Thread} (h : t.pc = .upgradeLoop 0) :
      Act d t d { t with pc := .idle }
  /-- `assert!(n < usize::MAX)` fails: the thread panics. -/
  | upgradePanic {d : ArcData} {t : Thread} {n : Nat} (h : t.pc = .upgradeLoop n)
      (hn : n ≠ 0) (hb : MAX ≤ n) :
      Act d t { d with fired := true } { t with pc := .idle }
  /-- `compare_exchange_weak(n, n + 1)` succeeds: return `Some(Arc)`. -/
  | upgradeCas {d : ArcData} {t : Thread} {n : Nat} (h : t.pc = .upgradeLoop n)
      (hn : n ≠ 0) (hb : n < MAX) (he : d.dataRefCount = n) :
      Act d t { d with dataRefCount := n + 1 } { t with arcs := t.arcs + 1, pc := .idle }
  /-- `compare_exchange_weak(n, n + 1)` fails, possibly spuriously: `n = e`. -/
  | upgradeRetry {d : ArcData} {t : Thread} {n : Nat} (h : t.pc = .upgradeLoop n)
      (hn : n ≠ 0) (hb : n < MAX) :
      Act d t d { t with pc := .upgradeLoop d.dataRefCount }
  /-- `Weak::clone`: `fetch_add(1)` returned at most `usize::MAX / 2`. -/
  | weakClone {d : ArcData} {t : Thread} (hi : t.pc = .idle) (hw : 0 < t.weaks)
      (hn : d.allocRefCount ≤ MAX / 2) :
      Act d t { d with allocRefCount := wrappingAdd d.allocRefCount }
        { t with weaks := t.weaks + 1 }
  /-- `Weak::clone`: `fetch_add(1)` returned more; the guard fires. -/
  | weakCloneAbort {d : ArcData} {t : Thread} (hi : t.pc = .idle) (hw : 0 < t.weaks)
      (hn : MAX / 2 < d.allocRefCount) :
      Act d t { d with allocRefCount := wrappingAdd d.allocRefCount, fired := true }
        { t with pc := .aborting }
  /-- `get_mut`: `compare_exchange(1, usize::MAX)` succeeds. -/
  | getMut {d : ArcData} {t : Thread} (hi : t.pc = .idle) (ha : 0 < t.arcs)
      (h1 : d.allocRefCount = 1) :
      Act d t { d with allocRefCount := MAX } { t with pc := .getMutLoad }
  /-- `get_mut`: `compare_exchange(1, usize::MAX)` fails: return `None`. -/
  | getMutNone {d : ArcData} {t : Thread} (hi : t.pc = .idle) (ha : 0 < t.arcs)
      (h1 : d.allocRefCount ≠ 1) :
      Act d t d t
  /-- `is_unique = data_ref_count.load() == 1`. -/
  | getMutLoad {d : ArcData} {t : Thread} (h : t.pc = .getMutLoad) :
      Act d t d { t with pc := .getMutStore (decide (d.dataRefCount = 1)) }
  /-- `alloc_ref_count.store(1)` with `is_unique`: return `Some(&mut T)`. -/
  | getMutSome {d : ArcData} {t : Thread} (h : t.pc = .getMutStore true) :
      Act d t { d with allocRefCount := 1 } { t with pc := .getMutHeld }
  /-- `alloc_ref_count.store(1)` without `is_unique`: return `None`. -/
  | getMutShared {d : ArcData} {t : Thread} (h : t.pc = .getMutStore false) :
      Act d t { d with allocRefCount := 1 } { t with pc := .idle }
  /-- The caller stops using the `&mut T` that `get_mut` returned. -/
  | release {d : ArcData} {t : Thread} (h : t.pc = .getMutHeld) :
      Act d t d { t with pc := .idle }
  /-- `mem::forget` of an `Arc`. -/
  | forgetArc {d : ArcData} {t : Thread} (hi : t.pc = .idle) (ha : 0 < t.arcs) :
      Act d t { d with leakedArcs := d.leakedArcs + 1 } { t with arcs := t.arcs - 1 }
  /-- `mem::forget` of a `Weak`. -/
  | forgetWeak {d : ArcData} {t : Thread} (hi : t.pc = .idle) (hw : 0 < t.weaks) :
      Act d t { d with leakedWeaks := d.leakedWeaks + 1 } { t with weaks := t.weaks - 1 }

/-- A thread between operations moves one of its handles to another thread
    (a `move` into a spawned closure, a send over a channel). -/
inductive Pass : ArcData → Thread → Thread → ArcData → Thread → Thread → Prop
  | arc {d : ArcData} {t u : Thread} (hi : t.pc = .idle) (ha : 0 < t.arcs) :
      Pass d t u d { t with arcs := t.arcs - 1 } { u with arcs := u.arcs + 1 }
  | weak {d : ArcData} {t u : Thread} (hi : t.pc = .idle) (hw : 0 < t.weaks) :
      Pass d t u d { t with weaks := t.weaks - 1 } { u with weaks := u.weaks + 1 }

/-- A configuration of the program: the `ArcData` and the threads. -/
abbrev Conf := Interleaving.Conf ArcData Thread

/-- One step of the whole program. -/
abbrev Step : Conf → Conf → Prop := Interleaving.Step Act Pass

/-- A thread with no handles, between operations. -/
def Thread.empty : Thread := ⟨0, 0, .idle⟩

/-- Right after `Arc::new`: one thread owns the only `Arc`, `n` others own nothing. -/
def init (n : Nat) : Conf :=
  ⟨⟨1, 1, 0, 0, 0, 0, false⟩, ⟨1, 0, .idle⟩ ::ₘ Multiset.replicate n Thread.empty⟩

/-- The configurations some run of some number of threads reaches. -/
def Reachable (c : Conf) : Prop :=
  ∃ n, Relation.ReflTransGen Step (init n) c

/-- `Arc` handles that exist and were never dropped: owned ones and leaked ones. -/
def liveArcs (c : Conf) : Nat := tally Thread.arcs c.threads + c.shared.leakedArcs

/-- `Weak` handles that exist and were never dropped. -/
def liveWeaks (c : Conf) : Nat := tally Thread.weaks c.threads + c.shared.leakedWeaks

end Optimization
