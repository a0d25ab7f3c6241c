import AtomicsAndLocks.Interleaving
import AtomicsAndLocks.Usize

/-! # The `Arc` with weak pointers (06-02_weak-pointer.rs) — the model

    Here every `Arc` owns a `Weak`: `alloc_ref_count` counts all `Weak`s,
    those inside `Arc`s included, and `data_ref_count` counts the `Arc`s.
    `T` sits in an `Option<T>` that the last `Arc::drop` sets to `None`;
    the last `Weak::drop` frees the allocation.

    The model is built as the one of `06-03` is: any number of anonymous
    threads owning `Arc`s and `Weak`s, one step per atomic access, the call
    of an operation taken with its first access, `compare_exchange_weak`
    free to fail spuriously, and an `abort` check that fires leaving its
    thread at an `abort` point while the others move on.  The reads of the
    `Option` (`Arc::deref`, and `get_mut` after its `load`) are steps of
    their own; an `unwrap` of `None` panics, which the ghost field
    `unwrapFailed` records.  Which counters an aborting thread raised is
    part of its program point: `Arc::clone` raises both counters in two
    steps, `Weak::upgrade` raises `data_ref_count` by its CAS and then
    `alloc_ref_count` by `self.clone()`. -/

namespace WeakPointer

open Interleaving Usize

/-- `ArcData<T>` with the `Option<T>` reduced to whether it is `Some`, and a
    ghost record of its history. -/
structure ArcData where
  dataRefCount : Nat
  allocRefCount : Nat
  /-- Whether `data` holds `Some`. -/
  data : Bool
  /-- How many times `*ptr = None` dropped `T`. -/
  dataDrops : Nat
  /-- How many times the allocation went through `drop(Box::from_raw(..))`. -/
  frees : Nat
  leakedArcs : Nat
  leakedWeaks : Nat
  /-- Whether an overflow guard (an `abort` check or an `assert!`) has fired. -/
  fired : Bool
  /-- Whether an `unwrap` of the `Option` found `None` and panicked. -/
  unwrapFailed : Bool
  deriving DecidableEq, Repr

/-- Where a thread stands in the operation it is running.  Operations not
    listed run in a single step from `idle`. -/
inductive Pc
  | idle
  /-- a `Weak::clone` (alone, in `Arc::downgrade` or in `Arc::clone`) saw a
      count above `usize::MAX / 2`; `abort()` is next -/
  | abortWeak
  /-- `Arc::clone`'s `fetch_add` on `data_ref_count` saw a count above
      `usize::MAX / 2`, after its `Weak::clone` raised `alloc_ref_count` -/
  | abortClone
  /-- `self.clone()` in `Weak::upgrade` saw a count above `usize::MAX / 2`,
      after the CAS raised `data_ref_count` -/
  | abortUpgrade
  /-- `Arc::clone` cloned its `Weak`; the `fetch_add` on `data_ref_count` is next -/
  | cloneData
  /-- `Arc::drop`'s `fetch_sub` returned 1; `*ptr = None` is next -/
  | dropNone
  /-- `Arc::drop` is to drop its `Weak` -/
  | dropWeak
  /-- `Weak::drop`'s `fetch_sub` returned 1; `drop(Box::from_raw(..))` is next -/
  | free
  /-- `Weak::upgrade` at its loop head with `n` -/
  | upgradeLoop (n : Nat)
  /-- `Weak::upgrade`'s CAS succeeded; `self.clone()` is next -/
  | upgradeClone
  /-- `get_mut`'s `load` returned 1; the `unwrap` of the `Option` is next -/
  | getMutUnwrap
  /-- `get_mut` returned `Some`: the thread holds the `&mut T` -/
  | getMutHeld
  deriving DecidableEq, Repr

/-- A thread: the handles it owns and where it stands. -/
structure Thread where
  arcs : Nat
  weaks : Nat
  pc : Pc
  deriving DecidableEq, Repr

/-- One atomic step of one thread, read off the source operation by operation. -/
inductive Act : ArcData → Thread → ArcData → Thread → Prop
  /-- `Arc::clone`: `self.weak.clone()`'s `fetch_add(1)` returned at most `usize::MAX / 2`. -/
  | cloneWeak {d : ArcData} {t : Thread} (hi : t.pc = .idle) (ha : 0 < t.arcs)
      (hn : d.allocRefCount ≤ MAX / 2) :
      Act d t { d with allocRefCount := wrappingAdd d.allocRefCount } { t with pc := .cloneData }
  /-- `Arc::clone`: the `Weak::clone` guard fires. -/
  | cloneWeakAbort {d : ArcData} {t : Thread} (hi : t.pc = .idle) (ha : 0 < t.arcs)
      (hn : MAX / 2 < d.allocRefCount) :
      Act d t { d with allocRefCount := wrappingAdd d.allocRefCount, fired := true }
        { t with pc := .abortWeak }
  /-- `Arc::clone`: `fetch_add(1)` on `data_ref_count` returned at most `usize::MAX / 2`. -/
  | cloneData {d : ArcData} {t : Thread} (h : t.pc = .cloneData)
      (hn : d.dataRefCount ≤ MAX / 2) :
      Act d t { d with dataRefCount := wrappingAdd d.dataRefCount }
        { t with arcs := t.arcs + 1, pc := .idle }
  /-- `Arc::clone`: that guard fires. -/
  | cloneDataAbort {d : ArcData} {t : Thread} (h : t.pc = .cloneData)
      (hn : MAX / 2 < d.dataRefCount) :
      Act d t { d with dataRefCount := wrappingAdd d.dataRefCount, fired := true }
        { t with pc := .abortClone }
  /-- `Arc::drop`: `fetch_sub(1)` returned 1. -/
  | dropLast {d : ArcData} {t : Thread} (hi : t.pc = .idle) (ha : 0 < t.arcs)
      (h1 : d.dataRefCount = 1) :
      Act d t { d with dataRefCount := wrappingSub d.dataRefCount }
        { t with arcs := t.arcs - 1, pc := .dropNone }
  /-- `Arc::drop`: `fetch_sub(1)` returned another value. -/
  | dropOther {d : ArcData} {t : Thread} (hi : t.pc = .idle) (ha : 0 < t.arcs)
      (h1 : d.dataRefCount ≠ 1) :
      Act d t { d with dataRefCount := wrappingSub d.dataRefCount }
        { t with arcs := t.arcs - 1, pc := .dropWeak }
  /-- `Arc::drop`: `(*ptr) = None`, which drops `T`. -/
  | dropNone {d : ArcData} {t : Thread} (h : t.pc = .dropNone) :
      Act d t { d with data := false, dataDrops := d.dataDrops + 1 } { t with pc := .dropWeak }
  /-- The `Weak` inside the dropped `Arc`: `fetch_sub(1)` returned 1. -/
  | dropWeakLast {d : ArcData} {t : Thread} (h : t.pc = .dropWeak)
      (h1 : d.allocRefCount = 1) :
      Act d t { d with allocRefCount := wrappingSub d.allocRefCount } { t with pc := .free }
  /-- The `Weak` inside the dropped `Arc`: `fetch_sub(1)` returned another value. -/
  | dropWeakOther {d : ArcData} {t : Thread} (h : t.pc = .dropWeak)
      (h1 : d.allocRefCount ≠ 1) :
      Act d t { d with allocRefCount := wrappingSub d.allocRefCount } { t with pc := .idle }
  /-- `Weak::drop`: `fetch_sub(1)` returned 1. -/
  | weakDropLast {d : ArcData} {t : Thread} (hi : t.pc = .idle) (hw : 0 < t.weaks)
      (h1 : d.allocRefCount = 1) :
      Act d t { d with allocRefCount := wrappingSub d.allocRefCount }
        { t with weaks := t.weaks - 1, pc := .free }
  /-- `Weak::drop`: `fetch_sub(1)` returned another value. -/
  | weakDropOther {d : ArcData} {t : Thread} (hi : t.pc = .idle) (hw : 0 < t.weaks)
      (h1 : d.allocRefCount ≠ 1) :
      Act d t { d with allocRefCount := wrappingSub d.allocRefCount }
        { t with weaks := t.weaks - 1 }
  /-- `Weak::drop`: `drop(Box::from_raw(self.ptr.as_ptr()))`. -/
  | free {d : ArcData} {t : Thread} (h : t.pc = .free) :
      Act d t { d with frees := d.frees + 1 } { t with pc := .idle }
  /-- `Arc::downgrade` is `arc.weak.clone()`: `fetch_add(1)` returned at most `usize::MAX / 2`. -/
  | downgrade {d : ArcData} {t : Thread} (hi : t.pc = .idle) (ha : 0 < t.arcs)
      (hn : d.allocRefCount ≤ MAX / 2) :
      Act d t { d with allocRefCount := wrappingAdd d.allocRefCount }
        { t with weaks := t.weaks + 1 }
  /-- `Arc::downgrade`: the guard fires. -/
  | downgradeAbort {d : ArcData} {t : Thread} (hi : t.pc = .idle) (ha : 0 < t.arcs)
      (hn : MAX / 2 < d.allocRefCount) :
      Act d t { d with allocRefCount := wrappingAdd d.allocRefCount, fired := true }
        { t with pc := .abortWeak }
  /-- `Weak::clone`: `fetch_add(1)` returned at most `usize::MAX / 2`. -/
  | weakClone {d : ArcData} {t : Thread} (hi : t.pc = .idle) (hw : 0 < t.weaks)
      (hn : d.allocRefCount ≤ MAX / 2) :
      Act d t { d with allocRefCount := wrappingAdd d.allocRefCount }
        { t with weaks := t.weaks + 1 }
  /-- `Weak::clone`: the guard fires. -/
  | weakCloneAbort {d : ArcData} {t : Thread} (hi : t.pc = .idle) (hw : 0 < t.weaks)
      (hn : MAX / 2 < d.allocRefCount) :
      Act d t { d with allocRefCount := wrappingAdd d.allocRefCount, fired := true }
        { t with pc := .abortWeak }
  /-- `Weak::upgrade`: the first `load` of `data_ref_count`. -/
  | upgrade {d : ArcData} {t : Thread} (hi : t.pc = .idle) (hw : 0 < t.weaks) :
      Act d t d { t with pc := .upgradeLoop d.dataRefCount }
  /-- `n == 0`: return `None`. -/
  | upgradeNone {d : ArcData} {t : Thread} (h : t.pc = .upgradeLoop 0) :
      Act d t d { t with pc := .idle }
  /-- `assert!(n < usize::MAX)` fails: the thread panics. -/
  | upgradePanic {d : ArcData} {t : Thread} {n : Nat} (h : t.pc = .upgradeLoop n)
      (hn : n ≠ 0) (hb : MAX ≤ n) :
      Act d t { d with fired := true } { t with pc := .idle }
  /-- `compare_exchange_weak(n, n + 1)` succeeds. -/
  | upgradeCas {d : ArcData} {t : Thread} {n : Nat} (h : t.pc = .upgradeLoop n)
      (hn : n ≠ 0) (hb : n < MAX) (he : d.dataRefCount = n) :
      Act d t { d with dataRefCount := n + 1 } { t with pc := .upgradeClone }
  /-- `compare_exchange_weak(n, n + 1)` fails, possibly spuriously: `n = e`. -/
  | upgradeRetry {d : ArcData} {t : Thread} {n : Nat} (h : t.pc = .upgradeLoop n)
      (hn : n ≠ 0) (hb : n < MAX) :
      Act d t d { t with pc := .upgradeLoop d.dataRefCount }
  /-- `Some(Arc { weak: self.clone() })`: the `fetch_add(1)` returned at most
      `usize::MAX / 2`. -/
  | upgradeClone {d : ArcData} {t : Thread} (h : t.pc = .upgradeClone)
      (hn : d.allocRefCount ≤ MAX / 2) :
      Act d t { d with allocRefCount := wrappingAdd d.allocRefCount }
        { t with arcs := t.arcs + 1, pc := .idle }
  /-- `self.clone()` in `Weak::upgrade`: the guard fires. -/
  | upgradeCloneAbort {d : ArcData} {t : Thread} (h : t.pc = .upgradeClone)
      (hn : MAX / 2 < d.allocRefCount) :
      Act d t { d with allocRefCount := wrappingAdd d.allocRefCount, fired := true }
        { t with pc := .abortUpgrade }
  /-- `get_mut`: the `load` of `alloc_ref_count` returned 1. -/
  | getMut {d : ArcData} {t : Thread} (hi : t.pc = .idle) (ha : 0 < t.arcs)
      (h1 : d.allocRefCount = 1) :
      Act d t d { t with pc := .getMutUnwrap }
  /-- `get_mut`: it returned another value: return `None`. -/
  | getMutNone {d : ArcData} {t : Thread} (hi : t.pc = .idle) (ha : 0 < t.arcs)
      (h1 : d.allocRefCount ≠ 1) :
      Act d t d t
  /-- `option.as_mut().unwrap()` finds `Some`: return `Some(data)`. -/
  | getMutSome {d : ArcData} {t : Thread} (h : t.pc = .getMutUnwrap) (hd : d.data = true) :
      Act d t d { t with pc := .getMutHeld }
  /-- `option.as_mut().unwrap()` finds `None`: the thread panics. -/
  | getMutPanic {d : ArcData} {t : Thread} (h : t.pc = .getMutUnwrap) (hd : d.data = false) :
      Act d t { d with unwrapFailed := true } { t with pc := .idle }
  /-- The caller stops using the `&mut T` that `get_mut` returned. -/
  | release {d : ArcData} {t : Thread} (h : t.pc = .getMutHeld) :
      Act d t d { t with pc := .idle }
  /-- `Arc::deref`: `(*ptr).as_ref().unwrap()` finds `Some`. -/
  | deref {d : ArcData} {t : Thread} (hi : t.pc = .idle) (ha : 0 < t.arcs)
      (hd : d.data = true) :
      Act d t d t
  /-- `Arc::deref`: the `unwrap` finds `None`: the thread panics. -/
  | derefPanic {d : ArcData} {t : Thread} (hi : t.pc = .idle) (ha : 0 < t.arcs)
      (hd : d.data = false) :
      Act d t { d with unwrapFailed := true } t
  /-- `mem::forget` of an `Arc`. -/
  | forgetArc {d : ArcData} {t : Thread} (hi : t.pc = .idle) (ha : 0 < t.arcs) :
      Act d t { d with leakedArcs := d.leakedArcs + 1 } { t with arcs := t.arcs - 1 }
  /-- `mem::forget` of a `Weak`. -/
  | forgetWeak {d : ArcData} {t : Thread} (hi : t.pc = .idle) (hw : 0 < t.weaks) :
      Act d t { d with leakedWeaks := d.leakedWeaks + 1 } { t with weaks := t.weaks - 1 }

/-- A thread between operations moves one of its handles to another thread. -/
inductive Pass : ArcData → Thread → Thread → ArcData → Thread → Thread → Prop
  | arc {d : ArcData} {t u : Thread} (hi : t.pc = .idle) (ha : 0 < t.arcs) :
      Pass d t u d { t with arcs := t.arcs - 1 } { u with arcs := u.arcs + 1 }
  | weak {d : ArcData} {t u : Thread} (hi : t.pc = .idle) (hw : 0 < t.weaks) :
      Pass d t u d { t with weaks := t.weaks - 1 } { u with weaks := u.weaks + 1 }

abbrev Conf := Interleaving.Conf ArcData Thread

abbrev Step : Conf → Conf → Prop := Interleaving.Step Act Pass

/-- A thread with no handles, between operations. -/
def Thread.empty : Thread := ⟨0, 0, .idle⟩

/-- Right after `Arc::new`: one thread owns the only `Arc`, `n` others own nothing. -/
def init (n : Nat) : Conf :=
  ⟨⟨1, 1, true, 0, 0, 0, 0, false, false⟩, ⟨1, 0, .idle⟩ ::ₘ Multiset.replicate n Thread.empty⟩

/-- The configurations some run of some number of threads reaches. -/
def Reachable (c : Conf) : Prop :=
  ∃ n, Relation.ReflTransGen Step (init n) c

/-- `Arc` handles that exist and were never dropped, owned or leaked. -/
def liveArcs (c : Conf) : Nat := tally Thread.arcs c.threads + c.shared.leakedArcs

/-- `Weak` handles that exist and were never dropped, owned or leaked. -/
def liveWeaks (c : Conf) : Nat := tally Thread.weaks c.threads + c.shared.leakedWeaks

end WeakPointer
