import AtomicsAndLocks.Usize
import AtomicsAndLocks.Lockstep

/-! # The two `Arc`s called one operation at a time

    A single-threaded program holds handles to one `ArcData` and calls the
    operations one after another, each running to its end before the next
    starts.  Each call either stops the program (`abort()`, a failed
    `assert!` or `unwrap`, a `downgrade` spinning forever, or a call on a
    handle the program does not own, which its types rule out) or returns,
    showing what `upgrade` and `get_mut` returned and whether it dropped `T`
    or freed the allocation.

    `Handles.call` is what the program is promised, read off the handles it
    holds; it keeps no counter.  `WeakPointer.step` and `Optimization.step`
    are the code of `06-02` and `06-03` on the counters, with every atomic
    access taken at once: with one thread a `compare_exchange_weak` that
    fails returns the value it expected, so its loop retries until it
    succeeds, and a `compare_exchange` on the value just loaded succeeds. -/

namespace Calls

/-- The calls a program makes on its handles. -/
inductive Op
  /-- `Arc::clone` -/
  | clone
  /-- `drop` of an `Arc` -/
  | drop
  | downgrade
  | getMut
  /-- `Arc::deref` -/
  | deref
  /-- `mem::forget` of an `Arc` -/
  | forget
  | upgrade
  /-- `Weak::clone` -/
  | weakClone
  /-- `drop` of a `Weak` -/
  | weakDrop
  /-- `mem::forget` of a `Weak` -/
  | weakForget
  deriving DecidableEq, Repr

/-- The handle a call is made on: an `Arc`, or a `Weak`. -/
def Op.onArc : Op → Bool
  | .upgrade | .weakClone | .weakDrop | .weakForget => false
  | _ => true

/-- What one call shows the program and the allocator. -/
structure Obs where
  /-- `some b` for `upgrade` and `get_mut`: whether they returned `Some`. -/
  result : Option Bool
  /-- Whether the call dropped `T`. -/
  dropsData : Bool
  /-- Whether the call freed the allocation. -/
  frees : Bool
  deriving DecidableEq, Repr

/-- A call that returns nothing and releases nothing. -/
def Obs.quiet : Obs := ⟨none, false, false⟩

/-- Whether the call got an `Arc` back from `upgrade`. -/
def Obs.gotArc (o : Obs) : Bool := decide (o.result = some true)

/-- Why a program stops. -/
inductive Stop
  /-- the call needs a handle the program does not own -/
  | noHandle
  /-- `std::process::abort()` -/
  | abort
  /-- a failed `assert!` or `unwrap` -/
  | panic
  /-- `downgrade` spinning on a `get_mut` sentinel that nobody will restore -/
  | hang
  deriving DecidableEq, Repr

/-- The handles of the program: the ones it owns, and the ones it leaked
    with `mem::forget`. -/
structure Handles where
  arcs : Nat
  weaks : Nat
  leakedArcs : Nat
  leakedWeaks : Nat
  deriving DecidableEq, Repr

namespace Handles

/-- Right after `Arc::new`: one `Arc`. -/
def new : Handles := ⟨1, 0, 0, 0⟩

/-- `Arc`s that exist, owned or leaked. -/
def liveArcs (h : Handles) : Nat := h.arcs + h.leakedArcs

/-- `Weak`s that exist, owned or leaked. -/
def liveWeaks (h : Handles) : Nat := h.weaks + h.leakedWeaks

/-- Handles that exist, owned or leaked. -/
def total (h : Handles) : Nat := h.liveArcs + h.liveWeaks

/-- The program owns a handle of the kind `op` is called on. -/
def owns (h : Handles) (op : Op) : Bool :=
  if op.onArc then 0 < h.arcs else 0 < h.weaks

/-- The program's handles after the call `op`, which returned an `Arc` when
    `got` holds (only `upgrade` may return one or not). -/
def after (h : Handles) : Op → Bool → Handles
  | .clone, _ => { h with arcs := h.arcs + 1 }
  | .drop, _ => { h with arcs := h.arcs - 1 }
  | .downgrade, _ => { h with weaks := h.weaks + 1 }
  | .getMut, _ => h
  | .deref, _ => h
  | .forget, _ => { h with arcs := h.arcs - 1, leakedArcs := h.leakedArcs + 1 }
  | .upgrade, got => if got then { h with arcs := h.arcs + 1 } else h
  | .weakClone, _ => { h with weaks := h.weaks + 1 }
  | .weakDrop, _ => { h with weaks := h.weaks - 1 }
  | .weakForget, _ => { h with weaks := h.weaks - 1, leakedWeaks := h.leakedWeaks + 1 }

/-- What the call `op` should show: `upgrade` returns `Some` while an `Arc`
    exists; `get_mut` returns `Some` when its `Arc` is the only handle; `T` is
    dropped with the last `Arc`, and the allocation freed with the last
    handle. -/
def observe (h : Handles) : Op → Obs
  | .getMut => ⟨some (decide (h.liveArcs = 1 ∧ h.liveWeaks = 0)), false, false⟩
  | .upgrade => ⟨some (decide (0 < h.liveArcs)), false, false⟩
  | .drop => ⟨none, decide (h.liveArcs = 1), decide (h.total = 1)⟩
  | .weakDrop => ⟨none, false, decide (h.total = 1)⟩
  | _ => Obs.quiet

/-- **WHAT A PROGRAM IS PROMISED** by either `Arc`, one call at a time. -/
def call (h : Handles) (op : Op) : Except Stop (Handles × Obs) :=
  if h.owns op then .ok (h.after op (h.observe op).gotArc, h.observe op)
  else .error .noHandle

end Handles

open Usize in
/-- `fetch_add(1)` on a counter, and `abort()` if it returned more than
    `usize::MAX / 2`: the guard of every `clone` in both files. -/
def fetchAddGuarded (v : Nat) : Except Stop Nat :=
  if v > MAX / 2 then .error .abort else .ok (wrappingAdd v)

open Usize in
/-- `fetch_sub(1)` on a counter, and whether it returned 1: the test of every
    `drop` in both files. -/
def fetchSubLast (v : Nat) : Nat × Bool := (wrappingSub v, decide (v = 1))

/-- A call of the program through code that keeps the state `σ`: the call
    needs a handle of its kind, and what the code returns decides the handles
    the program holds after it. -/
def through {σ : Type} (step : σ → Op → Except Stop (σ × Obs)) :
    Lockstep.Machine (σ × Handles) Op Obs Stop := fun w op =>
  if w.2.owns op then
    match step w.1 op with
    | .error e => .error e
    | .ok (m, o) => .ok ((m, w.2.after op o.gotArc), o)
  else .error .noHandle

end Calls

namespace WeakPointer

open Usize Calls

/-- The counters and the `Option` of `ArcData`, between calls. -/
@[ext] structure Mem where
  dataRefCount : Nat
  allocRefCount : Nat
  /-- Whether `data` holds `Some`. -/
  data : Bool
  deriving DecidableEq, Repr

namespace Mem

/-- `Weak::clone`. -/
def weakClone (m : Mem) : Except Stop Mem :=
  (fetchAddGuarded m.allocRefCount).map fun a => { m with allocRefCount := a }

/-- `Weak::drop`: the call that found 1 frees the allocation. -/
def weakDrop (m : Mem) : Mem × Bool :=
  let (a, last) := fetchSubLast m.allocRefCount
  ({ m with allocRefCount := a }, last)

/-- `Arc::clone`: `self.weak.clone()`, then `fetch_add(1)` on
    `data_ref_count` with its own guard. -/
def arcClone (m : Mem) : Except Stop Mem := do
  let m ← m.weakClone
  let d ← fetchAddGuarded m.dataRefCount
  pure { m with dataRefCount := d }

/-- `Arc::drop`: the call that found 1 sets the `Option` to `None`, dropping
    `T`; then the `Weak` inside the `Arc` is dropped. -/
def arcDrop (m : Mem) : Mem × Obs :=
  let (d, last) := fetchSubLast m.dataRefCount
  let m1 := { m with dataRefCount := d, data := if last then false else m.data }
  let (m2, frees) := m1.weakDrop
  (m2, ⟨none, last, frees⟩)

/-- `Arc::get_mut`: `Some` when the `load` of `alloc_ref_count` returns 1,
    after the `unwrap` of the `Option`. -/
def getMut (m : Mem) : Except Stop Bool :=
  if m.allocRefCount = 1 then
    if m.data then .ok true else .error .panic
  else .ok false

/-- `Arc::deref`: the `unwrap` of the `Option`. -/
def deref (m : Mem) : Except Stop Unit :=
  if m.data then .ok () else .error .panic

/-- `Weak::upgrade`: `None` on a zero count; otherwise the `assert!`, the
    CAS to `n + 1` and `self.clone()` for the new `Arc`'s `Weak`. -/
def upgrade (m : Mem) : Except Stop (Option Mem) :=
  let n := m.dataRefCount
  if n = 0 then .ok none
  else if ¬ n < MAX then .error .panic
  else ({ m with dataRefCount := n + 1 }.weakClone).map some

end Mem

/-- One call of the `06-02` code on the counters. -/
def step (m : Mem) : Op → Except Stop (Mem × Obs)
  | .clone => m.arcClone.map fun m' => (m', Obs.quiet)
  | .drop => .ok m.arcDrop
  -- `Arc::downgrade` is `arc.weak.clone()`
  | .downgrade => m.weakClone.map fun m' => (m', Obs.quiet)
  | .getMut => m.getMut.map fun b => (m, ⟨some b, false, false⟩)
  | .deref => m.deref.map fun _ => (m, Obs.quiet)
  | .forget => .ok (m, Obs.quiet)
  | .upgrade => m.upgrade.map fun
      | none => (m, ⟨some false, false, false⟩)
      | some m' => (m', ⟨some true, false, false⟩)
  | .weakClone => m.weakClone.map fun m' => (m', Obs.quiet)
  | .weakDrop => .ok (m.weakDrop.1, ⟨none, false, m.weakDrop.2⟩)
  | .weakForget => .ok (m, Obs.quiet)

/-- Right after `Arc::new`. -/
def new : Mem × Handles := (⟨1, 1, true⟩, Handles.new)

/-- The `06-02` `Arc` called by a program. -/
def call : Lockstep.Machine (Mem × Handles) Op Obs Stop := through step

end WeakPointer

namespace Optimization

open Usize Calls

/-- The counters of `ArcData`, between calls. -/
@[ext] structure Mem where
  dataRefCount : Nat
  allocRefCount : Nat
  deriving DecidableEq, Repr

namespace Mem

/-- `Weak::clone`. -/
def weakClone (m : Mem) : Except Stop Mem :=
  (fetchAddGuarded m.allocRefCount).map fun a => { m with allocRefCount := a }

/-- `Weak::drop`: the call that found 1 frees the allocation. -/
def weakDrop (m : Mem) : Mem × Bool :=
  let (a, last) := fetchSubLast m.allocRefCount
  ({ m with allocRefCount := a }, last)

/-- `Arc::clone`. -/
def arcClone (m : Mem) : Except Stop Mem :=
  (fetchAddGuarded m.dataRefCount).map fun d => { m with dataRefCount := d }

/-- `Arc::drop`: the call that found 1 drops `T`, then the implicit `Weak` of
    all the `Arc`s. -/
def arcDrop (m : Mem) : Mem × Obs :=
  let (d, last) := fetchSubLast m.dataRefCount
  let m1 := { m with dataRefCount := d }
  if last then
    let (m2, frees) := m1.weakDrop
    (m2, ⟨none, true, frees⟩)
  else (m1, Obs.quiet)

/-- `Arc::get_mut`: `compare_exchange(1, usize::MAX)` locks out `downgrade`,
    the `load` of `data_ref_count` decides, and `store(1)` unlocks. -/
def getMut (m : Mem) : Mem × Bool :=
  if m.allocRefCount ≠ 1 then (m, false)
  else
    let m1 := { m with allocRefCount := MAX }
    let isUnique := decide (m1.dataRefCount = 1)
    ({ m1 with allocRefCount := 1 }, isUnique)

/-- `Arc::downgrade`: with one thread the loaded count is the sentinel only if
    nobody will ever store over it; otherwise the `assert!` and the CAS. -/
def downgrade (m : Mem) : Except Stop Mem :=
  let n := m.allocRefCount
  if n = MAX then .error .hang
  else if ¬ n < MAX - 1 then .error .panic
  else .ok { m with allocRefCount := n + 1 }

/-- `Weak::upgrade`: `None` on a zero count; otherwise the `assert!` and the
    CAS to `n + 1`. -/
def upgrade (m : Mem) : Except Stop (Option Mem) :=
  let n := m.dataRefCount
  if n = 0 then .ok none
  else if ¬ n < MAX then .error .panic
  else .ok (some { m with dataRefCount := n + 1 })

end Mem

/-- One call of the `06-03` code on the counters. -/
def step (m : Mem) : Op → Except Stop (Mem × Obs)
  | .clone => m.arcClone.map fun m' => (m', Obs.quiet)
  | .drop => .ok m.arcDrop
  | .downgrade => m.downgrade.map fun m' => (m', Obs.quiet)
  | .getMut => .ok (m.getMut.1, ⟨some m.getMut.2, false, false⟩)
  -- `Arc::deref` reads `T` with no check
  | .deref => .ok (m, Obs.quiet)
  | .forget => .ok (m, Obs.quiet)
  | .upgrade => m.upgrade.map fun
      | none => (m, ⟨some false, false, false⟩)
      | some m' => (m', ⟨some true, false, false⟩)
  | .weakClone => m.weakClone.map fun m' => (m', Obs.quiet)
  | .weakDrop => .ok (m.weakDrop.1, ⟨none, false, m.weakDrop.2⟩)
  | .weakForget => .ok (m, Obs.quiet)

/-- Right after `Arc::new`. -/
def new : Mem × Handles := (⟨1, 1⟩, Handles.new)

/-- The `06-03` `Arc` called by a program. -/
def call : Lockstep.Machine (Mem × Handles) Op Obs Stop := through step

end Optimization
