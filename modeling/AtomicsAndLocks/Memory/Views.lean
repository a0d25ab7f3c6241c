import Mathlib.Order.Lattice
import Mathlib.Order.Nat
import Mathlib.Order.BoundedOrder.Basic

/-! # Views — timestamped writes read through the views of threads

    The memory model of atomics with `Relaxed`, `Acquire`, `Release`,
    `AcqRel` and `SeqCst` orderings and fences, in the operational form of
    views.  Each location keeps its writes in modification order, and a
    write's timestamp is its place in that order.  Each thread keeps a view:
    for each location, the timestamp of the latest write it knows of.  A load
    may read any write at or after its view, not only the latest; a write
    carries the view it releases, and a load that acquires joins that view
    into the reader's.  Fences act on two more views of the thread: `acq`,
    what an acquire fence adds (the views of the writes read since), and
    `rel`, what a relaxed write releases (the view at the last release
    fence).  `SeqCst` operations also keep one global view, in the order they
    run: a `SeqCst` store adds its write to it, and a `SeqCst` load of a
    location first joins that location's entry, so that it cannot read a
    write older than the last `SeqCst` write of the location before it.

    A read-modify-write reads the latest write and goes right after it
    (`Update`).  A store goes after every write its thread knows; appended
    at the end (`Memory.store`), it is exact when every write of the
    location that its thread has not seen is a read-modify-write's, as when
    the location has one writer or is written only by read-modify-writes,
    since a store cannot go between a read-modify-write and the write it
    read.  Elsewhere it may go before writes its thread has not seen
    (`Memory.storeAt`): those move one place later, and so does every view
    that knows one of them. -/

namespace Views

variable {Loc Val : Type}

/-- For each location, the timestamp of the latest write known. -/
abbrev View (Loc : Type) := Loc → Nat

/-- The `Ordering` of an atomic operation or a fence. -/
inductive Ordering
  | relaxed
  | release
  | acquire
  | acqRel
  | seqCst
  deriving DecidableEq

namespace Ordering

/-- A load, or the read of an update, with this ordering acquires. -/
def isAcquire : Ordering → Bool
  | acquire | acqRel | seqCst => true
  | relaxed | release => false

/-- A store, or the write of an update, with this ordering releases. -/
def isRelease : Ordering → Bool
  | release | acqRel | seqCst => true
  | relaxed | acquire => false

end Ordering

section Single

variable [DecidableEq Loc]

/-- The view that knows the write at `t` of `l`, and nothing else. -/
def View.single (l : Loc) (t : Nat) : View Loc := fun l' => if l' = l then t else 0

@[simp] theorem View.single_self (l : Loc) (t : Nat) : View.single l t l = t := if_pos rfl

@[simp] theorem View.single_ne {l l' : Loc} (t : Nat) (h : l' ≠ l) : View.single l t l' = 0 :=
  if_neg h

end Single

@[simp] theorem View.sup_apply (V W : View Loc) (l : Loc) : (V ⊔ W) l = max (V l) (W l) := rfl

@[simp] theorem View.bot_apply (l : Loc) : (⊥ : View Loc) l = 0 := rfl

/-! ## Memory -/

/-- A write: its value, and what a reader that acquires it comes to know. -/
structure Msg (Loc Val : Type) where
  val : Val
  view : View Loc

/-- The writes of each location, in modification order. -/
abbrev Memory (Loc Val : Type) := Loc → List (Msg Loc Val)

/-- One write to each location, of `v l`, known to every thread. -/
def Memory.init (v : Loc → Val) : Memory Loc Val := fun l => [⟨v l, ⊥⟩]

section Append

variable [DecidableEq Loc]

/-- `m` written to `l` after every write of `l`. -/
def Memory.append (M : Memory Loc Val) (l : Loc) (m : Msg Loc Val) : Memory Loc Val :=
  Function.update M l (M l ++ [m])

@[simp] theorem Memory.append_self (M : Memory Loc Val) (l : Loc) (m : Msg Loc Val) :
    M.append l m l = M l ++ [m] := Function.update_self l _ M

@[simp] theorem Memory.append_ne (M : Memory Loc Val) {l l' : Loc} (m : Msg Loc Val)
    (h : l' ≠ l) : M.append l m l' = M l' := Function.update_of_ne h _ M

end Append

/-! ## Threads -/

/-- What a thread knows (`cur`), what an acquire fence would add (`acq`), and
    what its relaxed writes release (`rel`). -/
structure TView (Loc : Type) where
  cur : View Loc
  acq : View Loc
  rel : View Loc

/-- A thread that knows the initial writes only. -/
def TView.init : TView Loc := ⟨⊥, ⊥, ⊥⟩

/-- A load can read the write at `ts` of `l`, `m`: the thread has not seen
    it overwritten. -/
structure Reads (T : TView Loc) (M : Memory Loc Val) (l : Loc) (ts : Nat) (m : Msg Loc Val) :
    Prop where
  visible : T.cur l ≤ ts
  get : (M l)[ts]? = some m

/-- A load of a location with one write reads that write. -/
theorem Reads.of_singleton {T : TView Loc} {M : Memory Loc Val} {l : Loc} {ts : Nat}
    {m a : Msg Loc Val} (hM : M l = [a]) (h : Reads T M l ts m) : ts = 0 ∧ m = a := by
  have hg := h.get
  rw [hM] at hg
  rcases ts with _ | ts
  · exact ⟨rfl, by simpa using hg.symm⟩
  · simp at hg

/-- A load of a location with two writes reads one of them. -/
theorem Reads.of_pair {T : TView Loc} {M : Memory Loc Val} {l : Loc} {ts : Nat}
    {m a b : Msg Loc Val} (hM : M l = [a, b]) (h : Reads T M l ts m) :
    (ts = 0 ∧ m = a) ∨ (ts = 1 ∧ m = b) := by
  have hg := h.get
  rw [hM] at hg
  rcases ts with _ | _ | ts
  · exact .inl ⟨rfl, by simpa using hg.symm⟩
  · exact .inr ⟨rfl, by simpa using hg.symm⟩
  · simp at hg

/-- A load reads a write no older than one its view knows. -/
theorem Reads.mem_drop {T : TView Loc} {M : Memory Loc Val} {l : Loc} {ts k : Nat}
    {m : Msg Loc Val} (hk : k ≤ T.cur l) (h : Reads T M l ts m) : m ∈ (M l).drop k := by
  obtain ⟨j, hj⟩ := Nat.exists_eq_add_of_le (Nat.le_trans hk h.visible)
  rw [List.mem_iff_getElem?]
  exact ⟨j, by rw [List.getElem?_drop, ← hj, h.get]⟩

/-- The latest write is at the last timestamp, which a view that knows no
    later write allows a load to read. -/
theorem Reads.latest {T : TView Loc} {M : Memory Loc Val} {l : Loc} {m : Msg Loc Val}
    (hT : T.cur l < (M l).length) (h : (M l).getLast? = some m) :
    Reads T M l ((M l).length - 1) m :=
  ⟨by omega, by rw [← List.getLast?_eq_getElem?]; exact h⟩

section Updates

variable [DecidableEq Loc]

/-- Reading the write at `ts` of `l`, whose view is `R`, with ordering `o`. -/
def TView.read (T : TView Loc) (o : Ordering) (l : Loc) (ts : Nat) (R : View Loc) :
    TView Loc where
  cur := if o.isAcquire then T.cur ⊔ View.single l ts ⊔ R else T.cur ⊔ View.single l ts
  acq := T.acq ⊔ View.single l ts ⊔ R
  rel := T.rel

/-- Writing at `ts` of `l`. -/
def TView.write (T : TView Loc) (l : Loc) (ts : Nat) : TView Loc where
  cur := T.cur ⊔ View.single l ts
  acq := T.acq ⊔ View.single l ts
  rel := T.rel

/-- The view a write at `ts` of `l` with ordering `o` releases; `R` is the
    view of the write an update read, which the update releases again. -/
def TView.released (T : TView Loc) (o : Ordering) (l : Loc) (ts : Nat) (R : View Loc) :
    View Loc :=
  (if o.isRelease then T.cur ⊔ View.single l ts else T.rel ⊔ View.single l ts) ⊔ R

/-- Before a `SeqCst` load of `l`: the thread comes to know the last
    `SeqCst` write of `l`, which the global view `S` keeps. -/
def TView.joinSC (T : TView Loc) (S : View Loc) (l : Loc) : TView Loc where
  cur := T.cur ⊔ View.single l (S l)
  acq := T.acq ⊔ View.single l (S l)
  rel := T.rel

/-! ### What each update knows -/

variable {T : TView Loc} {o : Ordering} {l : Loc} {ts : Nat} {R : View Loc}

theorem TView.cur_le_read : T.cur ≤ (T.read o l ts R).cur := by
  unfold TView.read
  split
  · exact le_sup_left.trans le_sup_left
  · exact le_sup_left

theorem TView.ts_le_read : ts ≤ (T.read o l ts R).cur l := by
  unfold TView.read
  split <;> simp

/-- A read that does not acquire knows, of its location, the write it read,
    which is no older than what the thread knew. -/
theorem TView.read_cur_self (h : o.isAcquire = false) (hts : T.cur l ≤ ts) :
    (T.read o l ts R).cur l = ts := by
  simp [TView.read, h, hts]

/-- An acquiring read comes to know what the write it read released. -/
theorem TView.le_read (h : o.isAcquire = true) : R ≤ (T.read o l ts R).cur := by
  simp only [TView.read, h, if_true]
  exact le_sup_right

/-- A relaxed read leaves the thread knowing no more of another location. -/
theorem TView.read_cur_ne (h : o.isAcquire = false) {l' : Loc} (hl : l' ≠ l) :
    (T.read o l ts R).cur l' = T.cur l' := by
  simp [TView.read, h, hl]

/-- Any read adds what the write released to what an acquire fence will join. -/
theorem TView.le_read_acq : R ≤ (T.read o l ts R).acq := le_sup_right

theorem TView.acq_le_read : T.acq ≤ (T.read o l ts R).acq := le_sup_left.trans le_sup_left

theorem TView.cur_le_write : T.cur ≤ (T.write l ts).cur := le_sup_left

@[simp] theorem TView.write_cur_self (h : T.cur l ≤ ts) : (T.write l ts).cur l = ts := by
  simp [TView.write, h]

@[simp] theorem TView.write_cur_ne {l' : Loc} (hl : l' ≠ l) : (T.write l ts).cur l' = T.cur l' := by
  simp [TView.write, hl]

/-- A releasing write releases everything its writer knows. -/
theorem TView.le_released (h : o.isRelease = true) : T.cur ≤ T.released o l ts R := by
  simp only [TView.released, h, if_true]
  exact le_sup_left.trans le_sup_left

theorem TView.ts_le_released : ts ≤ T.released o l ts R l := by
  unfold TView.released
  split <;> simp

/-- A `SeqCst` load knows at least the last `SeqCst` write of its location. -/
theorem TView.sc_le_joinSC (S : View Loc) : S l ≤ (T.joinSC S l).cur l := by
  simp [TView.joinSC]

end Updates

section Threads

/-- `fence(o)` for `o` other than `SeqCst`: an acquire fence joins `acq`, a
    release fence makes relaxed writes release the current view. -/
def TView.fence (T : TView Loc) (o : Ordering) : TView Loc where
  cur := if o.isAcquire then T.cur ⊔ T.acq else T.cur
  acq := T.acq
  rel := if o.isRelease then (if o.isAcquire then T.cur ⊔ T.acq else T.cur) else T.rel

/-- After joining a thread whose view is `T'`: everything it did happens
    before what follows the `join`. -/
def TView.join (T T' : TView Loc) : TView Loc where
  cur := T.cur ⊔ T'.cur
  acq := T.acq ⊔ T'.cur
  rel := T.rel

variable {T : TView Loc} {o : Ordering}

/-- An acquire fence makes known what the reads since released. -/
theorem TView.acq_le_fence (h : o.isAcquire = true) : T.acq ≤ (T.fence o).cur := by
  simp only [TView.fence, h, if_true]
  exact le_sup_right

theorem TView.cur_le_fence : T.cur ≤ (T.fence o).cur := by
  unfold TView.fence
  split
  · exact le_sup_left
  · exact le_rfl

end Threads

/-! ## The accesses -/

section Accesses

variable [DecidableEq Loc]

/-- `load(o)` of `l` returns `v` and leaves the thread with view `T'`. -/
inductive Load (o : Ordering) (l : Loc) (T : TView Loc) (M : Memory Loc Val) :
    Val → TView Loc → Prop
  | read {ts : Nat} {m : Msg Loc Val} (h : Reads T M l ts m) :
      Load o l T M m.val (T.read o l ts m.view)

/-- A load forgets nothing its thread knew. -/
theorem Load.cur_le {o : Ordering} {l : Loc} {T T' : TView Loc} {M : Memory Loc Val} {v : Val}
    (h : Load o l T M v T') : T.cur ≤ T'.cur := by
  cases h with
  | read _ => exact TView.cur_le_read

/-- A load returns the value of one of the location's writes. -/
theorem Load.mem_map {o : Ordering} {l : Loc} {T T' : TView Loc} {M : Memory Loc Val} {v : Val}
    (h : Load o l T M v T') : v ∈ (M l).map Msg.val := by
  cases h with
  | read hr => exact List.mem_map_of_mem (List.mem_of_getElem? hr.get)

/-- The memory after `store(v, o)` to `l` by a thread with view `T`, its
    write placed last: exact when the writes of `l` the thread has not seen
    are all read-modify-writes' (see `Memory.storeAt` otherwise). -/
def Memory.store (M : Memory Loc Val) (T : TView Loc) (o : Ordering) (l : Loc) (v : Val) :
    Memory Loc Val :=
  M.append l ⟨v, T.released o l (M l).length ⊥⟩

/-- A read-modify-write of `l` with ordering `o`: it reads the latest write,
    returns its value `v`, and writes `f v` right after it, releasing again
    what the write it read released. -/
inductive Update (o : Ordering) (l : Loc) (f : Val → Val) (T : TView Loc) (M : Memory Loc Val) :
    Val → TView Loc → Memory Loc Val → Prop
  | latest {m : Msg Loc Val} (h : (M l).getLast? = some m) :
      Update o l f T M m.val ((T.read o l ((M l).length - 1) m.view).write l (M l).length)
        (M.append l ⟨f m.val,
          (T.read o l ((M l).length - 1) m.view).released o l (M l).length m.view⟩)

/-- What an update does to memory: it read the latest write of `l` and
    wrote `f` of its value right after it. -/
theorem Update.append {o : Ordering} {l : Loc} {f : Val → Val} {T T' : TView Loc}
    {M M' : Memory Loc Val} {v : Val} (h : Update o l f T M v T' M') :
    ∃ m R, (M l).getLast? = some m ∧ v = m.val ∧ M' = M.append l ⟨f v, R⟩ := by
  cases h with
  | @latest m hm => exact ⟨m, _, hm, rfl, rfl⟩

/-- `compare_exchange(expected, new, succ, fail)` of `l`, with the `Result`
    it returns: `ok expected` when it reads the latest write, finds
    `expected` and writes `new` right after it (an update with ordering
    `succ`); `error v` when it reads, as a load with ordering `fail`, a write
    whose value `v` is not `expected`, and writes nothing. -/
inductive CompareExchange (succ fail : Ordering) (l : Loc) (expected new : Val) (T : TView Loc)
    (M : Memory Loc Val) : Except Val Val → TView Loc → Memory Loc Val → Prop
  | ok {T' : TView Loc} {M' : Memory Loc Val}
      (h : Update succ l (fun _ => new) T M expected T' M') :
      CompareExchange succ fail l expected new T M (.ok expected) T' M'
  | error {v : Val} {T' : TView Loc} (h : Load fail l T M v T') (hv : v ≠ expected) :
      CompareExchange succ fail l expected new T M (.error v) T' M

@[simp] theorem Memory.store_self (M : Memory Loc Val) (T : TView Loc) (o : Ordering) (l : Loc)
    (v : Val) : M.store T o l v l = M l ++ [⟨v, T.released o l (M l).length ⊥⟩] :=
  Memory.append_self M l _

@[simp] theorem Memory.store_ne (M : Memory Loc Val) (T : TView Loc) (o : Ordering) {l l' : Loc}
    (v : Val) (h : l' ≠ l) : M.store T o l v l' = M l' :=
  Memory.append_ne M _ h

end Accesses

/-! ## Stores placed before writes not yet seen

    A store that is not a read-modify-write need only go after the writes
    its thread knows.  Placed at `p`, with `T.cur l < p`, it goes before the
    writes from `p` on, which move one place later, and every view that
    knows one of them moves with it (`View.shift`). -/

section Insert

variable [DecidableEq Loc]

/-- `V` with the timestamps of `l` from `p` on moved one later. -/
def View.shift (l : Loc) (p : Nat) (V : View Loc) : View Loc :=
  Function.update V l (if p ≤ V l then V l + 1 else V l)

def TView.shift (l : Loc) (p : Nat) (T : TView Loc) : TView Loc :=
  ⟨T.cur.shift l p, T.acq.shift l p, T.rel.shift l p⟩

def Msg.shift (l : Loc) (p : Nat) (m : Msg Loc Val) : Msg Loc Val := ⟨m.val, m.view.shift l p⟩

/-- The memory after `store(v, o)` to `l` placed at `p` by a thread with
    view `T`: the writes from `p` on, and every view of a write, shifted,
    and the new write releasing the writer's shifted view. -/
def Memory.storeAt (M : Memory Loc Val) (T : TView Loc) (o : Ordering) (l : Loc) (p : Nat)
    (v : Val) : Memory Loc Val :=
  Function.update (fun l' => (M l').map (Msg.shift l p)) l
    (((M l).map (Msg.shift l p)).insertIdx p ⟨v, (T.shift l p).released o l p ⊥⟩)

variable {l l' : Loc} {p : Nat}

@[simp] theorem View.shift_ne {V : View Loc} (h : l' ≠ l) : V.shift l p l' = V l' :=
  Function.update_of_ne h _ V

/-- Shifting only moves timestamps later. -/
theorem View.le_shift (V : View Loc) : V ≤ V.shift l p := by
  intro l'
  by_cases h : l' = l
  · subst h
    simp only [View.shift, Function.update_self]
    split <;> omega
  · rw [View.shift_ne h]

@[simp] theorem TView.shift_cur (T : TView Loc) : (T.shift l p).cur = T.cur.shift l p := rfl

@[simp] theorem Msg.shift_val (m : Msg Loc Val) : (m.shift l p).val = m.val := rfl

variable {M : Memory Loc Val} {T : TView Loc} {o : Ordering} {v : Val}

theorem Memory.storeAt_self : M.storeAt T o l p v l =
    ((M l).map (Msg.shift l p)).insertIdx p ⟨v, (T.shift l p).released o l p ⊥⟩ :=
  Function.update_self l _ _

theorem Memory.storeAt_ne (h : l' ≠ l) : M.storeAt T o l p v l' = (M l').map (Msg.shift l p) :=
  Function.update_of_ne h _ _

/-- A store placed within the writes of `l` adds one write there. -/
theorem Memory.length_storeAt_self (hp : p ≤ (M l).length) :
    (M.storeAt T o l p v l).length = (M l).length + 1 := by
  rw [Memory.storeAt_self, List.length_insertIdx_of_le_length (by simpa using hp), List.length_map]

/-- Shifting the views leaves every other location's values as they were. -/
theorem Memory.map_val_storeAt_ne (h : l' ≠ l) :
    (M.storeAt T o l p v l').map Msg.val = (M l').map Msg.val := by
  rw [Memory.storeAt_ne h, List.map_map]
  rfl

end Insert

/-! ## Counters

    A location whose writes are `0, 1, 2, …` in modification order: a
    counter written only by `fetch_add(1)`, or by one thread storing the
    next value each time.  The value of each write is its timestamp, so a
    load returns the timestamp it read. -/

section Counters

variable {o : Ordering} {l : Loc} {T T' : TView Loc} {M M' : Memory Loc Nat}

/-- The values of `l`'s writes are their timestamps. -/
def Memory.Counts (M : Memory Loc Nat) (l : Loc) : Prop :=
  (M l).map Msg.val = List.range (M l).length

theorem Memory.counts_init (l : Loc) : (Memory.init fun _ => 0 : Memory Loc Nat).Counts l := rfl

/-- A counter is one in every memory that has the same writes there. -/
theorem Memory.Counts.of_eq (hc : M.Counts l) (h : M' l = M l) : M'.Counts l := by
  unfold Memory.Counts
  rw [h]
  exact hc

variable [DecidableEq Loc]

/-- Storing the next value keeps a counter one. -/
theorem Memory.Counts.store (hc : M.Counts l) (T : TView Loc) (o : Ordering) :
    (M.store T o l (M l).length).Counts l := by
  unfold Memory.Counts
  rw [Memory.store_self, List.map_append, hc, List.length_append, List.length_singleton]
  exact List.range_succ.symm

/-- A load of a counter returns the timestamp it read: one no older than
    its view and older than the length of the modification order. -/
theorem Load.of_counts (hc : M.Counts l) {n : Nat} (h : Load o l T M n T') :
    T.cur l ≤ n ∧ n < (M l).length ∧ ∃ R, T' = T.read o l n R := by
  cases h with
  | @read ts m hr =>
      have hts : ts < (M l).length := (List.getElem?_eq_some_iff.mp hr.get).1
      have hget : (List.range (M l).length)[ts]? = some m.val := by
        rw [← hc, List.getElem?_map, hr.get]
        rfl
      rw [List.getElem?_range hts] at hget
      have hm : m.val = ts := (Option.some.inj hget).symm
      rw [hm]
      exact ⟨hr.visible, hts, m.view, rfl⟩

/-- An update of `l` writes no other location. -/
theorem Update.frame {f : Val → Val} {M M' : Memory Loc Val} {v : Val}
    (h : Update o l f T M v T' M') {l' : Loc} (hl : l' ≠ l) : M' l' = M l' := by
  obtain ⟨m, R, -, -, rfl⟩ := h.append
  exact Memory.append_ne M _ hl

/-- `fetch_add(1)` of a counter reads its latest write and writes the next
    value right after it. -/
theorem Update.of_counts (hc : M.Counts l) {v : Nat} (h : Update o l (· + 1) T M v T' M') :
    v + 1 = (M l).length ∧ (M' l).length = (M l).length + 1 ∧ M'.Counts l := by
  obtain ⟨m, R, hlast, rfl, rfl⟩ := h.append
  -- the latest write's value is the last timestamp
  have hv : m.val + 1 = (M l).length := by
    have hl := congrArg List.getLast? hc
    rw [List.getLast?_map, hlast, List.getLast?_range] at hl
    split at hl
    · cases hl
    · have := Option.some.inj hl
      omega
  refine ⟨hv, by simp, ?_⟩
  unfold Memory.Counts
  rw [Memory.append_self, List.map_append, hc, List.length_append, List.length_singleton]
  show List.range (M l).length ++ [m.val + 1] = List.range ((M l).length + 1)
  rw [hv]
  exact List.range_succ.symm

end Counters

/-! ## The latest write, and counters that may read stale values

    A read-modify-write reads the latest write, and a load can read it too
    when its view knows no later one.  A counter incremented by a load and
    a store, which may read a stale value, is no longer `Counts`; but each
    write is still at most its timestamp (`Memory.Bounded`), since the value
    read is at most the timestamp it was read at. -/

section Latest

variable [DecidableEq Loc] {o : Ordering} {l : Loc} {T T' : TView Loc}

/-- The value of the latest write of `l`. -/
def Memory.latest (M : Memory Loc Val) (l : Loc) : Option Val := (M l).getLast?.map Msg.val

@[simp] theorem Memory.latest_store_self (M : Memory Loc Val) (T : TView Loc) (o : Ordering)
    (l : Loc) (v : Val) : (M.store T o l v).latest l = some v := by
  simp [Memory.latest]

@[simp] theorem Memory.latest_store_ne (M : Memory Loc Val) (T : TView Loc) (o : Ordering)
    {l l' : Loc} (v : Val) (h : l' ≠ l) : (M.store T o l v).latest l' = M.latest l' := by
  simp [Memory.latest, h]

theorem Memory.latest_storeAt_ne (M : Memory Loc Val) (T : TView Loc) (o : Ordering) {l l' : Loc}
    (p : Nat) (v : Val) (h : l' ≠ l) : (M.storeAt T o l p v).latest l' = M.latest l' := by
  unfold Memory.latest
  rw [← List.getLast?_map, Memory.map_val_storeAt_ne h, List.getLast?_map]

/-- An update reads the latest write and leaves its own write latest. -/
theorem Update.latest_eq {f : Val → Val} {M M' : Memory Loc Val} {v : Val}
    (h : Update o l f T M v T' M') : M.latest l = some v ∧ M'.latest l = some (f v) := by
  obtain ⟨m, R, hlast, rfl, rfl⟩ := h.append
  simp [Memory.latest, hlast]

/-- An update that acquires comes to know what the write it read released. -/
theorem Update.view_le_cur {f : Val → Val} {M M' : Memory Loc Val} {v : Val}
    (h : Update o l f T M v T' M') (ho : o.isAcquire = true) :
    ∃ m, (M l).getLast? = some m ∧ m.view ≤ T'.cur := by
  cases h with
  | @latest m hm => exact ⟨m, hm, (TView.le_read ho).trans TView.cur_le_write⟩

theorem TView.ts_le_write {ts : Nat} : ts ≤ (T.write l ts).cur l := by
  simp [TView.write]

/-- An update knows its own write, which is the last. -/
theorem Update.length_le_cur {f : Val → Val} {M M' : Memory Loc Val} {v : Val}
    (h : Update o l f T M v T' M') :
    (M l).length ≤ T'.cur l ∧ (M' l).length = (M l).length + 1 := by
  cases h with
  | latest _ => exact ⟨TView.ts_le_write, by simp⟩

/-- What a read of `l` adds to the view of another location: at most what
    the write read released. -/
theorem TView.read_cur_le_ne {ts : Nat} {R : View Loc} {l' : Loc} (hl : l' ≠ l) :
    (T.read o l ts R).cur l' ≤ max (T.cur l') (R l') := by
  unfold TView.read
  split <;> simp [hl]

/-- What a write of `l` releases of another location: at most what its
    writer knows, what its relaxed writes release and what it read. -/
theorem TView.released_le_ne {ts : Nat} {R : View Loc} {l' : Loc} (hl : l' ≠ l) :
    T.released o l ts R l' ≤ max (max (T.cur l') (T.rel l')) (R l') := by
  unfold TView.released
  split
  · simp [hl]
    omega
  · simp [hl]

end Latest

section Bounded

variable {o : Ordering} {l : Loc} {T T' : TView Loc} {M M' : Memory Loc Nat}

theorem Memory.exists_latest {M : Memory Loc Val} (h : M l ≠ []) : ∃ v, M.latest l = some v := by
  cases hm : (M l).getLast? with
  | none => exact absurd (List.getLast?_eq_none_iff.mp hm) h
  | some m => exact ⟨m.val, by simp [Memory.latest, hm]⟩

/-- Each write of `l` is at most its timestamp. -/
def Memory.Bounded (M : Memory Loc Nat) (l : Loc) : Prop :=
  ∀ (ts : Nat) (m : Msg Loc Nat), (M l)[ts]? = some m → m.val ≤ ts

theorem Memory.bounded_init (l : Loc) : (Memory.init fun _ => 0 : Memory Loc Nat).Bounded l := by
  intro ts m hm
  obtain ⟨-, rfl⟩ := List.getElem?_eq_some_iff.mp hm
  simp [Memory.init]

theorem Memory.Bounded.of_eq (hb : M.Bounded l) (h : M' l = M l) : M'.Bounded l := by
  intro ts m hm
  rw [h] at hm
  exact hb ts m hm

/-- A store of at most the count of writes keeps a location bounded. -/
theorem Memory.Bounded.store [DecidableEq Loc] (hb : M.Bounded l) (T : TView Loc) (o : Ordering) {v : Nat}
    (hv : v ≤ (M l).length) : (M.store T o l v).Bounded l := by
  intro ts m hm
  rw [Memory.store_self] at hm
  rcases Nat.lt_or_ge ts (M l).length with hlt | hge
  · rw [List.getElem?_append_left hlt] at hm
    exact hb ts m hm
  · -- the new write, at the old count
    rw [List.getElem?_append_right hge] at hm
    obtain ⟨hts, rfl⟩ := List.getElem?_eq_some_iff.mp hm
    simp only [List.length_singleton] at hts
    simp only [List.getElem_singleton]
    omega

/-- A store placed at `p` within the writes of `l`, of at most `p`, keeps
    `l` bounded: the writes it moves go later still. -/
theorem Memory.Bounded.storeAt [DecidableEq Loc] (hb : M.Bounded l) (T : TView Loc) (o : Ordering)
    {p v : Nat} (hp : p ≤ (M l).length) (hv : v ≤ p) : (M.storeAt T o l p v).Bounded l := by
  intro ts m hm
  rw [Memory.storeAt_self] at hm
  rcases Nat.lt_trichotomy ts p with hlt | rfl | hgt
  · rw [List.getElem?_insertIdx_of_lt hlt, List.getElem?_map] at hm
    obtain ⟨m', hm', rfl⟩ := Option.map_eq_some_iff.mp hm
    exact hb ts m' hm'
  · -- the new write, at `p`
    rw [List.getElem?_insertIdx_self, if_pos (by simpa using hp)] at hm
    cases hm
    exact hv
  · rw [List.getElem?_insertIdx_of_gt hgt, List.getElem?_map] at hm
    obtain ⟨m', hm', rfl⟩ := Option.map_eq_some_iff.mp hm
    have := hb (ts - 1) m' hm'
    simp only [Msg.shift_val]
    omega

/-- A load of a bounded location returns less than the count of writes. -/
theorem Load.lt_of_bounded [DecidableEq Loc] (hb : M.Bounded l) {v : Nat} (h : Load o l T M v T') :
    v < (M l).length := by
  cases h with
  | @read ts m hr =>
      have hts : ts < (M l).length := (List.getElem?_eq_some_iff.mp hr.get).1
      exact Nat.lt_of_le_of_lt (hb ts m hr.get) hts

/-- A load of a bounded location returns at most what its thread then
    knows of it. -/
theorem Load.le_cur_of_bounded [DecidableEq Loc] (hb : M.Bounded l) {v : Nat}
    (h : Load o l T M v T') : v ≤ T'.cur l := by
  cases h with
  | @read ts m hr => exact Nat.le_trans (hb ts m hr.get) TView.ts_le_read

/-- The latest write of a bounded location is less than the count of writes. -/
theorem Memory.Bounded.latest_lt (hb : M.Bounded l) {v : Nat} (h : M.latest l = some v) :
    v < (M l).length := by
  obtain ⟨m, hm, rfl⟩ := Option.map_eq_some_iff.mp h
  rw [List.getLast?_eq_getElem?] at hm
  have hts := (List.getElem?_eq_some_iff.mp hm).1
  have := hb _ m hm
  omega

/-- The latest write of a counter is its last timestamp. -/
theorem Memory.Counts.latest (hc : M.Counts l) (hne : M l ≠ []) :
    M.latest l = some ((M l).length - 1) := by
  unfold Memory.latest
  rw [← List.getLast?_map, hc, List.getLast?_range, if_neg (by simpa using hne)]

end Bounded

end Views
