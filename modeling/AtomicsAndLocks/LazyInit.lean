import AtomicsAndLocks.Interleaving
import Mathlib.Data.Multiset.Bind
import Mathlib.Data.Multiset.Range
import Mathlib.Tactic.Abel

/-! # Lazy initialisation through an `AtomicPtr` (03-05-02_lazy-initialization-with-dereferences.rs)

    `get_data` loads `PTR`.  On a null pointer it allocates a `Box<Data>` and
    tries `compare_exchange(null, p)`: on success its box is installed; on
    failure it frees its box with `drop(Box::from_raw(p))` and takes the
    pointer it found.  Either way it returns `&*p`.  Any number of threads
    call it, each as often as it likes.

    A box is named by its allocation: the `k`-th `Box::new` yields `k`,
    whatever address the allocator picks, so an address reused after a free
    is still a new allocation.  `PTR` holds `none` for null.  The `Acquire`
    load may read null after the install; the exchange reads the latest
    value.  What `Data` holds is not modelled: no modelled function reads it.

    Ghost fields record the allocations, the frees, the successful exchanges
    and the pointers returned.  `Inv` says that each allocation is installed,
    held by the call that made it, or freed — exactly one of the three — and
    that every pointer returned or found is the installed one. -/

namespace LazyInit

open Interleaving Relation

/-- `PTR`, and a ghost record of the boxes. -/
structure Heap where
  ptr : Option Nat
  /-- the allocations made so far are `0, …, allocs - 1` -/
  allocs : Nat
  freed : Multiset Nat
  /-- the `compare_exchange`s that succeeded -/
  installs : Nat
  returned : Multiset Nat

inductive Pc
  | idle
  /-- the load saw null: `Box::new(generate_data())` is next -/
  | alloc
  /-- holding the box `p`: `compare_exchange(null, p)` is next -/
  | exchange (p : Nat)
  /-- the exchange returned `Err(e)`: `drop(Box::from_raw(p))` is next -/
  | free (p e : Nat)
  deriving DecidableEq

/-- One atomic step of `get_data`. -/
inductive Act : Heap → Pc → Heap → Pc → Prop
  /-- `PTR.load(Acquire)` is not null: `&*p` is returned. -/
  | loadSome {d : Heap} {e : Nat} (h : d.ptr = some e) :
      Act d .idle { d with returned := e ::ₘ d.returned } .idle
  /-- `PTR.load(Acquire)` reads null, perhaps an older value. -/
  | loadNull {d : Heap} : Act d .idle d .alloc
  /-- `Box::into_raw(Box::new(generate_data()))`. -/
  | alloc {d : Heap} : Act d .alloc { d with allocs := d.allocs + 1 } (.exchange d.allocs)
  /-- The exchange finds null and installs `p`, which is returned. -/
  | install {d : Heap} {p : Nat} (h : d.ptr = none) :
      Act d (.exchange p)
        { d with ptr := some p, installs := d.installs + 1, returned := p ::ₘ d.returned } .idle
  /-- The exchange finds `e`. -/
  | exchangeFail {d : Heap} {p e : Nat} (h : d.ptr = some e) : Act d (.exchange p) d (.free p e)
  /-- `drop(Box::from_raw(p))`; `p = e`, and `&*e` is returned. -/
  | free {d : Heap} {p e : Nat} :
      Act d (.free p e) { d with freed := p ::ₘ d.freed, returned := e ::ₘ d.returned } .idle

abbrev Conf := Interleaving.Conf Heap Pc

/-- `n` threads, `PTR` null and nothing allocated. -/
def init (n : Nat) : Conf := ⟨⟨none, 0, 0, 0, 0⟩, Multiset.replicate n .idle⟩

def Reachable (c : Conf) : Prop :=
  ∃ n, ReflTransGen (Interleaving.Step Act noHandOff) (init n) c

/-- The installed box, if any. -/
def Heap.installed (d : Heap) : Multiset Nat :=
  match d.ptr with
  | some p => {p}
  | none => 0

/-- Allocations not freed. -/
def Heap.live (d : Heap) : Multiset Nat := Multiset.range d.allocs - d.freed

/-- The box a call holds, if any. -/
def Pc.box : Pc → Multiset Nat
  | .exchange p => {p}
  | .free p _ => {p}
  | _ => 0

/-- The boxes the calls hold. -/
def boxes (m : Multiset Pc) : Multiset Nat := m.bind Pc.box

/-- A call whose exchange found `e` finds `e` in `PTR` still. -/
def Pc.Found (ptr : Option Nat) : Pc → Prop
  | .free _ e => ptr = some e
  | _ => True

theorem Heap.installed_some {d : Heap} {p : Nat} (h : d.ptr = some p) : d.installed = {p} := by
  rw [Heap.installed, h]

theorem Heap.installed_none {d : Heap} (h : d.ptr = none) : d.installed = 0 := by
  rw [Heap.installed, h]

theorem Heap.card_installed_le (d : Heap) : Multiset.card d.installed ≤ 1 := by
  cases h : d.ptr with
  | some p => rw [Heap.installed_some h, Multiset.card_singleton]
  | none => rw [Heap.installed_none h, Multiset.card_zero]; exact Nat.zero_le 1

theorem boxes_cons (t : Pc) (m : Multiset Pc) : boxes (t ::ₘ m) = t.box + boxes m :=
  Multiset.cons_bind t m Pc.box

theorem boxes_eq_zero {m : Multiset Pc} (h : ∀ t ∈ m, t = .idle) : boxes m = 0 := by
  induction m using Multiset.induction_on with
  | empty => exact Multiset.zero_bind Pc.box
  | cons t m ih =>
      rw [boxes_cons, h t (Multiset.mem_cons_self t m),
        ih fun u hu => h u (Multiset.mem_cons_of_mem hu)]
      rfl

/-! ## What one step does -/

section Steps

variable {d d' : Heap} {t t' : Pc}

/-- Once installed, the box stays installed: the exchange installs only over null. -/
theorem Act.ptr_keep (h : Act d t d' t') {e : Nat} (hp : d.ptr = some e) : d'.ptr = some e := by
  cases h with
  | install h0 => rw [h0] at hp; cases hp
  | loadSome | loadNull | alloc | exchangeFail | free => exact hp

theorem Pc.Found.keep {u : Pc} (hf : u.Found d.ptr)
    (hk : ∀ e, d.ptr = some e → d'.ptr = some e) : u.Found d'.ptr := by
  cases u with
  | free p e => exact hk e hf
  | idle | alloc | exchange => trivial

theorem Act.found (h : Act d t d' t') : t'.Found d'.ptr := by
  cases h with
  | exchangeFail h => exact h
  | loadSome | loadNull | alloc | install | free => trivial

/-- **ONE STEP MOVES ONE BOX**: an allocation goes to the call that made it;
    the exchange moves it from the call to `PTR`, or the free from the call
    to the freed boxes. -/
theorem Act.partition (h : Act d t d' t') {B : Multiset Nat}
    (hp : Multiset.range d.allocs = d.installed + t.box + B + d.freed) :
    Multiset.range d'.allocs = d'.installed + t'.box + B + d'.freed := by
  cases h with
  | loadSome | loadNull | exchangeFail => exact hp
  | alloc =>
      simp only [Pc.box, Multiset.add_zero] at hp
      show Multiset.range (d.allocs + 1) = d.installed + {d.allocs} + B + d.freed
      rw [Multiset.range_succ, hp, ← Multiset.singleton_add]
      abel
  | install h0 =>
      show Multiset.range d.allocs = {_} + 0 + B + d.freed
      rw [hp, Heap.installed_none h0, Pc.box]
      abel
  | free =>
      show Multiset.range d.allocs = d.installed + 0 + B + (_ ::ₘ d.freed)
      rw [hp, Pc.box, ← Multiset.singleton_add]
      abel

theorem Act.installs_eq (h : Act d t d' t')
    (hi : d.installs = Multiset.card d.installed) : d'.installs = Multiset.card d'.installed := by
  cases h with
  | install h0 =>
      show d.installs + 1 = Multiset.card {_}
      rw [hi, Heap.installed_none h0, Multiset.card_zero, Multiset.card_singleton]
  | loadSome | loadNull | alloc | exchangeFail | free => exact hi

/-- Every pointer a call returns is the installed one. -/
theorem Act.returned_eq (h : Act d t d' t') (hr : ∀ p ∈ d.returned, d.ptr = some p)
    (hf : t.Found d.ptr) : ∀ p ∈ d'.returned, d'.ptr = some p := by
  have hkeep : ∀ p ∈ d.returned, d'.ptr = some p := fun p hp => h.ptr_keep (hr p hp)
  cases h with
  | loadNull | alloc | exchangeFail => exact hkeep
  | loadSome he => exact Multiset.forall_mem_cons.mpr ⟨he, hkeep⟩
  | install => exact Multiset.forall_mem_cons.mpr ⟨rfl, hkeep⟩
  | free =>
      -- the freeing call found `e` in `PTR`, and returns it
      exact Multiset.forall_mem_cons.mpr ⟨hf, hkeep⟩

end Steps

/-! ## The invariant -/

structure Inv (c : Conf) : Prop where
  partition : Multiset.range c.shared.allocs = c.shared.installed + boxes c.threads + c.shared.freed
  installs_eq : c.shared.installs = Multiset.card c.shared.installed
  returned_eq : ∀ p ∈ c.shared.returned, c.shared.ptr = some p
  found : ∀ t ∈ c.threads, t.Found c.shared.ptr

theorem inv_init (n : Nat) : Inv (init n) where
  partition := by
    show (0 : Multiset Nat) = 0 + boxes (Multiset.replicate n .idle) + 0
    rw [boxes_eq_zero fun t ht => Multiset.eq_of_mem_replicate ht]
    rfl
  installs_eq := rfl
  returned_eq := fun _ hp => absurd hp (Multiset.notMem_zero _)
  found := by
    intro t ht
    rw [Multiset.eq_of_mem_replicate ht]
    trivial

theorem inv_step {c c' : Conf} (hinv : Inv c) (h : Interleaving.Step Act noHandOff c c') :
    Inv c' := by
  cases h with
  | duo rest hh => exact hh.elim
  | solo rest ha =>
      obtain ⟨hp, hi, hr, hf⟩ := hinv
      have hft := hf _ (Multiset.mem_cons_self _ _)
      refine ⟨?_, ha.installs_eq hi, ha.returned_eq hr hft, ?_⟩
      · rw [boxes_cons, ← Multiset.add_assoc] at hp ⊢
        exact ha.partition hp
      · intro u hu
        rcases Multiset.mem_cons.mp hu with rfl | hu
        · exact ha.found
        -- another call's `e` stays in `PTR`
        · exact (hf u (Multiset.mem_cons_of_mem hu)).keep fun e he => ha.ptr_keep he

theorem inv_reachable {c : Conf} (hr : Reachable c) : Inv c := by
  obtain ⟨n, hr⟩ := hr
  induction hr with
  | refl => exact inv_init n
  | tail _ hs ih => exact inv_step ih hs

/-! ## What the invariant says -/

section Consequences

variable {c : Conf}

theorem Inv.nodup (h : Inv c) :
    (c.shared.installed + boxes c.threads + c.shared.freed).Nodup := by
  rw [← h.partition]
  exact Multiset.nodup_range _

/-- No box is freed twice, and the installed box is never freed. -/
theorem Inv.freed_nodup (h : Inv c) : c.shared.freed.Nodup :=
  (Multiset.nodup_add.mp h.nodup).2.1

theorem Inv.installed_not_freed (h : Inv c) {p : Nat} (hp : c.shared.ptr = some p) :
    p ∉ c.shared.freed := by
  have hdis := (Multiset.nodup_add.mp h.nodup).2.2
  have hmem : p ∈ c.shared.installed + boxes c.threads := by
    rw [Heap.installed_some hp, Multiset.add_comm]
    exact Multiset.mem_add.mpr (Or.inr (Multiset.mem_singleton_self p))
  exact Multiset.disjoint_left.mp hdis hmem

/-- With every call returned, the boxes not freed are the installed one. -/
theorem Inv.live_of_idle (h : Inv c) (hi : ∀ t ∈ c.threads, t = .idle) :
    c.shared.live = c.shared.installed := by
  have hp := h.partition
  rw [boxes_eq_zero hi, Multiset.add_zero] at hp
  rw [Heap.live, hp, Multiset.add_sub_cancel_right]

end Consequences

/-- In every reachable configuration, for any number of threads: at most one
    `compare_exchange` has succeeded, and every call returned the box it
    installed; every allocation is installed, held by the call that made it
    (before its exchange, or after a failed one and before its free), or
    freed, exactly one of the three; no box is freed twice and the installed
    box is never freed; and once all calls have returned, some call having
    been made, exactly one allocation is live: the installed box. -/
theorem returns_installed_box (c : Conf) (hr : Reachable c) :
    c.shared.installs ≤ 1 ∧
    (∀ p ∈ c.shared.returned, c.shared.ptr = some p) ∧
    Multiset.range c.shared.allocs = c.shared.installed + boxes c.threads + c.shared.freed ∧
    c.shared.freed.Nodup ∧
    (∀ p, c.shared.ptr = some p → p ∉ c.shared.freed) ∧
    ((∀ t ∈ c.threads, t = .idle) → c.shared.returned ≠ 0 →
      ∃ p, c.shared.ptr = some p ∧ c.shared.live = {p}) := by
  have h := inv_reachable hr
  refine ⟨?_, h.returned_eq, h.partition, h.freed_nodup, fun p hp => h.installed_not_freed hp, ?_⟩
  · rw [h.installs_eq]
    exact c.shared.card_installed_le
  · intro hi hne
    -- a call returned the installed box, so there is one
    obtain ⟨p, hp⟩ := Multiset.exists_mem_of_ne_zero hne
    have hptr := h.returned_eq p hp
    exact ⟨p, hptr, by rw [h.live_of_idle hi, Heap.installed_some hptr]⟩

/-- One call has installed box 0 and returned. -/
def installedConf : Conf := ⟨⟨some 0, 1, 0, 1, {0}⟩, {.idle}⟩

theorem reach_installedConf : Reachable installedConf := by
  refine ⟨1, ?_⟩
  have s1 : ReflTransGen (Interleaving.Step Act noHandOff) (init 1) ⟨⟨none, 0, 0, 0, 0⟩, {.alloc}⟩ :=
    reach_solo 0 Act.loadNull
  have s2 : ReflTransGen (Interleaving.Step Act noHandOff) ⟨⟨none, 0, 0, 0, 0⟩, {.alloc}⟩
      ⟨⟨none, 1, 0, 0, 0⟩, {.exchange 0}⟩ :=
    reach_solo 0 Act.alloc
  have s3 : ReflTransGen (Interleaving.Step Act noHandOff) ⟨⟨none, 1, 0, 0, 0⟩, {.exchange 0}⟩
      installedConf :=
    reach_solo 0 (Act.install (d := ⟨none, 1, 0, 0, 0⟩) rfl)
  exact s1.trans (s2.trans s3)

theorem returns_installed_box_installedConf :
    Reachable installedConf ∧
    (installedConf.shared.installs ≤ 1 ∧
      (∀ p ∈ installedConf.shared.returned, installedConf.shared.ptr = some p) ∧
      Multiset.range installedConf.shared.allocs =
        installedConf.shared.installed + boxes installedConf.threads + installedConf.shared.freed ∧
      installedConf.shared.freed.Nodup ∧
      (∀ p, installedConf.shared.ptr = some p → p ∉ installedConf.shared.freed) ∧
      ((∀ t ∈ installedConf.threads, t = .idle) → installedConf.shared.returned ≠ 0 →
        ∃ p, installedConf.shared.ptr = some p ∧ installedConf.shared.live = {p})) :=
  ⟨reach_installedConf, returns_installed_box installedConf reach_installedConf⟩

end LazyInit
