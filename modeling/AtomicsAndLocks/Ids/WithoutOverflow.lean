import AtomicsAndLocks.Interleaving
import Mathlib.Data.Multiset.Range

/-! # Issuing IDs with a `compare_exchange_weak` loop (02-03-01_issuing-ids-without-overflow.rs)

    `allocate_new_id` reads `NEXT_ID` and loops: it panics unless its `id`
    is below 1000, and tries `compare_exchange_weak(id, id + 1)`; `Ok`
    returns `id`, `Err(v)` goes round again with `v`.  Any number of threads
    call it, each as often as it likes.

    Every access is `Relaxed`.  A successful exchange reads the latest value
    of `NEXT_ID`; the `load`, and the read of a failed exchange, may see an
    older one.  `NEXT_ID` only ever counts up by one from 0, so the values it
    has held are those up to its current value, and either read may return
    any of them.  A weak exchange may fail although it finds `id`: that is
    the failed exchange returning `id` itself.

    The ghost field `issued` records the IDs returned.  `Inv` says they are
    `0, …, NEXT_ID - 1`, that `NEXT_ID` is at most 1000, and that no thread
    holds an `id` above it; the `assert!` then fires only once `NEXT_ID` is
    1000, and `id + 1` never overflows. -/

namespace WithoutOverflow

open Interleaving Relation

/-- `NEXT_ID`, and the IDs `allocate_new_id` has returned. -/
structure NextId where
  value : Nat
  issued : Multiset Nat

inductive Pc
  | idle
  /-- in the loop, holding `id` -/
  | loop (id : Nat)
  /-- `assert!(id < 1000, "too many IDs!")` failed -/
  | panicked
  deriving DecidableEq

/-- One atomic step of `allocate_new_id`. -/
inductive Act : NextId → Pc → NextId → Pc → Prop
  /-- `let mut id = NEXT_ID.load(Relaxed)`. -/
  | load {d : NextId} {v : Nat} (hv : v ≤ d.value) : Act d .idle d (.loop v)
  /-- "too many IDs!" -/
  | tooMany {d : NextId} {id : Nat} (h : 1000 ≤ id) : Act d (.loop id) d .panicked
  /-- The exchange finds `id` and stores `id + 1`: `Ok(_) => return id`. -/
  | exchange {d : NextId} {id : Nat} (h : id < 1000) (hv : d.value = id) :
      Act d (.loop id) ⟨id + 1, id ::ₘ d.issued⟩ .idle
  /-- The exchange fails, on another value or spuriously: `Err(v) => id = v`. -/
  | retry {d : NextId} {id v : Nat} (h : id < 1000) (hv : v ≤ d.value) :
      Act d (.loop id) d (.loop v)

abbrev Conf := Interleaving.Conf NextId Pc

/-- `n` threads, none of which has called `allocate_new_id` yet. -/
def init (n : Nat) : Conf := ⟨⟨0, 0⟩, Multiset.replicate n .idle⟩

def Reachable (c : Conf) : Prop :=
  ∃ n, ReflTransGen (Interleaving.Step Act noHandOff) (init n) c

/-- The `id` a thread holds, if any, is at most `n`. -/
def Pc.Below (n : Nat) : Pc → Prop
  | .loop id => id ≤ n
  | _ => True

theorem Pc.Below.mono {p : Pc} {n m : Nat} (h : p.Below n) (hnm : n ≤ m) : p.Below m := by
  cases p with
  | loop id => exact Nat.le_trans h hnm
  | idle | panicked => trivial

/-! ## What one step does -/

section Steps

variable {d d' : NextId} {t t' : Pc}

/-- Only the successful exchange writes, and it returns: a step that leaves
    its thread in the call leaves `NEXT_ID` as it was. -/
theorem Act.shared_eq (h : Act d t d' t') (ht' : t' ≠ .idle) : d' = d := by
  cases h with
  | exchange => exact absurd rfl ht'
  | load | tooMany | retry => rfl

theorem Act.value_le (h : Act d t d' t') : d.value ≤ d'.value := by
  cases h with
  | exchange _ hv =>
      show d.value ≤ _ + 1
      omega
  | load | tooMany | retry => exact Nat.le_refl _

/-- The thread's new `id` is a value `NEXT_ID` has held. -/
theorem Act.below (h : Act d t d' t') : t'.Below d'.value := by
  cases h with
  | load hv => exact hv
  | retry _ hv => exact hv
  | tooMany | exchange => trivial

/-- The failed `assert!` sees an `id` of 1000 or more, which `NEXT_ID` once held. -/
theorem Act.value_of_panicked (h : Act d t d' .panicked) (hb : t.Below d.value)
    (hv : d.value ≤ 1000) : d.value = 1000 := by
  cases h with
  | tooMany h1000 =>
      have hid : _ ≤ d.value := hb
      omega

/-- An exchange moves `NEXT_ID` from `id` to `id + 1` and returns `id`, the next
    ID after those issued. -/
theorem Act.issued_eq (h : Act d t d' t') (hi : d.issued = Multiset.range d.value)
    (hv : d.value ≤ 1000) :
    d'.issued = Multiset.range d'.value ∧ d'.value ≤ 1000 := by
  cases h with
  | exchange hlt hid =>
      subst hid
      refine ⟨?_, hlt⟩
      show d.value ::ₘ d.issued = Multiset.range (d.value + 1)
      rw [Multiset.range_succ, hi]
  | load | tooMany | retry => exact ⟨hi, hv⟩

end Steps

/-! ## The invariant -/

structure Inv (c : Conf) : Prop where
  issued_eq : c.shared.issued = Multiset.range c.shared.value
  value_le : c.shared.value ≤ 1000
  below : ∀ t ∈ c.threads, t.Below c.shared.value

theorem inv_init (n : Nat) : Inv (init n) where
  issued_eq := rfl
  value_le := Nat.zero_le _
  below := by
    intro t ht
    rw [Multiset.eq_of_mem_replicate ht]
    trivial

theorem inv_step {c c' : Conf} (hinv : Inv c) (h : Interleaving.Step Act noHandOff c c') :
    Inv c' := by
  cases h with
  | duo rest hh => exact hh.elim
  | solo rest ha =>
      obtain ⟨hi, hv, hb⟩ := hinv
      obtain ⟨hi', hv'⟩ := ha.issued_eq hi hv
      refine ⟨hi', hv', ?_⟩
      intro u hu
      rcases Multiset.mem_cons.mp hu with rfl | hu
      · exact ha.below
      -- the others' ids stay below a counter that only grows
      · exact (hb u (Multiset.mem_cons_of_mem hu)).mono ha.value_le

theorem inv_reachable {c : Conf} (hr : Reachable c) : Inv c := by
  obtain ⟨n, hr⟩ := hr
  induction hr with
  | refl => exact inv_init n
  | tail _ hs ih => exact inv_step ih hs

/-- In every reachable configuration, for any number of threads: the IDs
    returned are `0, …, NEXT_ID - 1`, each once; `NEXT_ID` is at most 1000;
    no step of a call but the exchange that returns changes `NEXT_ID`, so a
    call that panics leaves it as it was; and a call panics only once
    `NEXT_ID` is 1000. -/
theorem issues_each_id_once (c : Conf) (hr : Reachable c) :
    c.shared.issued = Multiset.range c.shared.value ∧ c.shared.issued.Nodup ∧
    c.shared.value ≤ 1000 ∧
    (∀ t ∈ c.threads, ∀ d' t', Act c.shared t d' t' → t' ≠ .idle → d' = c.shared) ∧
    (∀ t ∈ c.threads, ∀ d', Act c.shared t d' .panicked → c.shared.value = 1000) := by
  have h := inv_reachable hr
  refine ⟨h.issued_eq, ?_, h.value_le, ?_, ?_⟩
  · rw [h.issued_eq]
    exact Multiset.nodup_range _
  · intro t _ d' t' ha ht'
    exact ha.shared_eq ht'
  · intro t ht d' ha
    exact ha.value_of_panicked (h.below t ht) h.value_le

/-- One thread has taken ID 0 and is back between calls. -/
def firstId : Conf := ⟨⟨1, {0}⟩, {.idle}⟩

theorem reach_firstId : Reachable firstId := by
  refine ⟨1, ?_⟩
  have s1 : ReflTransGen (Interleaving.Step Act noHandOff) (init 1) ⟨⟨0, 0⟩, {.loop 0}⟩ :=
    reach_solo 0 (Act.load (Nat.le_refl 0))
  have s2 : ReflTransGen (Interleaving.Step Act noHandOff) ⟨⟨0, 0⟩, {.loop 0}⟩ firstId :=
    reach_solo 0 (Act.exchange (d := ⟨0, 0⟩) (by decide) rfl)
  exact s1.trans s2

theorem issues_each_id_once_firstId :
    Reachable firstId ∧
    (firstId.shared.issued = Multiset.range firstId.shared.value ∧
      firstId.shared.issued.Nodup ∧ firstId.shared.value ≤ 1000 ∧
      (∀ t ∈ firstId.threads, ∀ d' t', Act firstId.shared t d' t' → t' ≠ .idle →
        d' = firstId.shared) ∧
      (∀ t ∈ firstId.threads, ∀ d', Act firstId.shared t d' .panicked →
        firstId.shared.value = 1000)) :=
  ⟨reach_firstId, issues_each_id_once firstId reach_firstId⟩

end WithoutOverflow
