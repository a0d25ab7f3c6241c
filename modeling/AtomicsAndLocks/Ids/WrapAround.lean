import AtomicsAndLocks.Ids.Issuing
import Mathlib.Data.List.Nodup

/-! # IDs that wrap around (02-02-03_issuing-ids.rs)

    `allocate_new_id_with_wrap_around` returns `NEXT_ID.fetch_add(1)`;
    `allocate_new_id_with_problem` takes its ID the same way, prints
    `NEXT_ID.load` and asserts that the ID is below 10.  The only access of a
    call that writes is its `fetch_add`, the `fetch_add`s of all threads
    happen one after another, and the load only feeds the `println!`: a run
    of either, from any number of threads, is a sequence of calls.
    `Call accept` is such a call: it returns its ID when `accept` holds of it
    and panics otherwise, and keeps its increment either way.

    After `n` calls `NEXT_ID` is `n` modulo `2 ^ 32`, and the IDs returned
    are those of `0, 1, …, n - 1` modulo `2 ^ 32` that pass the check, in
    order: this is the only state `n` calls reach (`reachable_iff`).  So the
    IDs returned are all distinct exactly as long as there have been at most
    `2 ^ 32` calls (`ids_unique_iff`). -/

namespace IssuingIds.Variants

open Relation

structure Ids where
  nextId : Nat
  /-- The calls made so far: a ghost. -/
  calls : Nat
  /-- The IDs returned, in order: a ghost. -/
  issued : List Nat
  deriving DecidableEq

/-- A call that takes `NEXT_ID.fetch_add(1)` as its ID, and returns it if
    `accept` holds of it or panics. -/
inductive Call (accept : Nat → Bool) : Ids → Ids → Prop
  | returns {s : Ids} (h : accept s.nextId = true) :
      Call accept s ⟨wrappingAdd s.nextId, s.calls + 1, s.issued ++ [s.nextId]⟩
  | panics {s : Ids} (h : accept s.nextId = false) :
      Call accept s ⟨wrappingAdd s.nextId, s.calls + 1, s.issued⟩

/-- `allocate_new_id_with_wrap_around`: every ID is returned. -/
abbrev allocateNewIdWithWrapAround : Ids → Ids → Prop := Call fun _ => true

/-- `allocate_new_id_with_problem`: `assert!(id < 10, "too many IDs!")`. -/
abbrev allocateNewIdWithProblem : Ids → Ids → Prop := Call fun id => decide (id < 10)

def init : Ids := ⟨0, 0, []⟩

def Reachable (accept : Nat → Bool) (s : Ids) : Prop := ReflTransGen (Call accept) init s

/-! ## The state after `n` calls -/

/-- The IDs the first `n` calls take, in order. -/
def taken (n : Nat) : List Nat := (List.range n).map (· % (MAX + 1))

/-- The state after `n` calls. -/
def after (accept : Nat → Bool) (n : Nat) : Ids :=
  ⟨n % (MAX + 1), n, (taken n).filter accept⟩

theorem taken_succ (n : Nat) : taken (n + 1) = taken n ++ [n % (MAX + 1)] := by
  simp [taken, List.range_succ]

theorem wrappingAdd_mod (n : Nat) : wrappingAdd (n % (MAX + 1)) = (n + 1) % (MAX + 1) := by
  unfold wrappingAdd MAX
  omega

/-- The state after `n + 1` calls: the last takes `n` modulo `2 ^ 32`, and
    returns it if it passes the check. -/
theorem after_succ (accept : Nat → Bool) (n : Nat) :
    after accept (n + 1) = ⟨wrappingAdd (after accept n).nextId, n + 1,
      (after accept n).issued ++ [n % (MAX + 1)].filter accept⟩ := by
  simp only [after, wrappingAdd_mod, taken_succ, List.filter_append]

/-- A call from the state after `n` calls leads to the state after
    `n + 1`, and only there. -/
theorem call_after {accept : Nat → Bool} {n : Nat} {s : Ids} :
    Call accept (after accept n) s ↔ s = after accept (n + 1) := by
  have hid : (after accept n).nextId = n % (MAX + 1) := rfl
  rw [after_succ]
  constructor
  · intro hs
    cases hs with
    | returns h =>
        rw [hid] at h
        simp [h, after]
    | panics h =>
        rw [hid] at h
        simp [h, after]
  -- the call returns or panics as the check says
  · rintro rfl
    cases h : accept (n % (MAX + 1))
    · have hs := Call.panics (s := after accept n) (hid ▸ h)
      simpa [hid, h, after] using hs
    · have hs := Call.returns (s := after accept n) (hid ▸ h)
      simpa [hid, h, after] using hs

theorem reachable_after (accept : Nat → Bool) : ∀ n, Reachable accept (after accept n)
  | 0 => ReflTransGen.refl
  | n + 1 => (reachable_after accept n).tail (call_after.mpr rfl)

/-- The runs of either function are the calls, one after another: a state
    is reached exactly when it is the one after as many calls as it counts,
    with `NEXT_ID` the calls modulo `2 ^ 32` and the IDs returned those
    taken that pass the check, in order. -/
theorem reachable_iff (accept : Nat → Bool) (s : Ids) :
    Reachable accept s ↔ s = after accept s.calls := by
  constructor
  · intro hr
    induction hr with
    | refl => rfl
    | @tail b c _ hs ih =>
        rw [ih] at hs
        rw [call_after.mp hs]
        rfl
  · intro hs
    rw [hs]
    exact reachable_after accept s.calls

/-! ## When the IDs are distinct -/

/-- The IDs that `n` calls take and that pass a check which 0 passes are
    distinct exactly when `n` is at most `2 ^ 32`: the first call and the
    call after `2 ^ 32` more both take 0. -/
theorem nodup_filter_taken_iff {accept : Nat → Bool} (h0 : accept 0 = true) (n : Nat) :
    ((taken n).filter accept).Nodup ↔ n ≤ MAX + 1 := by
  constructor
  · intro hnd
    by_contra hn
    rw [taken, List.filter_map] at hnd
    have hinj := (List.nodup_map_iff_inj_on (List.nodup_range.filter _)).mp hnd
    have h1 : 0 ∈ (List.range n).filter (accept ∘ (· % (MAX + 1))) := by
      simp only [List.mem_filter, List.mem_range, Function.comp, Nat.zero_mod, h0, and_true]
      omega
    have h2 : MAX + 1 ∈ (List.range n).filter (accept ∘ (· % (MAX + 1))) := by
      simp only [List.mem_filter, List.mem_range, Function.comp, Nat.mod_self, h0, and_true]
      omega
    have := hinj 0 h1 (MAX + 1) h2 (by simp)
    omega
  · intro hn
    -- below `2 ^ 32` the calls take `0, 1, …, n - 1` themselves
    have hmap : taken n = List.range n := by
      unfold taken
      conv_rhs => rw [← List.map_id (List.range n)]
      apply List.map_congr_left
      intro x hx
      exact Nat.mod_eq_of_lt (by rw [List.mem_range] at hx; omega)
    rw [hmap]
    exact List.nodup_range.filter _

/-- For either function, in every run: the IDs returned are all distinct
    exactly as long as there have been at most `2 ^ 32` calls. -/
theorem ids_unique_iff (accept : Nat → Bool) (h0 : accept 0 = true) (s : Ids)
    (hr : Reachable accept s) : s.issued.Nodup ↔ s.calls ≤ MAX + 1 := by
  rw [(reachable_iff accept s).mp hr]
  exact nodup_filter_taken_iff h0 s.calls

/-- `main`'s eleven calls of `allocate_new_id_with_wrap_around`. -/
theorem ids_unique_iff_mainCalls :
    (fun _ => true : Nat → Bool) 0 = true ∧ Reachable (fun _ => true) (after (fun _ => true) 11) ∧
      (after (fun _ => true) 11).issued = List.range 11 ∧
      ((after (fun _ => true) 11).issued.Nodup ↔ (after (fun _ => true) 11).calls ≤ MAX + 1) :=
  ⟨rfl, reachable_after _ 11, by decide,
    ids_unique_iff (fun _ => true) rfl (after _ 11) (reachable_after _ 11)⟩

end IssuingIds.Variants
