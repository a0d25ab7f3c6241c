import Mathlib.Tactic.Common

/-! # `usize` counters — the arithmetic of `AtomicUsize`

    The reference counts of the `Arc` implementations are `AtomicUsize`s on a
    64-bit target.  `fetch_add` and `fetch_sub` wrap around on overflow, so a
    counter is a `Nat` below `2 ^ 64` updated modulo `2 ^ 64`; the values a
    `compare_exchange` or a `store` writes are computed by the caller and are
    written as they are.  The lemmas say when the wrapping operations are the
    plain successor and predecessor, and what they do at the two ends. -/

namespace Usize

/-- `usize::MAX` on a 64-bit target. -/
def MAX : Nat := 18446744073709551615

/-- The value `fetch_add(1)` leaves in a counter that held `v`. -/
def wrappingAdd (v : Nat) : Nat := (v + 1) % (MAX + 1)

/-- The value `fetch_sub(1)` leaves in a counter that held `v`. -/
def wrappingSub (v : Nat) : Nat := (v + MAX) % (MAX + 1)

theorem wrappingAdd_of_lt (v : Nat) (h : v < MAX) : wrappingAdd v = v + 1 := by
  unfold wrappingAdd
  unfold MAX at h ⊢
  omega

/-- `fetch_add(1)` on `usize::MAX` wraps the counter to zero. -/
theorem wrappingAdd_MAX : wrappingAdd MAX = 0 := by
  unfold wrappingAdd MAX
  rfl

theorem wrappingSub_of_pos (v : Nat) (h0 : 0 < v) (h : v ≤ MAX) :
    wrappingSub v = v - 1 := by
  unfold wrappingSub
  unfold MAX at h ⊢
  omega

/-- `fetch_sub(1)` on zero wraps the counter to `usize::MAX`. -/
theorem wrappingSub_zero : wrappingSub 0 = MAX := by
  unfold wrappingSub MAX
  rfl

theorem wrappingAdd_le_MAX (v : Nat) : wrappingAdd v ≤ MAX := by
  unfold wrappingAdd
  unfold MAX
  omega

theorem wrappingSub_le_MAX (v : Nat) : wrappingSub v ≤ MAX := by
  unfold wrappingSub
  unfold MAX
  omega

/-- The abort threshold `usize::MAX / 2` sits well below the top. -/
theorem half_add_two_lt : MAX / 2 + 2 < MAX - 1 := by
  unfold MAX
  omega

/-- Twice the abort threshold is one short of the top. -/
theorem two_mul_half : 2 * (MAX / 2) + 1 = MAX := by
  unfold MAX
  omega

end Usize
