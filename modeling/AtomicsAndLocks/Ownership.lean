import Mathlib.Data.Multiset.AddSub

/-! # Ownership of a one-shot slot — the ledger

    A slot holds at most one owned value.  A write moves a value in, a read
    moves it out to a caller, a drop destroys it in place.  The ledger is a
    ghost record of these moves: the values written, returned and dropped,
    the value held now, and a fault flag for every move that ownership
    forbids — a write over a held value, which leaks it, and a read or a
    drop when nothing is held, which reads uninitialised memory or a value
    already moved out.

    A ledger is `Sound` when no fault has happened and every value written
    was returned, dropped or is still held, each exactly once; `Settled`
    when moreover nothing is held, so every value written was consumed
    exactly once.  The three moves keep `Sound` under their preconditions,
    and that is all a model of the slot's users has to establish.  Nothing
    here names a particular program. -/

namespace Ownership

variable {α : Type}

/-- What has happened to a slot so far. -/
structure Ledger (α : Type) where
  written : Multiset α
  returned : Multiset α
  dropped : Multiset α
  held : Option α
  fault : Bool

namespace Ledger

variable {l : Ledger α} {a : α}

/-- A slot nobody has touched. -/
def empty : Ledger α := ⟨0, 0, 0, none, false⟩

/-- The value held, as a multiset of at most one element. -/
def stock (l : Ledger α) : Multiset α :=
  match l.held with
  | some a => {a}
  | none => 0

/-- `a` is moved into the slot; a value already held would be lost. -/
def write (l : Ledger α) (a : α) : Ledger α :=
  { l with written := a ::ₘ l.written, held := some a, fault := l.fault || l.held.isSome }

/-- The held value is moved out to a caller. -/
def read (l : Ledger α) : Ledger α :=
  match l.held with
  | some a => { l with returned := a ::ₘ l.returned, held := none }
  | none => { l with fault := true }

/-- The held value is destroyed in place. -/
def drop (l : Ledger α) : Ledger α :=
  match l.held with
  | some a => { l with dropped := a ::ₘ l.dropped, held := none }
  | none => { l with fault := true }

@[simp] theorem stock_some (h : l.held = some a) : l.stock = {a} := by
  rw [stock, h]

@[simp] theorem stock_none (h : l.held = none) : l.stock = 0 := by
  rw [stock, h]

@[simp] theorem write_held : (l.write a).held = some a := rfl

@[simp] theorem write_written : (l.write a).written = a ::ₘ l.written := rfl

theorem read_of_held (h : l.held = some a) :
    l.read = { l with returned := a ::ₘ l.returned, held := none } := by
  rw [read, h]

theorem drop_of_held (h : l.held = some a) :
    l.drop = { l with dropped := a ::ₘ l.dropped, held := none } := by
  rw [drop, h]

@[simp] theorem read_held : l.read.held = none := by
  cases h : l.held with
  | some a => rw [read_of_held h]
  | none => rw [read, h]

@[simp] theorem drop_held : l.drop.held = none := by
  cases h : l.held with
  | some a => rw [drop_of_held h]
  | none => rw [drop, h]

@[simp] theorem read_written : l.read.written = l.written := by
  cases h : l.held with
  | some a => rw [read_of_held h]
  | none => rw [read, h]

@[simp] theorem drop_written : l.drop.written = l.written := by
  cases h : l.held with
  | some a => rw [drop_of_held h]
  | none => rw [drop, h]

/-- One value at most is held. -/
theorem card_stock_le (l : Ledger α) : Multiset.card l.stock ≤ 1 := by
  cases h : l.held with
  | some a => rw [stock_some h, Multiset.card_singleton]
  | none => rw [stock_none h, Multiset.card_zero]; exact Nat.zero_le 1

/-- Nothing is held exactly when the stock is empty. -/
theorem held_eq_none_iff : l.held = none ↔ Multiset.card l.stock = 0 := by
  cases h : l.held with
  | some a => simp [stock_some h]
  | none => simp [stock_none h]

/-- A nonempty stock is a held value. -/
theorem exists_held (h : 0 < Multiset.card l.stock) : ∃ a, l.held = some a := by
  cases hl : l.held with
  | some a => exact ⟨a, rfl⟩
  | none => rw [stock_none hl, Multiset.card_zero] at h; exact absurd h (Nat.lt_irrefl 0)

/-! ## Sound and settled ledgers -/

/-- No forbidden move has happened, and every value written is returned,
    dropped or held. -/
structure Sound (l : Ledger α) : Prop where
  no_fault : l.fault = false
  balance : l.written = l.returned + l.dropped + l.stock

/-- **EXACTLY ONCE**: a sound ledger that holds nothing; every value written
    was returned or dropped, never both and never twice. -/
def Settled (l : Ledger α) : Prop := l.Sound ∧ l.held = none

theorem sound_empty : (empty : Ledger α).Sound :=
  ⟨rfl, rfl⟩

/-- A write into an empty slot keeps the ledger sound. -/
theorem Sound.write (h : l.Sound) (hl : l.held = none) (a : α) : (l.write a).Sound := by
  refine ⟨?_, ?_⟩
  · show (l.fault || l.held.isSome) = false
    rw [h.no_fault, hl]
    rfl
  · show a ::ₘ l.written = l.returned + l.dropped + (l.write a).stock
    rw [stock_some write_held, h.balance, stock_none hl, Multiset.add_zero,
      Multiset.add_comm _ {a}, Multiset.singleton_add]

/-- A read of a held value keeps the ledger sound. -/
theorem Sound.read (h : l.Sound) (hl : l.held = some a) : l.read.Sound := by
  rw [read_of_held hl]
  refine ⟨h.no_fault, ?_⟩
  show l.written = a ::ₘ l.returned + l.dropped + stock { l with returned := _, held := none }
  rw [stock_none rfl, Multiset.add_zero, h.balance, stock_some hl, Multiset.cons_add,
    ← Multiset.singleton_add, Multiset.add_comm {a}]

/-- A drop of a held value keeps the ledger sound. -/
theorem Sound.drop (h : l.Sound) (hl : l.held = some a) : l.drop.Sound := by
  rw [drop_of_held hl]
  refine ⟨h.no_fault, ?_⟩
  show l.written = l.returned + a ::ₘ l.dropped + stock { l with dropped := _, held := none }
  rw [stock_none rfl, Multiset.add_zero, h.balance, stock_some hl, Multiset.add_cons,
    ← Multiset.singleton_add, Multiset.add_comm {a}]

/-- The balance counted: values written are values returned, dropped and held. -/
theorem Sound.card_written (h : l.Sound) :
    Multiset.card l.written =
      Multiset.card l.returned + Multiset.card l.dropped + Multiset.card l.stock := by
  rw [h.balance, Multiset.card_add, Multiset.card_add]

/-- A slot used once: a sound ledger, at most one value written — counting
    `writing` writers about to write — and at most one returned, counting
    `reading` readers about to read. -/
structure OneShot (l : Ledger α) (writing reading : Nat) : Prop where
  sound : l.Sound
  writes_le : writing + Multiset.card l.written ≤ 1
  reads_le : reading + Multiset.card l.returned ≤ 1

/-- A sound ledger with one write at most is used once, when the readers about
    to read are no more than the values held. -/
theorem Sound.oneShot {writing reading : Nat} (h : l.Sound)
    (hw : writing + Multiset.card l.written ≤ 1) (hr : reading ≤ Multiset.card l.stock) :
    OneShot l writing reading where
  sound := h
  writes_le := hw
  reads_le := by
    have := h.card_written
    omega

end Ledger

end Ownership
