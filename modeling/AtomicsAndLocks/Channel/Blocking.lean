import AtomicsAndLocks.Ownership
import Mathlib.Logic.Relation

/-! # The blocking channel (05-06_blocking.rs)

    The one-shot channel of `05-05` with the waiting done by parking.
    `split` resets the channel and stores the calling thread in the `Sender`;
    the `Receiver` is `!Send`, so `receive` runs on that very thread.
    `Sender::send` writes the slot, stores `ready` and unparks the receiving
    thread; `Receiver::receive` swaps `ready` to `false` until the swap
    returns `true`, parking after each `false`, then reads the slot with
    `assume_init_read`.

    The two parties run one step at a time, from the channel `split` leaves
    and the sender about to send `m`.  The receiving thread has a park token:
    `unpark` wakes it if it is blocked in `park` and sets its token otherwise;
    `park` consumes the token and returns, or blocks; and `park` may return,
    and a blocked thread wake, without any `unpark` and without touching the
    token.  The token may already be set at `split`.  The ghost ledger of
    `Ownership` follows the message in and out of the slot.

    `Slot` says, for each point of the sender, what the channel holds and
    where the receiver can be; `Wake` says that once the sender has unparked,
    the receiver is not blocked and finds the token if it is about to park.
    Together they are `Inv`: the receiver is never left blocked after the
    `unpark`, and `receive` returns `m` and leaves `ready` clear, so `Drop`
    drops nothing (`receiver_never_stranded`). -/

namespace Blocking

open Ownership Relation

variable {α : Type}

/-- `Channel<T>`: the slot, `ready`, and the ghost ledger of the slot. -/
structure Channel (α : Type) where
  message : Option α
  ready : Bool
  ledger : Ledger α

/-- `Channel::default`, which `split` stores. -/
def Channel.default : Channel α := ⟨none, false, Ledger.empty⟩

/-- `(*self.channel.message.get()).write(message)`. -/
def Channel.write (d : Channel α) (m : α) : Channel α :=
  { d with message := some m, ledger := d.ledger.write m }

/-- `assume_init_read`: the message moves out; the slot's bits stay. -/
def Channel.read (d : Channel α) : Channel α := { d with ledger := d.ledger.read }

/-- `Drop::drop`: `assume_init_drop` if `ready` is set. -/
def Channel.drop (d : Channel α) : Channel α :=
  { d with ledger := if d.ready then d.ledger.drop else d.ledger }

/-- Where `Sender::send` stands. -/
inductive SendPc (α : Type)
  /-- about to write `m` -/
  | send (m : α)
  /-- `ready.store(true, Release)` is next -/
  | publish
  /-- `receiving_thread.unpark()` is next -/
  | unpark
  | done

/-- Where `Receiver::receive` stands. -/
inductive RecvPc (α : Type)
  /-- `ready.swap(false, Acquire)` is next -/
  | swap
  /-- `std::thread::park()` is next -/
  | park
  /-- blocked in `park` -/
  | parked
  /-- out of the loop: `assume_init_read` is next -/
  | read
  /-- `receive` returned this -/
  | returned (v : Option α)

/-- The channel, the receiving thread's park token, and the two parties. -/
structure Conf (α : Type) where
  chan : Channel α
  token : Bool
  sender : SendPc α
  receiver : RecvPc α

/-- One step of the sender or of the receiving thread. -/
inductive Step : Conf α → Conf α → Prop
  | write {c : Conf α} {m : α} (hs : c.sender = .send m) :
      Step c { c with chan := c.chan.write m, sender := .publish }
  | publish {c : Conf α} (hs : c.sender = .publish) :
      Step c { c with chan := { c.chan with ready := true }, sender := .unpark }
  /-- `unpark` wakes the receiver blocked in `park`. -/
  | unparkWake {c : Conf α} (hs : c.sender = .unpark) (hr : c.receiver = .parked) :
      Step c { c with sender := .done, receiver := .swap }
  /-- `unpark` sets the token of a receiver that is not blocked. -/
  | unparkToken {c : Conf α} (hs : c.sender = .unpark) (hr : c.receiver ≠ .parked) :
      Step c { c with token := true, sender := .done }
  /-- The swap returns `true`: the loop ends. -/
  | swapTrue {c : Conf α} (hr : c.receiver = .swap) (hd : c.chan.ready = true) :
      Step c { c with chan := { c.chan with ready := false }, receiver := .read }
  /-- The swap returns `false`. -/
  | swapFalse {c : Conf α} (hr : c.receiver = .swap) (hd : c.chan.ready = false) :
      Step c { c with receiver := .park }
  /-- `park` consumes the token and returns. -/
  | parkToken {c : Conf α} (hr : c.receiver = .park) (ht : c.token = true) :
      Step c { c with token := false, receiver := .swap }
  /-- `park` finds no token and blocks. -/
  | parkBlock {c : Conf α} (hr : c.receiver = .park) (ht : c.token = false) :
      Step c { c with receiver := .parked }
  /-- `park` returns spuriously. -/
  | parkSpurious {c : Conf α} (hr : c.receiver = .park) : Step c { c with receiver := .swap }
  /-- The blocked receiver wakes spuriously. -/
  | wakeSpurious {c : Conf α} (hr : c.receiver = .parked) : Step c { c with receiver := .swap }
  | read {c : Conf α} (hr : c.receiver = .read) :
      Step c { c with chan := c.chan.read, receiver := .returned c.chan.message }

/-- Right after `split`: the sender about to send `m`, the receiver calling
    `receive`, and the token as the receiving thread left it. -/
def init (m : α) (token : Bool) : Conf α := ⟨Channel.default, token, .send m, .swap⟩

def Reachable (m : α) (c : Conf α) : Prop := ∃ token, ReflTransGen Step (init m token) c

/-! ## What the slot holds -/

/-- The receiver still in the loop. -/
def RecvPc.Looping : RecvPc α → Prop
  | .swap | .park | .parked => True
  | _ => False

/-- `m` written, `ready` clear. -/
def written (m : α) : Channel α := Channel.default.write m

/-- `m` written and read out, `ready` clear. -/
def consumed (m : α) : Channel α := (written m).read

/-- After the `store(true)`: the message is there for the loop, or the loop
    took it and is about to read it, or has read it and returned it. -/
def Published (m : α) (d : Channel α) (r : RecvPc α) : Prop :=
  (d = { written m with ready := true } ∧ r.Looping) ∨
  (d = written m ∧ r = .read) ∨
  (d = consumed m ∧ r = .returned (some m))

/-- The channel and the receiver at each point of the sender. -/
def Slot (m : α) : SendPc α → Channel α → RecvPc α → Prop
  | .send m', d, r => m' = m ∧ d = Channel.default ∧ r.Looping
  | .publish, d, r => d = written m ∧ r.Looping
  | .unpark, d, r => Published m d r
  | .done, d, r => Published m d r

/-- Once the sender has unparked, the receiver is not blocked, and about to
    park it finds the token. -/
def Wake (c : Conf α) : Prop :=
  c.sender = .done → c.receiver ≠ .parked ∧ (c.receiver = .park → c.token = true)

section Slot

variable {m : α} {s : SendPc α} {d : Channel α} {r r' : RecvPc α}

theorem Published.loop_move (h : Published m d r) (hr : r.Looping) (hr' : r'.Looping) :
    Published m d r' := by
  rcases h with ⟨hd, -⟩ | ⟨-, rfl⟩ | ⟨-, rfl⟩
  · exact Or.inl ⟨hd, hr'⟩
  · exact hr.elim
  · exact hr.elim

/-- A move of the receiver within the loop keeps the slot. -/
theorem Slot.loop_move (h : Slot m s d r) (hr : r.Looping) (hr' : r'.Looping) :
    Slot m s d r' := by
  cases s with
  | send m' => exact ⟨h.1, h.2.1, hr'⟩
  | publish => exact ⟨h.1, hr'⟩
  | unpark => exact Published.loop_move h hr hr'
  | done => exact Published.loop_move h hr hr'

/-- A looping receiver after the `store(true)` finds `ready` set. -/
theorem Published.ready_of_looping (h : Published m d r) (hr : r.Looping) : d.ready = true := by
  rcases h with ⟨rfl, -⟩ | ⟨-, rfl⟩ | ⟨-, rfl⟩
  · rfl
  · exact hr.elim
  · exact hr.elim

/-- The swap that returns `true` takes the message the sender published. -/
theorem Slot.swapTrue (h : Slot m s d .swap) (hd : d.ready = true) :
    Slot m s { d with ready := false } .read := by
  cases s with
  | send m' =>
      rw [h.2.1] at hd
      cases hd
  | publish =>
      rw [h.1] at hd
      cases hd
  | unpark | done =>
      rcases h with ⟨rfl, -⟩ | ⟨-, h⟩ | ⟨-, h⟩
      · exact Or.inr (Or.inl ⟨rfl, rfl⟩)
      · cases h
      · cases h

/-- The read moves the written message out and returns it. -/
theorem Slot.read (h : Slot m s d .read) : Slot m s d.read (.returned d.message) := by
  cases s with
  | send m' => exact h.2.2.elim
  | publish => exact h.2.elim
  | unpark | done =>
      rcases h with ⟨-, h⟩ | ⟨rfl, -⟩ | ⟨-, h⟩
      · exact h.elim
      · exact Or.inr (Or.inr ⟨rfl, rfl⟩)
      · cases h

/-- What `receive` returned is `m`, read out of the slot. -/
theorem Slot.returned {v : Option α} (h : Slot m s d (.returned v)) :
    v = some m ∧ d = consumed m := by
  cases s with
  | send m' => exact h.2.2.elim
  | publish => exact h.2.elim
  | unpark | done =>
      rcases h with ⟨-, h⟩ | ⟨-, h⟩ | ⟨hd, h⟩
      · exact h.elim
      · cases h
      · cases h
        exact ⟨rfl, hd⟩

end Slot

/-- The consumed slot is settled: `m` written once and read out once. -/
theorem consumed_settled (m : α) : (consumed m).ledger.Settled := by
  have hw : (Ledger.empty.write m).Sound := Ledger.sound_empty.write rfl m
  exact ⟨hw.read Ledger.write_held, Ledger.read_held⟩

/-! ## The invariant -/

structure Inv (m : α) (c : Conf α) : Prop where
  slot : Slot m c.sender c.chan c.receiver
  wake : Wake c

theorem inv_init (m : α) (token : Bool) : Inv m (init m token) where
  slot := ⟨rfl, rfl, trivial⟩
  wake := fun h => by cases h

/-- A receiver at its swap, at its read or returned is neither blocked nor
    about to park, so `Wake` holds whatever the sender does. -/
theorem wake_of_running {c : Conf α}
    (h : c.receiver = .swap ∨ c.receiver = .read ∨ ∃ v, c.receiver = .returned v) : Wake c := by
  intro _
  -- none of the three is `park` or `parked`
  rcases h with h | h | ⟨v, h⟩ <;> rw [h] <;>
    exact ⟨(fun h' => by cases h'), (fun h' => by cases h')⟩

theorem inv_step {m : α} {c c' : Conf α} (hi : Inv m c) (h : Step c c') : Inv m c' := by
  obtain ⟨hslot, hwake⟩ := hi
  cases h with
  | write hs =>
      rw [hs] at hslot
      obtain ⟨rfl, hd, hl⟩ := hslot
      refine ⟨?_, fun h => by cases h⟩
      show Slot _ .publish (c.chan.write _) c.receiver
      rw [hd]
      exact ⟨rfl, hl⟩
  | publish hs =>
      rw [hs] at hslot
      obtain ⟨hd, hl⟩ := hslot
      refine ⟨?_, fun h => by cases h⟩
      show Published m { c.chan with ready := true } c.receiver
      rw [hd]
      exact Or.inl ⟨rfl, hl⟩
  | unparkWake hs hr =>
      rw [hs, hr] at hslot
      -- the woken receiver goes back to its swap
      exact ⟨Published.loop_move hslot trivial trivial, wake_of_running (.inl rfl)⟩
  | unparkToken hs hr =>
      rw [hs] at hslot
      exact ⟨hslot, fun _ => ⟨hr, fun _ => rfl⟩⟩
  | swapTrue hr hd =>
      rw [hr] at hslot
      exact ⟨hslot.swapTrue hd, wake_of_running (.inr (.inl rfl))⟩
  | swapFalse hr hd =>
      rw [hr] at hslot
      refine ⟨hslot.loop_move trivial trivial, fun hs => ?_⟩
      -- once the sender is done the message is published, so this swap saw `true`
      have hpub : Published m c.chan .swap := by
        rw [show c.sender = .done from hs] at hslot
        exact hslot
      rw [hpub.ready_of_looping trivial] at hd
      cases hd
  | parkToken hr ht =>
      rw [hr] at hslot
      exact ⟨hslot.loop_move trivial trivial, wake_of_running (.inl rfl)⟩
  | parkBlock hr ht =>
      rw [hr] at hslot
      refine ⟨hslot.loop_move trivial trivial, fun hs => ?_⟩
      -- after the `unpark` a receiver about to park holds the token
      rw [(hwake hs).2 hr] at ht
      cases ht
  | parkSpurious hr =>
      rw [hr] at hslot
      exact ⟨hslot.loop_move trivial trivial, wake_of_running (.inl rfl)⟩
  | wakeSpurious hr =>
      rw [hr] at hslot
      exact ⟨hslot.loop_move trivial trivial, wake_of_running (.inl rfl)⟩
  | read hr =>
      rw [hr] at hslot
      exact ⟨hslot.read, wake_of_running (.inr (.inr ⟨_, rfl⟩))⟩

theorem inv_reachable {m : α} {c : Conf α} (hr : Reachable m c) : Inv m c := by
  obtain ⟨token, hr⟩ := hr
  induction hr with
  | refl => exact inv_init m token
  | tail _ hs ih => exact inv_step ih hs

/-- For any message `m` and any token at `split`, in every reachable
    configuration: once the sender's `unpark` has run, the receiving thread
    is not blocked in `park`; and once `receive` has returned, it returned
    `m`, `ready` is clear, so `Drop` leaves the slot alone, and `m` was
    written once and moved out once. -/
theorem receiver_never_stranded (m : α) (c : Conf α) (hr : Reachable m c) :
    (c.sender = .done → c.receiver ≠ .parked) ∧
    (∀ v, c.receiver = .returned v →
      v = some m ∧ c.chan.ready = false ∧ c.chan.drop.ledger = c.chan.ledger ∧
        c.chan.ledger.Settled) := by
  have h := inv_reachable hr
  refine ⟨fun hs => (h.wake hs).1, ?_⟩
  intro v hv
  have hslot := h.slot
  rw [hv] at hslot
  obtain ⟨rfl, hd⟩ := hslot.returned
  rw [hd]
  exact ⟨rfl, rfl, rfl, consumed_settled m⟩

/-- The whole exchange: the sender writes and publishes, the receiver's first
    swap takes the message and reads it, and the `unpark` sets the token. -/
def delivered : Conf Nat := ⟨consumed 7, true, .done, .returned (some 7)⟩

theorem reach_delivered : Reachable 7 delivered := by
  refine ⟨false, ?_⟩
  have s1 : Step (init 7 false) ⟨written 7, false, .publish, .swap⟩ := Step.write rfl
  have s2 : Step ⟨written 7, false, .publish, .swap⟩
      ⟨{ written 7 with ready := true }, false, .unpark, .swap⟩ := Step.publish rfl
  have s3 : Step ⟨{ written 7 with ready := true }, false, .unpark, .swap⟩
      ⟨written 7, false, .unpark, .read⟩ := Step.swapTrue rfl rfl
  have s4 : Step ⟨written 7, false, .unpark, .read⟩
      ⟨consumed 7, false, .unpark, .returned (some 7)⟩ := Step.read rfl
  have s5 : Step ⟨consumed 7, false, .unpark, .returned (some 7)⟩ delivered :=
    Step.unparkToken rfl (fun h => by cases h)
  exact (((ReflTransGen.single s1).tail s2).tail s3 |>.tail s4).tail s5

theorem receiver_never_stranded_delivered :
    Reachable 7 delivered ∧
    ((delivered.sender = .done → delivered.receiver ≠ .parked) ∧
      (∀ v, delivered.receiver = .returned v →
        v = some 7 ∧ delivered.chan.ready = false ∧
          delivered.chan.drop.ledger = delivered.chan.ledger ∧ delivered.chan.ledger.Settled)) :=
  ⟨reach_delivered, receiver_never_stranded 7 delivered reach_delivered⟩

end Blocking
