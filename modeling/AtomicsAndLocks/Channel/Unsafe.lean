import AtomicsAndLocks.Interleaving
import AtomicsAndLocks.Lockstep

/-! # The unsafe one-shot channel (05-02_unsafe-oneshot-channel.rs)

    `Channel<T>` is a `MaybeUninit<T>` slot and a `ready` flag: `send` writes
    the slot and sets `ready`, `is_ready` loads it, `receive` reads the slot
    with `assume_init_read`, and `Drop` drops the slot's message with
    `assume_init_drop` when `ready` is set.  The documented contract (one
    `send`, then one `receive` after `is_ready` returned `true`) orders the
    calls, and `ready`'s release store and acquire load make the write
    visible to the reader, so each call is taken whole, in the order the
    program makes them.

    `assume_init_read` copies the message out and leaves the slot and `ready`
    as they were.  So in every reachable channel a `receive` that returns a
    message leaves `Drop` to drop the same message again
    (`drop_after_receive`): a program that keeps the contract, receives the
    message and drops the channel consumes it twice. -/

namespace UnsafeChannel

open Relation

variable {α : Type}

/-- `Channel<T>`: the slot, as the message its bits hold once written, and
    `ready`. -/
structure Channel (α : Type) where
  message : Option α
  ready : Bool
  deriving DecidableEq, Repr

/-- `Channel::default`: nothing written, not ready. -/
def Channel.default : Channel α := ⟨none, false⟩

/-- Undefined behaviour a call can reach. -/
inductive Fault
  /-- `assume_init_read` of a slot never written -/
  | readUninit
  /-- `assume_init_drop` of a slot never written -/
  | dropUninit
  deriving DecidableEq, Repr

/-- The calls a program makes on the channel. -/
inductive Op (α : Type)
  | send (message : α)
  | isReady
  | receive
  /-- the channel goes out of scope: `Drop::drop` -/
  | drop
  deriving DecidableEq, Repr

/-- What a call shows. -/
structure Obs (α : Type) where
  /-- what `is_ready` returned -/
  ready : Option Bool := none
  /-- the message `receive` returned -/
  returned : Option α := none
  /-- the message `Drop` dropped -/
  dropped : Option α := none
  deriving DecidableEq, Repr

namespace Channel

/-- `send`: `write(message)` into the slot, then `ready.store(true)`. -/
def send (c : Channel α) (m : α) : Channel α := { c with message := some m, ready := true }

/-- `receive`: `assume_init_read` of the slot, which leaves the slot and
    `ready` as they were. -/
def receive (c : Channel α) : Except Fault α :=
  match c.message with
  | some m => .ok m
  | none => .error .readUninit

/-- `Drop::drop`: `assume_init_drop` of the slot when `ready` is set. -/
def drop (c : Channel α) : Except Fault (Option α) :=
  if c.ready then
    match c.message with
    | some m => .ok (some m)
    | none => .error .dropUninit
  else .ok none

end Channel

/-- One call on the channel. -/
def call (c : Channel α) : Op α → Except Fault (Channel α × Obs α)
  | .send m => .ok (c.send m, {})
  | .isReady => .ok (c, { ready := some c.ready })
  | .receive => c.receive.map fun m => (c, { returned := some m })
  | .drop => c.drop.map fun d => (c, { dropped := d })

/-- The documented contract, over the calls and what they showed, with what
    the caller has done so far: `send` at most once; `receive` at most once
    and only after an `is_ready` that returned `true`; the channel dropped
    last. -/
def keepsContract (sent sawReady received : Bool) : List (Op α × Obs α) → Bool
  | [] => true
  | (.send _, _) :: rest => !sent && keepsContract true sawReady received rest
  | (.isReady, o) :: rest =>
      keepsContract sent (sawReady || o.ready == some true) received rest
  | (.receive, _) :: rest => sawReady && !received && keepsContract sent sawReady true rest
  | (.drop, _) :: rest => rest.isEmpty

/-- How many times a run consumed the message `m`: returned by `receive` or
    dropped by `Drop`. -/
def consumptions [DecidableEq α] (m : α) (trace : List (Obs α)) : Nat :=
  trace.countP (fun o => o.returned = some m) + trace.countP (fun o => o.dropped = some m)

/-! ## Every reachable channel -/

/-- Some call takes the channel from `c` to `c'`. -/
def Moves (c c' : Channel α) : Prop := ∃ op o, call c op = .ok (c', o)

/-- The channels some sequence of calls reaches. -/
def Reachable (c : Channel α) : Prop := ReflTransGen Moves Channel.default c

/-- Only `send` changes the channel. -/
theorem Moves.eq_or_send {c c' : Channel α} (h : Moves c c') : c' = c ∨ ∃ m, c' = c.send m := by
  obtain ⟨op, o, h⟩ := h
  cases op with
  | send m =>
      cases h
      exact .inr ⟨m, rfl⟩
  | isReady =>
      cases h
      exact .inl rfl
  | receive =>
      cases hr : c.receive with
      | error e => simp [call, hr, Except.map] at h
      | ok m =>
          simp only [call, hr, Except.map, Except.ok.injEq, Prod.mk.injEq] at h
          exact .inl h.1.symm
  | drop =>
      cases hd : c.drop with
      | error e => simp [call, hd, Except.map] at h
      | ok d =>
          simp only [call, hd, Except.map, Except.ok.injEq, Prod.mk.injEq] at h
          exact .inl h.1.symm

/-- **`ready` MEANS WRITTEN** in every reachable channel. -/
theorem ready_eq_written {c : Channel α} (h : Reachable c) : c.ready = c.message.isSome := by
  refine Interleaving.invariant_of_reach (R := Moves)
    (P := fun c : Channel α => c.ready = c.message.isSome) ?_ h rfl
  intro a b ha hab
  rcases hab.eq_or_send with rfl | ⟨m, rfl⟩
  · exact ha
  · rfl

/-- A slot that was never written is never dropped. -/
theorem drop_of_unwritten {c : Channel α} (h : Reachable c) (hm : c.message = none) :
    c.drop = .ok none := by
  have hr : c.ready = false := by
    rw [ready_eq_written h, hm]
    rfl
  rw [Channel.drop, if_neg (by rw [hr]; decide)]

/-- **A RECEIVED MESSAGE IS DROPPED AGAIN.** In every reachable channel, if
    `receive` returns `m`, it leaves the channel as it was, and dropping the
    channel then drops `m` too. -/
theorem drop_after_receive {c : Channel α} (h : Reachable c) {m : α}
    (hr : c.receive = .ok m) : call c .receive = .ok (c, { returned := some m }) ∧
      c.drop = .ok (some m) := by
  have hm : c.message = some m := by
    unfold Channel.receive at hr
    split at hr
    · cases hr
      assumption
    · cases hr
  have hready : c.ready = true := by
    rw [ready_eq_written h, hm]
    rfl
  refine ⟨by simp only [call, hr, Except.map], ?_⟩
  rw [Channel.drop, if_pos hready, hm]

/-- The run of the failing input: `send(42)`, `is_ready()`, `receive()`, and
    the drop of the channel. -/
def sendReceiveDrop : List (Op Nat) := [.send 42, .isReady, .receive, .drop]

/-- **THE MESSAGE IS CONSUMED TWICE** on a run that keeps the contract:
    `is_ready` returns `true`, `receive` returns 42, and `Drop` drops 42. -/
theorem receive_then_drop_drops_again :
    Lockstep.run call Channel.default sendReceiveDrop =
      ([{}, { ready := some true }, { returned := some 42 }, { dropped := some 42 }],
        .ok ⟨some 42, true⟩) ∧
    keepsContract false false false
      (sendReceiveDrop.zip (Lockstep.run call Channel.default sendReceiveDrop).1) = true ∧
    consumptions 42 (Lockstep.run call Channel.default sendReceiveDrop).1 = 2 :=
  ⟨rfl, rfl, rfl⟩

end UnsafeChannel
