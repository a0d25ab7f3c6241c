import AtomicsAndLocks.Channel.RuntimeChecks

/-! # `05-03_represent_channel_state_with_single_atomic_variable.rs` — one word

    The channel of `RuntimeChecks` with its two flags packed into one
    `AtomicU8` holding `EMPTY`, `WRITING`, `READY` or `READING`.  `send`
    claims the slot with `compare_exchange(EMPTY, WRITING)` and publishes
    with `store(READY)`; `receive` claims the message with
    `compare_exchange(READY, READING)`.  A failed `compare_exchange` stores
    nothing, and the call panics.  The threads are those of `RuntimeChecks`.

    `Channel.flags` reads the word as the two flags — `in_use` is "not
    `EMPTY`", `ready` is "`READY`" — and every step here is a step of the
    two-flag channel there (`Step.flags`).  Every run of this channel is
    then a run of that one, and what `RuntimeChecks.Inv` says of the slot
    holds here unchanged. -/

namespace SingleAtomic

open Interleaving Ownership Relation

open RuntimeChecks (Pc Quiet)

variable {α : Type}

/-- The values of `state`. -/
inductive State
  | empty
  | writing
  | ready
  | reading
  deriving DecidableEq

/-- The channel: the slot, the state word, whether `Drop::drop` has run, and
    the ghost ledger of the slot. -/
structure Channel (α : Type) where
  message : Option α
  state : State
  dropped : Bool
  ledger : Ledger α

/-- `Channel::default`. -/
def Channel.default : Channel α := ⟨none, .empty, false, Ledger.empty⟩

/-- One atomic step of one thread.  A `compare_exchange` that fails stores
    nothing. -/
inductive Act : Channel α → Pc α → Channel α → Pc α → Prop
  | send {d : Channel α} (m : α) (hd : d.dropped = false) (hs : d.state = .empty) :
      Act d .idle { d with state := .writing } (.write m)
  /-- "can't send more than cone message!" -/
  | sendTaken {d : Channel α} (m : α) (hd : d.dropped = false) (hs : d.state ≠ .empty) :
      Act d .idle d .panicked
  | write {d : Channel α} {m : α} :
      Act d (.write m) { d with message := some m, ledger := d.ledger.write m } .publish
  | publish {d : Channel α} : Act d .publish { d with state := .ready } .idle
  | receive {d : Channel α} (hd : d.dropped = false) (hs : d.state = .ready) :
      Act d .idle { d with state := .reading } .read
  /-- "no message available!" -/
  | receiveEmpty {d : Channel α} (hd : d.dropped = false) (hs : d.state ≠ .ready) :
      Act d .idle d .panicked
  | read {d : Channel α} : Act d .read { d with ledger := d.ledger.read } .idle

abbrev Conf (α : Type) := Interleaving.Conf (Channel α) (Pc α)

/-- `Drop::drop`: `assume_init_drop` if the state is `READY`. -/
def Channel.drop (d : Channel α) : Channel α :=
  { d with dropped := true, ledger := if d.state = .ready then d.ledger.drop else d.ledger }

inductive Step : Conf α → Conf α → Prop
  | thread {c c' : Conf α} : Interleaving.Step Act noHandOff c c' → Step c c'
  | drop {c : Conf α} (hq : Quiet c.threads) (hd : c.shared.dropped = false) :
      Step c ⟨c.shared.drop, c.threads⟩

def init (n : Nat) : Conf α := ⟨Channel.default, Multiset.replicate n .idle⟩

def Reachable (c : Conf α) : Prop := ∃ n, ReflTransGen Step (init n) c

/-- `in_use` is "not `EMPTY`" and `ready` is "`READY`". -/
def Channel.flags (d : Channel α) : RuntimeChecks.Channel α :=
  ⟨d.message, decide (d.state ≠ .empty), decide (d.state = .ready), d.dropped, d.ledger⟩

def toFlags (c : Conf α) : RuntimeChecks.Conf α := ⟨c.shared.flags, c.threads⟩

theorem toFlags_init (n : Nat) : toFlags (init n : Conf α) = RuntimeChecks.init n := rfl

theorem Channel.flags_drop (d : Channel α) : d.drop.flags = d.flags.drop := by
  by_cases hs : d.state = .ready
  · simp [Channel.drop, Channel.flags, RuntimeChecks.Channel.drop, hs]
  · simp [Channel.drop, Channel.flags, RuntimeChecks.Channel.drop, hs]

/-- **ONE STEP, TWO FLAGS**: each step of the word is the step of the flags
    that its value stands for.  `store(READY)` sets `ready` and keeps
    `in_use` only because the publisher got through the check. -/
theorem Act.flags {d d' : Channel α} {t t' : Pc α} (ha : Act d t d' t')
    (hpub : t = .publish → d.state ≠ .empty) :
    RuntimeChecks.Act d.flags t d'.flags t' := by
  cases ha with
  | send m hd hs =>
      have e : ({ d with state := .writing } : Channel α).flags =
          { d.flags with inUse := true } := by
        simp [Channel.flags, hs]
      rw [e]
      exact .send m hd (by simp [Channel.flags, hs])
  | sendTaken m hd hs =>
      have hu : d.flags.inUse = true := by simp [Channel.flags, hs]
      have e : d.flags = { d.flags with inUse := true } := by
        rw [← hu]
      -- the failed `compare_exchange` is a `swap(true)` that finds `true`
      conv => arg 3; rw [e]
      exact .sendTaken m hd hu
  | write => exact .write
  | publish =>
      have hs := hpub rfl
      have e : ({ d with state := .ready } : Channel α).flags =
          { d.flags with ready := true } := by
        simp [Channel.flags, hs]
      rw [e]
      exact .publish
  | receive hd hs =>
      have e : ({ d with state := .reading } : Channel α).flags =
          { d.flags with ready := false } := by
        simp [Channel.flags, hs]
      rw [e]
      exact .receive hd (by simp [Channel.flags, hs])
  | receiveEmpty hd hs =>
      have hr : d.flags.ready = false := by simp [Channel.flags, hs]
      have e : d.flags = { d.flags with ready := false } := by
        rw [← hr]
      conv => arg 3; rw [e]
      exact .receiveEmpty hd hr
  | read => exact .read

/-- Each step of the channel is a step of its two flags, from a configuration
    where the flags' invariant holds. -/
theorem Step.flags {c c' : Conf α} (hinv : RuntimeChecks.Inv (toFlags c)) (h : Step c c') :
    RuntimeChecks.Step (toFlags c) (toFlags c') := by
  cases h with
  | thread hs =>
      cases hs with
      | solo rest ha =>
          refine .thread (.solo rest (ha.flags ?_))
          rintro rfl
          -- the publisher got through, so `in_use` is set: the word is not `EMPTY`
          have hu := hinv.inUse_of_publish (Multiset.mem_cons_self _ _)
          simpa [toFlags, Channel.flags] using hu
      | duo rest hh => exact hh.elim
  | drop hq hd =>
      show RuntimeChecks.Step (toFlags c) ⟨c.shared.drop.flags, c.threads⟩
      rw [Channel.flags_drop]
      exact .drop hq hd

/-- **REFINEMENT**: every run of the one-word channel is a run of the
    two-flag channel. -/
theorem Reachable.flags {c : Conf α} (h : Reachable c) :
    RuntimeChecks.Reachable (toFlags c) := by
  obtain ⟨n, hr⟩ := h
  refine ⟨n, ?_⟩
  induction hr with
  | refl => rw [toFlags_init]
  | tail _ hs ih =>
      exact ih.tail (hs.flags (RuntimeChecks.inv_reachable ⟨n, ih⟩))

/-- **USED ONCE**, as for the two flags. -/
theorem Reachable.oneShot {c : Conf α} (h : Reachable c) :
    Ledger.OneShot c.shared.ledger (tally Pc.writing c.threads) (tally Pc.reading c.threads) :=
  (RuntimeChecks.inv_reachable h.flags).oneShot

/-- **EXACTLY ONCE**, as for the two flags. -/
theorem Reachable.settled_of_dropped {c : Conf α} (h : Reachable c)
    (hd : c.shared.dropped = true) : c.shared.ledger.Settled :=
  (RuntimeChecks.inv_reachable h.flags).settled_of_dropped hd

/-- **READ AFTER WRITE**, as for the two flags. -/
theorem Reachable.written_of_read {c : Conf α} (h : Reachable c) (ht : Pc.read ∈ c.threads) :
    ∃ a, c.shared.ledger.held = some a ∧ c.shared.message = some a :=
  (RuntimeChecks.inv_reachable h.flags).written_of_read ht

end SingleAtomic
