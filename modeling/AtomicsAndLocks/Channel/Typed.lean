import AtomicsAndLocks.Channel.SingleAtomic

/-! # `05-04_safety-with-types.rs` and `05-05_...borrowing.rs` — the types guard the slot

    `Sender::send(self, _)` and `Receiver::receive(self)` consume their
    handle, and there is one of each, so neither call can be made twice: the
    types do the work of `in_use`.  `receive` still checks `ready` with a
    `swap(false)` and panics when it finds it clear.  In `05-04` the channel
    lives in an `Arc` and is dropped with the last handle; in `05-05` it is
    borrowed from a `Channel` whose `split` first runs
    `*self = Self::default()`, which drops the old channel (and a message
    nobody received) before a fresh one takes its place.  Both share the
    `send`, `receive` and `Drop` below.

    The handles are the threads: each holds its handle until it calls the
    consuming method or drops it.  `toFlags` reads a configuration as the
    two-flag channel of `RuntimeChecks`, with `in_use` set once the sender
    has started its send; every step here is one step there or none, and
    `split` starts a fresh two-flag channel.  With `Handles`, what the types
    guarantee, `RuntimeChecks.Inv` then holds of the current round, and the
    ledgers of the rounds `split` closed are settled. -/

namespace Typed

open Interleaving Ownership Relation

variable {α : Type}

/-- The channel, and as ghost state the ledger of its slot and the ledgers of
    the channels that `split` replaced. -/
structure Channel (α : Type) where
  message : Option α
  ready : Bool
  dropped : Bool
  ledger : Ledger α
  past : List (Ledger α)

def Channel.default : Channel α := ⟨none, false, false, Ledger.empty, []⟩

/-- A handle and where its holder stands. -/
inductive Pc (α : Type)
  | sender
  | write (m : α)
  | publish
  | receiver
  | read
  /-- the handle was consumed by a call that returned, or dropped unused -/
  | gone
  | panicked

def Pc.holdsSender : Pc α → Nat
  | .sender => 1
  | _ => 0

def Pc.holdsReceiver : Pc α → Nat
  | .receiver => 1
  | _ => 0

def Pc.writing : Pc α → Nat
  | .write _ => 1
  | _ => 0

def Pc.reading : Pc α → Nat
  | .read => 1
  | _ => 0

/-- One atomic step of one handle's holder. -/
inductive Act : Channel α → Pc α → Channel α → Pc α → Prop
  /-- `sender.send(message)` is called. -/
  | send {d : Channel α} (m : α) : Act d .sender d (.write m)
  | write {d : Channel α} {m : α} :
      Act d (.write m) { d with message := some m, ledger := d.ledger.write m } .publish
  /-- `ready.store(true)`; `send` returns, and the `Sender` with it. -/
  | publish {d : Channel α} : Act d .publish { d with ready := true } .gone
  | dropSender {d : Channel α} : Act d .sender d .gone
  /-- `ready.swap(false)` returns `true`. -/
  | receive {d : Channel α} (hr : d.ready = true) :
      Act d .receiver { d with ready := false } .read
  /-- `ready.swap(false)` returns `false`: "no message available!" -/
  | receiveEmpty {d : Channel α} (hr : d.ready = false) :
      Act d .receiver { d with ready := false } .panicked
  /-- `assume_init_read`; `receive` returns the message. -/
  | read {d : Channel α} : Act d .read { d with ledger := d.ledger.read } .gone
  | dropReceiver {d : Channel α} : Act d .receiver d .gone

abbrev Conf (α : Type) := Interleaving.Conf (Channel α) (Pc α)

/-- `Drop::drop`: `assume_init_drop` if `ready` is set. -/
def Channel.drop (d : Channel α) : Channel α :=
  { d with dropped := true, ledger := if d.ready then d.ledger.drop else d.ledger }

/-- `*self = Self::default()`: the old channel is dropped, a fresh one moved in. -/
def Channel.split (d : Channel α) : Channel α :=
  { Channel.default with past := d.drop.ledger :: d.past }

/-- No handle is left: the last `Arc` is gone, or no borrow of the channel. -/
def Quiet (ts : Multiset (Pc α)) : Prop := ∀ t ∈ ts, t = .gone ∨ t = .panicked

/-- One `Sender` and one `Receiver`. -/
def handles : Multiset (Pc α) := .sender ::ₘ .receiver ::ₘ 0

/-- `05-04`: a step of a handle, or the drop of the channel with the last one. -/
inductive Step : Conf α → Conf α → Prop
  | thread {c c' : Conf α} : Interleaving.Step Act noHandOff c c' → Step c c'
  | drop {c : Conf α} (hq : Quiet c.threads) (hd : c.shared.dropped = false) :
      Step c ⟨c.shared.drop, c.threads⟩

/-- `05-05`: also `split`, once the handles of the last `split` are gone. -/
inductive SplitStep : Conf α → Conf α → Prop
  | step {c c' : Conf α} : Step c c' → SplitStep c c'
  | split {c : Conf α} (hq : Quiet c.threads) (hd : c.shared.dropped = false) :
      SplitStep c ⟨c.shared.split, handles⟩

/-- `channel()` of `05-04`. -/
def channel : Conf α := ⟨Channel.default, handles⟩

def Reachable (c : Conf α) : Prop := ReflTransGen Step channel c

theorem Act.dropped_eq {d d' : Channel α} {t t' : Pc α} (h : Act d t d' t') :
    d'.dropped = d.dropped := by
  cases h <;> rfl

theorem Act.past_eq {d d' : Channel α} {t t' : Pc α} (h : Act d t d' t') :
    d'.past = d.past := by
  cases h <;> rfl

theorem Channel.drop_written (d : Channel α) : d.drop.ledger.written = d.ledger.written := by
  show (if d.ready then d.ledger.drop else d.ledger).written = _
  cases d.ready with
  | true => exact Ledger.drop_written
  | false => rfl

/-! ## What the types guarantee -/

/-- The invariant the handles carry. -/
structure Handles (c : Conf α) : Prop where
  /-- One `Sender`: while it is held nothing was written, and nobody writes. -/
  sender : tally Pc.holdsSender c.threads + tally Pc.writing c.threads +
    Multiset.card c.shared.ledger.written ≤ 1
  /-- No handle outlives the channel. -/
  alive : c.shared.dropped = true →
    tally Pc.holdsSender c.threads + tally Pc.holdsReceiver c.threads = 0
  /-- The channels that `split` replaced were dropped with every message
      consumed exactly once. -/
  past : ∀ l ∈ c.shared.past, l.Settled

theorem handles_fresh {d : Channel α} (hw : d.ledger.written = 0) (hd : d.dropped = false)
    (hp : ∀ l ∈ d.past, l.Settled) : Handles ⟨d, handles⟩ where
  sender := by
    simp only [handles, tally_cons, tally_zero, Pc.holdsSender, Pc.writing, hw,
      Multiset.card_zero]
    omega
  alive := by
    intro h
    rw [hd] at h
    cases h
  past := hp

/-- A handle's step keeps what the types guarantee. -/
theorem Handles.act {d d' : Channel α} {t t' : Pc α} {rest : Multiset (Pc α)}
    (ha : Act d t d' t') (h : Handles ⟨d, t ::ₘ rest⟩) : Handles ⟨d', t' ::ₘ rest⟩ := by
  have h1 := h.sender
  have h2 := h.alive
  simp only [tally_cons] at h1 h2
  -- a step leaves no handle behind that it did not start with
  have ht' : t'.holdsSender = 0 ∧ t'.holdsReceiver = 0 := by
    cases ha <;> exact ⟨rfl, rfl⟩
  refine ⟨?_, ?_, ?_⟩
  · simp only [tally_cons]
    cases ha with
    | send m => simp only [Pc.holdsSender, Pc.writing] at h1 ⊢; omega
    | write =>
        simp only [Pc.holdsSender, Pc.writing, Ledger.write_written, Multiset.card_cons] at h1 ⊢
        omega
    | dropSender => simp only [Pc.holdsSender, Pc.writing] at h1 ⊢; omega
    | read =>
        simp only [Pc.holdsSender, Pc.writing, Ledger.read_written] at h1 ⊢
        omega
    | publish | receive _ | receiveEmpty _ | dropReceiver =>
        simp only [Pc.holdsSender, Pc.writing] at h1 ⊢
        omega
  · intro hd
    rw [ha.dropped_eq] at hd
    have := h2 hd
    simp only [tally_cons]
    omega
  · rw [ha.past_eq]
    exact h.past

/-! ## The two flags the handles stand for -/

/-- The thread of the two-flag channel that a handle's holder is: a held
    handle, or a finished call, is a thread between calls. -/
def Pc.toFlags : Pc α → RuntimeChecks.Pc α
  | .sender => .idle
  | .write m => .write m
  | .publish => .publish
  | .receiver => .idle
  | .read => .read
  | .gone => .idle
  | .panicked => .panicked

/-- The sender has started its send: it writes next, or it has written. -/
def sent (c : Conf α) : Bool :=
  decide (0 < tally Pc.writing c.threads + Multiset.card c.shared.ledger.written)

def Channel.flags (d : Channel α) (inUse : Bool) : RuntimeChecks.Channel α :=
  ⟨d.message, inUse, d.ready, d.dropped, d.ledger⟩

/-- The two-flag channel a configuration stands for. -/
def toFlags (c : Conf α) : RuntimeChecks.Conf α :=
  ⟨c.shared.flags (sent c), c.threads.map Pc.toFlags⟩

theorem writing_toFlags (t : Pc α) : t.toFlags.writing = t.writing := by
  cases t <;> rfl

theorem reading_toFlags (t : Pc α) : t.toFlags.reading = t.reading := by
  cases t <;> rfl

theorem toFlags_cons (d : Channel α) (t : Pc α) (rest : Multiset (Pc α)) :
    toFlags ⟨d, t ::ₘ rest⟩ =
      ⟨d.flags (decide (0 < t.writing + tally Pc.writing rest + Multiset.card d.ledger.written)),
        t.toFlags ::ₘ rest.map Pc.toFlags⟩ := by
  simp only [toFlags, sent, tally_cons, Multiset.map_cons]

theorem toFlags_init : toFlags (channel : Conf α) = RuntimeChecks.init 2 := rfl

theorem Quiet.toFlags {ts : Multiset (Pc α)} (hq : Quiet ts) :
    RuntimeChecks.Quiet (ts.map Pc.toFlags) := by
  intro t ht
  obtain ⟨u, hu, rfl⟩ := Multiset.mem_map.mp ht
  rcases hq u hu with rfl | rfl
  · exact Or.inl rfl
  · exact Or.inr rfl

/-- **ONE STEP, OR NONE**: a handle's step is a step of the two-flag channel,
    or, for a handle dropped unused, no step at all. -/
theorem Act.toFlags {d d' : Channel α} {t t' : Pc α} {rest : Multiset (Pc α)}
    (ha : Act d t d' t') (h : Handles ⟨d, t ::ₘ rest⟩) :
    ReflTransGen RuntimeChecks.Step (toFlags ⟨d, t ::ₘ rest⟩) (toFlags ⟨d', t' ::ₘ rest⟩) := by
  have h1 := h.sender
  have h2 := h.alive
  simp only [tally_cons] at h1 h2
  rw [toFlags_cons, toFlags_cons]
  -- the steps that start a call need a live channel: the handle is still held
  have hlive : 0 < t.holdsSender + t.holdsReceiver → d.dropped = false := by
    intro hpos
    cases hd : d.dropped with
    | false => rfl
    | true =>
        have := h2 hd
        omega
  cases ha with
  | send m =>
      simp only [Pc.holdsSender, Pc.writing] at h1
      -- `in_use` was clear: nothing was written and nobody writes
      have hb : decide (0 < (Pc.sender : Pc α).writing + tally Pc.writing rest +
          Multiset.card d.ledger.written) = false :=
        decide_eq_false (by simp only [Pc.writing]; omega)
      have hb' : decide (0 < (Pc.write m).writing + tally Pc.writing rest +
          Multiset.card d.ledger.written) = true :=
        decide_eq_true (by simp only [Pc.writing]; omega)
      rw [hb, hb']
      exact .single (.thread (.solo _ (.send m (hlive (by simp [Pc.holdsSender])) rfl)))
  | @write m =>
      have hb : decide (0 < (Pc.write m).writing + tally Pc.writing rest +
          Multiset.card d.ledger.written) = true :=
        decide_eq_true (by simp only [Pc.writing]; omega)
      have hb' : decide (0 < (Pc.publish : Pc α).writing + tally Pc.writing rest +
          Multiset.card (d.ledger.write m).written) = true :=
        decide_eq_true (by simp only [Pc.writing, Ledger.write_written, Multiset.card_cons]; omega)
      rw [hb]
      erw [hb']
      exact .single (.thread (.solo _ .write))
  | publish => exact .single (.thread (.solo _ .publish))
  | dropSender => exact .refl
  | receive hr =>
      exact .single (.thread (.solo _ (.receive (hlive (by simp [Pc.holdsReceiver])) hr)))
  | receiveEmpty hr =>
      exact .single (.thread (.solo _ (.receiveEmpty (hlive (by simp [Pc.holdsReceiver])) hr)))
  | read =>
      have e : Multiset.card (d.ledger.read).written = Multiset.card d.ledger.written := by
        rw [Ledger.read_written]
      erw [e]
      exact .single (.thread (.solo _ .read))
  | dropReceiver => exact .refl

/-- `Drop::drop` of the channel is `Drop::drop` of its two flags. -/
theorem toFlags_drop {c : Conf α} :
    toFlags ⟨c.shared.drop, c.threads⟩ = ⟨(toFlags c).shared.drop, (toFlags c).threads⟩ := by
  have e : sent ⟨c.shared.drop, c.threads⟩ = sent c := by
    simp only [sent, Channel.drop_written]
  show (⟨c.shared.drop.flags (sent ⟨c.shared.drop, c.threads⟩), _⟩ : RuntimeChecks.Conf α) = _
  rw [e]
  rfl

/-! ## Every round is a run of the two flags -/

/-- What holds of every configuration a run reaches: the two-flag channel it
    stands for is reachable there, and the types' guarantee holds. -/
def Good (c : Conf α) : Prop := RuntimeChecks.Reachable (toFlags c) ∧ Handles c

/-- **THE ROUNDS**: every step keeps `Good`.  A handle's step or `Drop::drop`
    is a step of the two flags; `split` drops the old two-flag channel, which
    settles its ledger, and starts a fresh one. -/
theorem Good.step {c c' : Conf α} (hg : Good c) (h : SplitStep c c') : Good c' := by
  obtain ⟨⟨n, hr⟩, hh⟩ := hg
  have hinv := RuntimeChecks.inv_reachable ⟨n, hr⟩
  cases h with
  | step hs =>
      cases hs with
      | thread hs =>
          cases hs with
          | solo rest ha => exact ⟨⟨n, hr.trans (ha.toFlags hh)⟩, hh.act ha⟩
          | duo rest hd => exact hd.elim
      | drop hq hd =>
          refine ⟨⟨n, ?_⟩, ⟨?_, ?_, ?_⟩⟩
          · rw [toFlags_drop]
            exact hr.tail (.drop hq.toFlags hd)
          · show _ + _ + Multiset.card c.shared.drop.ledger.written ≤ 1
            rw [Channel.drop_written]
            exact hh.sender
          · intro _
            have hS : tally Pc.holdsSender c.threads = 0 :=
              tally_eq_zero.mpr fun t ht => by rcases hq t ht with rfl | rfl <;> rfl
            have hR : tally Pc.holdsReceiver c.threads = 0 :=
              tally_eq_zero.mpr fun t ht => by rcases hq t ht with rfl | rfl <;> rfl
            show tally Pc.holdsSender c.threads + tally Pc.holdsReceiver c.threads = 0
            omega
          · exact hh.past
  | split hq hd =>
      refine ⟨⟨2, ?_⟩, handles_fresh rfl rfl ?_⟩
      · show ReflTransGen RuntimeChecks.Step (RuntimeChecks.init 2)
          (toFlags ⟨{ Channel.default with past := _ }, handles⟩)
        exact .refl
      · -- the old channel's drop, as a step of the two flags, settles its ledger
        have hdrop := RuntimeChecks.inv_drop hinv hq.toFlags hd
        have hset := hdrop.settled_of_dropped rfl
        intro l hl
        rcases List.mem_cons.mp hl with rfl | hl
        · exact hset
        · exact hh.past l hl

/-- **USED ONCE**: in the current round at most one `send` writes the slot and
    at most one `receive` reads it, and every read and drop found the
    message. -/
theorem Good.oneShot {c : Conf α} (hg : Good c) :
    Ledger.OneShot c.shared.ledger (tally Pc.writing c.threads) (tally Pc.reading c.threads) := by
  have h := (RuntimeChecks.inv_reachable hg.1).oneShot
  rw [toFlags, tally_map, tally_map] at h
  simp only [writing_toFlags, reading_toFlags] at h
  exact h

/-- **EXACTLY ONCE**: once the channel is dropped, every message it was sent
    was returned or dropped, once. -/
theorem Good.settled_of_dropped {c : Conf α} (hg : Good c) (hd : c.shared.dropped = true) :
    c.shared.ledger.Settled :=
  (RuntimeChecks.inv_reachable hg.1).settled_of_dropped hd

/-- **READ AFTER WRITE**: a `receive` about to read finds the message written
    and in the slot. -/
theorem Good.written_of_read {c : Conf α} (hg : Good c) (ht : Pc.read ∈ c.threads) :
    ∃ a, c.shared.ledger.held = some a ∧ c.shared.message = some a :=
  (RuntimeChecks.inv_reachable hg.1).written_of_read (Multiset.mem_map_of_mem Pc.toFlags ht)

/-! ## The one-shot channels -/

end Typed
