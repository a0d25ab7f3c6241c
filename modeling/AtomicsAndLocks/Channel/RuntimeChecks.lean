import AtomicsAndLocks.Interleaving
import AtomicsAndLocks.Ownership

/-! # `05-03_safety-through-runtime-checks.rs` — two flags guard the slot

    `send` claims the slot with `in_use.swap(true)` and `receive` claims the
    message with `ready.swap(false)`; a call that finds its flag taken
    panics before it touches the slot.  Any number of threads call `send`
    and `receive`, each step of a call one atomic step of the interleaving;
    then, with no call running, the channel is dropped.  `is_ready` is a
    load that changes nothing and is left out.

    The slot's `Ownership.Ledger` is ghost state: the write, the
    `assume_init_read` and the `assume_init_drop` of `Drop::drop` move the
    message in and out of it.  `Inv` ties the flags to the ledger — `in_use`
    counts the one sender that got through, and the message held stands at
    exactly one stage: written, published by `ready`, or claimed by a
    receiver about to read it — so every read and drop finds the message,
    and nothing is written twice. -/

namespace RuntimeChecks

open Interleaving Ownership Relation

variable {α : Type}

/-- The channel: the slot (`none` while uninitialised), the two flags, whether
    `Drop::drop` has run, and the ghost ledger of the slot. -/
structure Channel (α : Type) where
  message : Option α
  inUse : Bool
  ready : Bool
  dropped : Bool
  ledger : Ledger α

/-- `Channel::default`. -/
def Channel.default : Channel α := ⟨none, false, false, false, Ledger.empty⟩

/-- Where a thread stands.  `write m`: its `send m` got through the check
    and writes next; `publish`: it has written and stores `ready` next;
    `read`: its `receive` got through the check and reads next. -/
inductive Pc (α : Type)
  | idle
  | write (m : α)
  | publish
  | read
  | panicked

/-- Indicator of a thread about to write the slot. -/
def Pc.writing : Pc α → Nat
  | .write _ => 1
  | _ => 0

/-- Indicator of a thread about to store `ready`. -/
def Pc.publishing : Pc α → Nat
  | .publish => 1
  | _ => 0

/-- Indicator of a thread about to read the slot. -/
def Pc.reading : Pc α → Nat
  | .read => 1
  | _ => 0

/-- One atomic step of one thread.  Each check is a `swap`, which stores its
    value whatever it returns: one constructor for each answer. -/
inductive Act : Channel α → Pc α → Channel α → Pc α → Prop
  /-- `send`: `in_use.swap(true)` returns `false`; the send goes on. -/
  | send {d : Channel α} (m : α) (hd : d.dropped = false) (hu : d.inUse = false) :
      Act d .idle { d with inUse := true } (.write m)
  /-- `send`: `in_use.swap(true)` returns `true`; "can't send more than one message!" -/
  | sendTaken {d : Channel α} (m : α) (hd : d.dropped = false) (hu : d.inUse = true) :
      Act d .idle { d with inUse := true } .panicked
  /-- `(*self.message.get()).write(message)`. -/
  | write {d : Channel α} {m : α} :
      Act d (.write m) { d with message := some m, ledger := d.ledger.write m } .publish
  /-- `self.ready.store(true)`: `send` returns. -/
  | publish {d : Channel α} : Act d .publish { d with ready := true } .idle
  /-- `receive`: `ready.swap(false)` returns `true`; the receive goes on. -/
  | receive {d : Channel α} (hd : d.dropped = false) (hr : d.ready = true) :
      Act d .idle { d with ready := false } .read
  /-- `receive`: `ready.swap(false)` returns `false`; "no message available!" -/
  | receiveEmpty {d : Channel α} (hd : d.dropped = false) (hr : d.ready = false) :
      Act d .idle { d with ready := false } .panicked
  /-- `assume_init_read`: the message is moved out and returned. -/
  | read {d : Channel α} : Act d .read { d with ledger := d.ledger.read } .idle

/-- The channel shared by the threads. -/
abbrev Conf (α : Type) := Interleaving.Conf (Channel α) (Pc α)

/-- `Drop::drop`: `assume_init_drop` of the slot if `ready` is set. -/
def Channel.drop (d : Channel α) : Channel α :=
  { d with dropped := true, ledger := if d.ready then d.ledger.drop else d.ledger }

/-- No thread is inside a call, as `Drop::drop`'s `&mut self` requires. -/
def Quiet (ts : Multiset (Pc α)) : Prop := ∀ t ∈ ts, t = .idle ∨ t = .panicked

/-- A step of a thread, or the drop of the channel once no call is running. -/
inductive Step : Conf α → Conf α → Prop
  | thread {c c' : Conf α} : Interleaving.Step Act noHandOff c c' → Step c c'
  | drop {c : Conf α} (hq : Quiet c.threads) (hd : c.shared.dropped = false) :
      Step c ⟨c.shared.drop, c.threads⟩

/-- A fresh channel and `n` threads about to call it. -/
def init (n : Nat) : Conf α := ⟨Channel.default, Multiset.replicate n .idle⟩

def Reachable (c : Conf α) : Prop := ∃ n, ReflTransGen Step (init n) c

/-- No step of a thread runs `Drop::drop`. -/
theorem Act.dropped_eq {d d' : Channel α} {t t' : Pc α} (h : Act d t d' t') :
    d'.dropped = d.dropped := by
  cases h <;> rfl

theorem Channel.drop_of_ready {d : Channel α} (hr : d.ready = true) :
    d.drop = { d with dropped := true, ledger := d.ledger.drop } := by
  rw [Channel.drop, hr, if_pos rfl]

theorem Channel.drop_of_clear {d : Channel α} (hr : d.ready = false) :
    d.drop = { d with dropped := true } := by
  rw [Channel.drop, hr, if_neg Bool.false_ne_true]

/-! ## The invariant -/

/-- The invariant. -/
structure Inv (c : Conf α) : Prop where
  sound : c.shared.ledger.Sound
  /-- `in_use` is set exactly when one send got through: it writes next, or
      it has written. -/
  senders : tally Pc.writing c.threads + Multiset.card c.shared.ledger.written =
    c.shared.inUse.toNat
  /-- The message held is written and unpublished, published, or claimed by
      a receiver about to read it. -/
  stage : c.shared.dropped = false →
    Multiset.card c.shared.ledger.stock =
      tally Pc.publishing c.threads + c.shared.ready.toNat + tally Pc.reading c.threads
  /-- After `Drop::drop` nothing is held and no call is running. -/
  settled : c.shared.dropped = true →
    Multiset.card c.shared.ledger.stock = 0 ∧
      tally Pc.writing c.threads + tally Pc.publishing c.threads +
        tally Pc.reading c.threads = 0
  /-- The message held is in the slot. -/
  slot : ∀ a, c.shared.ledger.held = some a → c.shared.message = some a

theorem inv_init (n : Nat) : Inv (init n : Conf α) where
  sound := Ledger.sound_empty
  senders := by simp [init, Channel.default, Pc.writing, Ledger.empty]
  stage := by
    intro _
    simp [init, Channel.default, Pc.publishing, Pc.reading, Ledger.empty, Ledger.stock]
  settled := by
    intro h
    cases h
  slot := by
    intro a h
    cases h

/-! ## The counting part around one thread -/

/-- `Inv`'s counting fields at `t ::ₘ rest`, with `rest`'s tallies `W P R`. -/
def Counts (d : Channel α) (t : Pc α) (W P R : Nat) : Prop :=
  t.writing + W + Multiset.card d.ledger.written = d.inUse.toNat ∧
  (d.dropped = false →
    Multiset.card d.ledger.stock = t.publishing + P + d.ready.toNat + t.reading + R) ∧
  (d.dropped = true →
    Multiset.card d.ledger.stock = 0 ∧ t.writing + W + t.publishing + P + t.reading + R = 0)

/-- `Counts` with `rest`'s own tallies. -/
abbrev RestCounts (d : Channel α) (t : Pc α) (rest : Multiset (Pc α)) : Prop :=
  Counts d t (tally Pc.writing rest) (tally Pc.publishing rest) (tally Pc.reading rest)

theorem restCounts_iff {d : Channel α} {t : Pc α} {rest : Multiset (Pc α)} :
    RestCounts d t rest ↔
      (tally Pc.writing (t ::ₘ rest) + Multiset.card d.ledger.written = d.inUse.toNat ∧
      (d.dropped = false → Multiset.card d.ledger.stock =
        tally Pc.publishing (t ::ₘ rest) + d.ready.toNat + tally Pc.reading (t ::ₘ rest)) ∧
      (d.dropped = true → Multiset.card d.ledger.stock = 0 ∧
        tally Pc.writing (t ::ₘ rest) + tally Pc.publishing (t ::ₘ rest) +
          tally Pc.reading (t ::ₘ rest) = 0)) := by
  simp only [RestCounts, Counts, tally_cons]
  constructor
  · rintro ⟨h1, h2, h3⟩
    refine ⟨h1, fun hd => ?_, fun hd => ?_⟩
    · have := h2 hd
      omega
    · have := h3 hd
      omega
  · rintro ⟨h1, h2, h3⟩
    refine ⟨h1, fun hd => ?_, fun hd => ?_⟩
    · have := h2 hd
      omega
    · have := h3 hd
      omega

/-- A thread in the middle of a call means `Drop::drop` has not run. -/
theorem Counts.live {d : Channel α} {t : Pc α} {W P R : Nat} (h : Counts d t W P R)
    (ht : 0 < t.writing + t.publishing + t.reading) : d.dropped = false := by
  cases hd : d.dropped with
  | false => rfl
  | true =>
      have := (h.2.2 hd).2
      omega

/-- A thread steps only before `Drop::drop`. -/
theorem Act.live {d d' : Channel α} {t t' : Pc α} {W P R : Nat} (ha : Act d t d' t')
    (hc : Counts d t W P R) : d.dropped = false := by
  cases ha with
  | send m hd | sendTaken m hd | receive hd | receiveEmpty hd => exact hd
  | write => exact hc.live (by simp [Pc.writing])
  | publish => exact hc.live (by simp [Pc.publishing])
  | read => exact hc.live (by simp [Pc.reading])

/-- **ONE STEP KEEPS THE INVARIANT**, counted around the thread that moves. -/
theorem Act.keeps {d d' : Channel α} {t t' : Pc α} {W P R : Nat} (ha : Act d t d' t')
    (hs : d.ledger.Sound) (hc : Counts d t W P R)
    (hslot : ∀ a, d.ledger.held = some a → d.message = some a) :
    d'.ledger.Sound ∧ Counts d' t' W P R ∧
      ∀ a, d'.ledger.held = some a → d'.message = some a := by
  have hd := ha.live hc
  have hd' : d'.dropped = false := ha.dropped_eq.trans hd
  have hle := Ledger.card_stock_le d.ledger
  obtain ⟨h1, h2, -⟩ := hc
  have h2 := h2 hd
  -- before `Drop::drop` the counts are the senders and the stage of the message
  suffices d'.ledger.Sound ∧
      (t'.writing + W + Multiset.card d'.ledger.written = d'.inUse.toNat ∧
        Multiset.card d'.ledger.stock = t'.publishing + P + d'.ready.toNat + t'.reading + R) ∧
      ∀ a, d'.ledger.held = some a → d'.message = some a by
    obtain ⟨hs', ⟨h1', h2'⟩, hslot'⟩ := this
    refine ⟨hs', ⟨h1', fun _ => h2', fun h => ?_⟩, hslot'⟩
    rw [hd'] at h
    cases h
  cases ha with
  | send m _ hu =>
      simp only [hu, Bool.toNat_false, Pc.writing] at h1
      refine ⟨hs, ⟨?_, ?_⟩, hslot⟩
      · show 1 + W + Multiset.card d.ledger.written = Bool.toNat true
        rw [Bool.toNat_true]
        omega
      · simpa only [Pc.publishing, Pc.reading] using h2
  | sendTaken m _ hu =>
      refine ⟨hs, ⟨?_, ?_⟩, hslot⟩
      · simpa only [hu, Pc.writing] using h1
      · simpa only [Pc.publishing, Pc.reading] using h2
  | write =>
      simp only [Pc.writing, Pc.publishing, Pc.reading] at h1 h2
      -- the one send that got through has not written yet: nothing is held
      have hb := hs.card_written
      have hu := Bool.toNat_le d.inUse
      have hn : d.ledger.held = none := Ledger.held_eq_none_iff.mpr (by omega)
      refine ⟨hs.write hn _, ⟨?_, ?_⟩, ?_⟩
      · simp only [Pc.writing, Ledger.write_written, Multiset.card_cons]
        omega
      · simp only [Pc.publishing, Pc.reading]
        rw [Ledger.stock_some Ledger.write_held, Multiset.card_singleton]
        omega
      · intro a ha
        simp only [Ledger.write_held, Option.some.injEq] at ha
        rw [← ha]
  | publish =>
      simp only [Pc.publishing, Pc.reading] at h2
      refine ⟨hs, ⟨?_, ?_⟩, hslot⟩
      · simpa only [Pc.writing] using h1
      · -- the message moves from "written" to "published": `ready` was clear
        show Multiset.card d.ledger.stock = 0 + P + Bool.toNat true + 0 + R
        rw [Bool.toNat_true]
        omega
  | receive _ hr =>
      simp only [hr, Bool.toNat_true, Pc.publishing, Pc.reading] at h2
      refine ⟨hs, ⟨?_, ?_⟩, hslot⟩
      · simpa only [Pc.writing] using h1
      · -- the message moves from "published" to "claimed"
        show Multiset.card d.ledger.stock = 0 + P + Bool.toNat false + 1 + R
        rw [Bool.toNat_false]
        omega
  | receiveEmpty _ hr =>
      refine ⟨hs, ⟨?_, ?_⟩, hslot⟩
      · simpa only [Pc.writing] using h1
      · simpa only [hr, Pc.publishing, Pc.reading] using h2
  | read =>
      simp only [Pc.publishing, Pc.reading] at h2
      -- the claimed message is held: the read finds it
      obtain ⟨a, ha⟩ := Ledger.exists_held (l := d.ledger) (by omega)
      refine ⟨hs.read ha, ⟨?_, ?_⟩, ?_⟩
      · simpa only [Pc.writing, Ledger.read_of_held ha] using h1
      · simp only [Pc.publishing, Pc.reading]
        rw [Ledger.held_eq_none_iff.mp Ledger.read_held]
        omega
      · intro b hb
        rw [Ledger.read_held] at hb
        cases hb

/-- `Inv` at `t ::ₘ rest` is the sound ledger, the counts around `t` and the slot. -/
theorem inv_iff {d : Channel α} {t : Pc α} {rest : Multiset (Pc α)} :
    Inv ⟨d, t ::ₘ rest⟩ ↔
      d.ledger.Sound ∧ RestCounts d t rest ∧
        ∀ a, d.ledger.held = some a → d.message = some a := by
  rw [restCounts_iff]
  constructor
  · intro h
    exact ⟨h.sound, ⟨h.senders, h.stage, h.settled⟩, h.slot⟩
  · rintro ⟨hs, ⟨h1, h2, h3⟩, hslot⟩
    exact ⟨hs, h1, h2, h3, hslot⟩

theorem inv_solo {d d' : Channel α} {t t' : Pc α} {rest : Multiset (Pc α)}
    (ha : Act d t d' t') (h : Inv ⟨d, t ::ₘ rest⟩) : Inv ⟨d', t' ::ₘ rest⟩ := by
  obtain ⟨hs, hc, hslot⟩ := inv_iff.mp h
  exact inv_iff.mpr (ha.keeps hs hc hslot)

/-- `Drop::drop` drops the message exactly when one is held. -/
theorem inv_drop {d : Channel α} {ts : Multiset (Pc α)} (h : Inv ⟨d, ts⟩)
    (hq : Quiet ts) (hd : d.dropped = false) : Inv ⟨d.drop, ts⟩ := by
  -- no call is running, so the message held, if any, is the published one
  have hW : tally Pc.writing ts = 0 :=
    tally_eq_zero.mpr fun t ht => by rcases hq t ht with rfl | rfl <;> rfl
  have hP : tally Pc.publishing ts = 0 :=
    tally_eq_zero.mpr fun t ht => by rcases hq t ht with rfl | rfl <;> rfl
  have hR : tally Pc.reading ts = 0 :=
    tally_eq_zero.mpr fun t ht => by rcases hq t ht with rfl | rfl <;> rfl
  have hst : Multiset.card d.ledger.stock = d.ready.toNat := by
    have := h.stage hd
    simp only [hP, hR] at this
    omega
  have hsend : tally Pc.writing ts + Multiset.card d.ledger.written = d.inUse.toNat :=
    h.senders
  cases hr : d.ready with
  | true =>
      rw [hr, Bool.toNat_true] at hst
      obtain ⟨a, ha⟩ := Ledger.exists_held (l := d.ledger) (by omega)
      rw [Channel.drop_of_ready hr]
      refine ⟨h.sound.drop ha, ?_, (fun hd' => by cases hd'), fun _ => ⟨?_, ?_⟩, ?_⟩
      · rw [Ledger.drop_of_held ha]
        exact hsend
      · exact Ledger.held_eq_none_iff.mp Ledger.drop_held
      · show tally Pc.writing ts + tally Pc.publishing ts + tally Pc.reading ts = 0
        omega
      · intro b hb
        rw [Ledger.drop_held] at hb
        cases hb
  | false =>
      rw [hr, Bool.toNat_false] at hst
      rw [Channel.drop_of_clear hr]
      refine ⟨h.sound, hsend, (fun hd' => by cases hd'), fun _ => ⟨hst, ?_⟩, h.slot⟩
      show tally Pc.writing ts + tally Pc.publishing ts + tally Pc.reading ts = 0
      omega

theorem inv_step {c c' : Conf α} (h : Inv c) (hs : Step c c') : Inv c' := by
  cases hs with
  | thread hs =>
      cases hs with
      | solo rest ha => exact inv_solo ha h
      | duo rest hh => exact hh.elim
  | drop hq hd => exact inv_drop h hq hd

/-- **THE INVARIANT HOLDS** in every reachable configuration. -/
theorem inv_reachable {c : Conf α} (hr : Reachable c) : Inv c := by
  obtain ⟨n, hr⟩ := hr
  exact invariant_of_reach (R := Step) (P := Inv) (fun _ _ ha hab => inv_step ha hab) hr
    (inv_init n)

/-! ## What every run guarantees -/

/-- **USED ONCE**: at most one send gets through to the slot, at most one
    receive reads it, and every read and drop found the written message. -/
theorem Inv.oneShot {c : Conf α} (h : Inv c) :
    Ledger.OneShot c.shared.ledger (tally Pc.writing c.threads) (tally Pc.reading c.threads) := by
  refine h.sound.oneShot ?_ ?_
  · have hs := h.senders
    have hu := Bool.toNat_le c.shared.inUse
    omega
  · cases hd : c.shared.dropped with
    | false =>
        have := h.stage hd
        omega
    | true =>
        have := (h.settled hd).2
        omega

/-- A thread inside a call means `Drop::drop` has not run. -/
theorem Inv.live {c : Conf α} (h : Inv c)
    (ht : 0 < tally Pc.writing c.threads + tally Pc.publishing c.threads +
      tally Pc.reading c.threads) :
    c.shared.dropped = false := by
  cases hd : c.shared.dropped with
  | false => rfl
  | true =>
      have := (h.settled hd).2
      omega

/-- A thread about to publish got through `in_use`. -/
theorem Inv.inUse_of_publish {c : Conf α} (h : Inv c) (ht : Pc.publish ∈ c.threads) :
    c.shared.inUse = true := by
  have hP : 1 ≤ tally Pc.publishing c.threads := le_tally (f := Pc.publishing) ht
  -- the publisher has written, and a write counts against `in_use`
  have hst := h.stage (h.live (by omega))
  have hb := h.sound.card_written
  have hs := h.senders
  cases hu : c.shared.inUse with
  | true => rfl
  | false =>
      rw [hu, Bool.toNat_false] at hs
      omega

/-- **READ AFTER WRITE**: a receive about to read finds the message written
    and in the slot. -/
theorem Inv.written_of_read {c : Conf α} (h : Inv c) (ht : Pc.read ∈ c.threads) :
    ∃ a, c.shared.ledger.held = some a ∧ c.shared.message = some a := by
  have hR : 1 ≤ tally Pc.reading c.threads := le_tally (f := Pc.reading) ht
  have hst := h.stage (h.live (by omega))
  obtain ⟨a, ha⟩ := Ledger.exists_held (l := c.shared.ledger) (by omega)
  exact ⟨a, ha, h.slot a ha⟩

/-- **EXACTLY ONCE**: after `Drop::drop` every message written was returned
    by a receive or dropped, once. -/
theorem Inv.settled_of_dropped {c : Conf α} (h : Inv c) (hd : c.shared.dropped = true) :
    c.shared.ledger.Settled :=
  ⟨h.sound, Ledger.held_eq_none_iff.mpr (h.settled hd).1⟩

end RuntimeChecks
