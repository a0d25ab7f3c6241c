import AtomicsAndLocks.Interleaving
import Mathlib.Data.Multiset.Range

/-! # Issuing IDs with `fetch_add` (02-02-03_issuing-ids.rs)

    `allocate_new_id_with_decrement` takes an ID with `NEXT_ID.fetch_add(1)`.
    Below 10 the ID is returned; otherwise the call takes its increment back
    with `fetch_sub(1)`, prints `NEXT_ID.load` and panics.  `NEXT_ID` is an
    `AtomicU32`, whose `fetch_add` and `fetch_sub` wrap around.  Any number of
    threads call it, each as often as it likes; the `println!`'s load writes
    nothing and is taken with the `panic!`.

    `NEXT_ID` is the IDs returned plus the calls between their two accesses,
    as long as that sum stays below `2 ^ 32`: the IDs returned are then
    `0, …, 9` at most, each once (`issues_below_ten`).  The sum is bounded by
    10 and the threads, so fewer than `2 ^ 32 - 10` threads keep it there.
    With `2 ^ 32 - 9` threads it is not: after ten IDs, `2 ^ 32 - 10` calls
    in the window take `NEXT_ID` round to 0, and the next call returns 0
    again (`issues_zero_twice`). -/

namespace IssuingIds

open Interleaving Relation

/-! ## `u32` arithmetic -/

/-- `u32::MAX`. -/
def MAX : Nat := 4294967295

/-- The value `fetch_add(1)` leaves in an `AtomicU32` that held `v`. -/
def wrappingAdd (v : Nat) : Nat := (v + 1) % (MAX + 1)

/-- The value `fetch_sub(1)` leaves in an `AtomicU32` that held `v`. -/
def wrappingSub (v : Nat) : Nat := (v + MAX) % (MAX + 1)

theorem wrappingAdd_of_lt {v : Nat} (h : v < MAX) : wrappingAdd v = v + 1 :=
  Nat.mod_eq_of_lt (by omega)

theorem wrappingSub_of_pos {v : Nat} (h0 : 0 < v) (h : v ≤ MAX) : wrappingSub v = v - 1 := by
  unfold wrappingSub
  rw [show v + MAX = v - 1 + (MAX + 1) by omega, Nat.add_mod_right]
  exact Nat.mod_eq_of_lt (by omega)

/-! ## The model -/

/-- `NEXT_ID`, and the IDs returned so far. -/
structure NextId where
  value : Nat
  issued : Multiset Nat

inductive Pc
  | idle
  /-- `fetch_add` returned 10 or more: `fetch_sub(1)` is next -/
  | undo
  /-- `panic!("too many IDs!")` -/
  | panicked
  deriving DecidableEq

/-- One atomic step of `allocate_new_id_with_decrement`. -/
inductive Act : NextId → Pc → NextId → Pc → Prop
  /-- `fetch_add(1)` returned `id` below 10, which is returned. -/
  | issue {d : NextId} (h : d.value < 10) :
      Act d .idle ⟨wrappingAdd d.value, d.value ::ₘ d.issued⟩ .idle
  /-- `fetch_add(1)` returned 10 or more. -/
  | tooMany {d : NextId} (h : 10 ≤ d.value) :
      Act d .idle { d with value := wrappingAdd d.value } .undo
  /-- `fetch_sub(1)`, then the `println!` and the `panic!`. -/
  | undo {d : NextId} : Act d .undo { d with value := wrappingSub d.value } .panicked

abbrev Conf := Interleaving.Conf NextId Pc

def init (n : Nat) : Conf := ⟨⟨0, 0⟩, Multiset.replicate n .idle⟩

def Reachable (c : Conf) : Prop :=
  ∃ n, ReflTransGen (Interleaving.Step Act noHandOff) (init n) c

/-- Indicator of a call between its `fetch_add` and its `fetch_sub`. -/
def Pc.undoing : Pc → Nat
  | .undo => 1
  | _ => 0

/-- The calls between their `fetch_add` and their `fetch_sub`. -/
def undoing (c : Conf) : Nat := tally Pc.undoing c.threads

/-- A call is in the window at most once. -/
theorem tally_undoing_le (m : Multiset Pc) : tally Pc.undoing m ≤ Multiset.card m :=
  tally_le_card fun u _ => by cases u <;> decide

/-! ## The invariant -/

/-- `NEXT_ID` counts the IDs returned, `0, …, r - 1` with `r ≤ 10`, and the
    calls in the window; a call enters the window only once all ten IDs are
    out. -/
structure Inv (c : Conf) : Prop where
  issued_eq : c.shared.issued = Multiset.range (Multiset.card c.shared.issued)
  card_le : Multiset.card c.shared.issued ≤ 10
  value_eq : c.shared.value = Multiset.card c.shared.issued + undoing c
  full : 0 < undoing c → Multiset.card c.shared.issued = 10

theorem inv_init (n : Nat) : Inv (init n) where
  issued_eq := rfl
  card_le := Nat.zero_le _
  value_eq := by simp [init, undoing, Pc.undoing]
  full := by simp [init, undoing, Pc.undoing]

/-- `Inv` around the thread `t` that steps, with `W` calls in the window
    among the others. -/
def Counts (d : NextId) (t : Pc) (W : Nat) : Prop :=
  d.issued = Multiset.range (Multiset.card d.issued) ∧ Multiset.card d.issued ≤ 10 ∧
  d.value = Multiset.card d.issued + (t.undoing + W) ∧
  (0 < t.undoing + W → Multiset.card d.issued = 10)

theorem inv_iff_counts {d : NextId} {t : Pc} {rest : Multiset Pc} :
    Inv ⟨d, t ::ₘ rest⟩ ↔ Counts d t (tally Pc.undoing rest) := by
  constructor
  · rintro ⟨h1, h2, h3, h4⟩
    simp only [undoing, tally_cons] at h3 h4
    exact ⟨h1, h2, h3, h4⟩
  · rintro ⟨h1, h2, h3, h4⟩
    refine ⟨h1, h2, ?_, ?_⟩
    · simp only [undoing, tally_cons]
      exact h3
    · simp only [undoing, tally_cons]
      exact h4

section Steps

variable {d d' : NextId} {t t' : Pc} {W : Nat}

/-- **ONE STEP KEEPS THE COUNTS**, when the other calls in the window leave
    room below `u32::MAX` for ten IDs and this call. -/
theorem Counts.step (h : Act d t d' t') (hc : Counts d t W) (hW : W + 10 < MAX) :
    Counts d' t' W := by
  obtain ⟨hi, hr, hv, hf⟩ := hc
  cases h with
  | issue h10 =>
      simp only [Pc.undoing, Nat.zero_add] at hv hf ⊢
      -- nobody is in the window: that needs all ten IDs out and `NEXT_ID ≥ 10`
      have hW0 : W = 0 := by
        rcases Nat.eq_zero_or_pos W with h0 | hpos
        · exact h0
        · have := hf hpos
          omega
      subst hW0
      have hval : d.value = Multiset.card d.issued := hv
      refine ⟨?_, ?_, ?_, fun h => absurd h (Nat.lt_irrefl 0)⟩
      · show d.value ::ₘ d.issued = Multiset.range (Multiset.card (d.value ::ₘ d.issued))
        rw [Multiset.card_cons, Multiset.range_succ, ← hi, hval]
      · show Multiset.card (d.value ::ₘ d.issued) ≤ 10
        rw [Multiset.card_cons]
        omega
      · show wrappingAdd d.value = Multiset.card (d.value ::ₘ d.issued) + 0
        rw [wrappingAdd_of_lt (by unfold MAX; omega), Multiset.card_cons, hval]
  | tooMany h10 =>
      simp only [Pc.undoing, Nat.zero_add] at hv hf
      refine ⟨hi, hr, ?_, fun _ => ?_⟩
      · show wrappingAdd d.value = Multiset.card d.issued + (1 + W)
        -- at most ten IDs and `W` calls before this one: no wrap
        rw [wrappingAdd_of_lt (by omega)]
        omega
      · show Multiset.card d.issued = 10
        rcases Nat.eq_zero_or_pos W with h0 | hpos
        · omega
        · exact hf hpos
  | undo =>
      simp only [Pc.undoing] at hv hf ⊢
      refine ⟨hi, hr, ?_, fun _ => hf (by omega)⟩
      show wrappingSub d.value = Multiset.card d.issued + (0 + W)
      rw [wrappingSub_of_pos (by omega) (by omega)]
      omega

end Steps

theorem inv_step {c c' : Conf} (hN : Multiset.card c.threads + 10 ≤ MAX) (hinv : Inv c)
    (h : Interleaving.Step Act noHandOff c c') : Inv c' := by
  cases h with
  | duo rest hh => exact hh.elim
  | solo rest ha =>
      -- the others in the window are fewer than the others
      have hW := tally_undoing_le rest
      rw [Multiset.card_cons] at hN
      exact inv_iff_counts.mpr (Counts.step ha (inv_iff_counts.mp hinv) (by omega))

/-- **THE INVARIANT HOLDS** in every configuration that fewer than
    `2 ^ 32 - 10` threads reach. -/
theorem inv_reachable {c : Conf} (hr : Reachable c) (hN : Multiset.card c.threads + 10 ≤ MAX) :
    Inv c := by
  obtain ⟨n, hr⟩ := hr
  exact invariant_of_reach_card (B := fun k => k + 10 ≤ MAX)
    (fun _ _ hb hinv hab => inv_step hb hinv hab) hr (inv_init n) hN

abbrev IssueStep : Conf → Conf → Prop := Interleaving.Step Act noHandOff

/-- One thread takes the first `k` IDs while the others wait. -/
theorem reach_issues (rest : Multiset Pc) :
    ∀ k, k ≤ 10 →
      ReflTransGen IssueStep ⟨⟨0, 0⟩, .idle ::ₘ rest⟩
        ⟨⟨k, Multiset.range k⟩, .idle ::ₘ rest⟩ := by
  intro k
  induction k with
  | zero => intro _; exact ReflTransGen.refl
  | succ k ih =>
      intro hk
      have hissue := Act.issue (d := ⟨k, Multiset.range k⟩) (show k < 10 by omega)
      have e : (⟨wrappingAdd k, k ::ₘ Multiset.range k⟩ : NextId) =
          ⟨k + 1, Multiset.range (k + 1)⟩ := by
        rw [wrappingAdd_of_lt (by unfold MAX; omega), Multiset.range_succ]
      rw [e] at hissue
      exact (ih (by omega)).trans (reach_solo rest hissue)

/-- With fewer than `2 ^ 32 - 10` threads, in every reachable configuration:
    the IDs returned are pairwise distinct and below 10; `NEXT_ID` is the
    number of IDs returned plus the calls between their `fetch_add` and their
    `fetch_sub`, each panicking call having taken its increment back; so it
    is at most 10 plus the threads and has never wrapped. -/
theorem issues_below_ten (c : Conf) (hr : Reachable c)
    (hN : Multiset.card c.threads + 10 ≤ MAX) :
    c.shared.issued.Nodup ∧ (∀ id ∈ c.shared.issued, id < 10) ∧
    c.shared.value = Multiset.card c.shared.issued + undoing c ∧
    c.shared.value ≤ 10 + Multiset.card c.threads := by
  have h := inv_reachable hr hN
  have hW : undoing c ≤ Multiset.card c.threads := tally_undoing_le c.threads
  refine ⟨?_, ?_, h.value_eq, ?_⟩
  · rw [h.issued_eq]
    exact Multiset.nodup_range _
  · intro id hid
    rw [h.issued_eq, Multiset.mem_range] at hid
    exact Nat.lt_of_lt_of_le hid h.card_le
  · have := h.value_eq
    have := h.card_le
    omega

/-- Two threads: the first has taken the ten IDs, and the second's call
    stands between its `fetch_add` and its `fetch_sub`. -/
def inWindow : Conf := ⟨⟨11, Multiset.range 10⟩, .undo ::ₘ {.idle}⟩

theorem reach_inWindow : Reachable inWindow := by
  refine ⟨2, ?_⟩
  have e2 : init 2 = ⟨⟨0, 0⟩, .idle ::ₘ {.idle}⟩ := rfl
  have s1 : ReflTransGen IssueStep (init 2) ⟨⟨10, Multiset.range 10⟩, .idle ::ₘ {.idle}⟩ := by
    rw [e2]
    exact reach_issues {.idle} 10 (Nat.le_refl 10)
  have htoo := Act.tooMany (d := ⟨10, Multiset.range 10⟩) (Nat.le_refl 10)
  have e : wrappingAdd 10 = 11 := wrappingAdd_of_lt (by unfold MAX; omega)
  rw [e] at htoo
  exact s1.trans (reach_solo {.idle} htoo)

theorem issues_below_ten_inWindow :
    Reachable inWindow ∧ Multiset.card inWindow.threads + 10 ≤ MAX ∧
    (inWindow.shared.issued.Nodup ∧ (∀ id ∈ inWindow.shared.issued, id < 10) ∧
      inWindow.shared.value = Multiset.card inWindow.shared.issued + undoing inWindow ∧
      inWindow.shared.value ≤ 10 + Multiset.card inWindow.threads) :=
  have hN : Multiset.card inWindow.threads + 10 ≤ MAX := by
    simp only [inWindow, Multiset.card_cons, Multiset.card_singleton, MAX]
    omega
  ⟨reach_inWindow, hN, issues_below_ten inWindow reach_inWindow hN⟩

/-! ## `2 ^ 32 - 9` threads

    One thread takes the ten IDs.  Then `2 ^ 32 - 10` others call in turn and
    stop between their two accesses, the last `fetch_add` taking `NEXT_ID`
    from `u32::MAX` round to 0; and the first thread calls again. -/

/-- `NEXT_ID` after `i` calls in the window, with all ten IDs out. -/
def windowed (i : Nat) : NextId := ⟨(10 + i) % (MAX + 1), Multiset.range 10⟩

/-- The `i`-th call into the window, from `10 + i`, which is below `2 ^ 32`. -/
theorem act_tooMany (i : Nat) (hi : i < MAX - 9) :
    Act (windowed i) .idle (windowed (i + 1)) .undo := by
  have hlt : (10 + i) % (MAX + 1) = 10 + i := Nat.mod_eq_of_lt (by omega)
  have h := Act.tooMany (d := windowed i) (by show 10 ≤ (10 + i) % (MAX + 1); omega)
  have e : { windowed i with value := wrappingAdd (windowed i).value } = windowed (i + 1) := by
    show (⟨wrappingAdd ((10 + i) % (MAX + 1)), Multiset.range 10⟩ : NextId) =
      ⟨(10 + (i + 1)) % (MAX + 1), Multiset.range 10⟩
    rw [hlt, wrappingAdd, Nat.add_assoc]
  rw [e] at h
  exact h

/-- ID 0 returned a second time, the other threads stopped in the window. -/
def zeroTwice : Conf :=
  ⟨⟨1, 0 ::ₘ Multiset.range 10⟩, .idle ::ₘ Multiset.replicate (MAX - 9) .undo⟩

theorem reach_zeroTwice : ReflTransGen IssueStep (init (MAX - 8)) zeroTwice := by
  have h10 : 10 ≤ MAX := by unfold MAX; omega
  have e0 : Multiset.replicate (MAX - 8) Pc.idle = .idle ::ₘ Multiset.replicate (MAX - 9) .idle := by
    rw [show MAX - 8 = MAX - 9 + 1 by omega, Multiset.replicate_succ]
  -- the first thread takes the ten IDs
  have s1 : ReflTransGen IssueStep (init (MAX - 8))
      ⟨⟨10, Multiset.range 10⟩, .idle ::ₘ Multiset.replicate (MAX - 9) .idle⟩ := by
    rw [init, e0]
    exact reach_issues _ 10 (Nat.le_refl 10)
  -- the others enter the window one by one, and `NEXT_ID` comes round to 0
  have s2 := @reach_replicate NextId Pc Act noHandOff windowed .idle .undo (MAX - 9)
    act_tooMany {.idle}
  have e1 : windowed 0 = ⟨10, Multiset.range 10⟩ := by
    show (⟨(10 + 0) % (MAX + 1), _⟩ : NextId) = _
    rw [Nat.mod_eq_of_lt (show 10 + 0 < MAX + 1 by omega)]
  have e2 : windowed (MAX - 9) = ⟨0, Multiset.range 10⟩ := by
    show (⟨(10 + (MAX - 9)) % (MAX + 1), _⟩ : NextId) = _
    rw [show 10 + (MAX - 9) = MAX + 1 by omega, Nat.mod_self]
  have e3 : ∀ p : Pc, Multiset.replicate (MAX - 9) p + {.idle} =
      .idle ::ₘ Multiset.replicate (MAX - 9) p := by
    intro p
    rw [Multiset.add_comm, Multiset.singleton_add]
  rw [e1, e2, e3, e3] at s2
  -- the first thread calls again and gets 0
  have hissue := Act.issue (d := ⟨0, Multiset.range 10⟩) (show 0 < 10 by decide)
  have s3 : ReflTransGen IssueStep
      ⟨⟨0, Multiset.range 10⟩, .idle ::ₘ Multiset.replicate (MAX - 9) .undo⟩ zeroTwice := by
    have e4 : wrappingAdd 0 = 1 := wrappingAdd_of_lt (by unfold MAX; omega)
    rw [e4] at hissue
    exact reach_solo _ hissue
  exact s1.trans (s2.trans s3)

/-- **ID 0 IS ISSUED TWICE** with `2 ^ 32 - 9` threads. -/
theorem issues_zero_twice : ¬ ∀ c, Reachable c → c.shared.issued.Nodup := by
  intro h
  have hnd : (0 ::ₘ Multiset.range 10).Nodup := h zeroTwice ⟨MAX - 8, reach_zeroTwice⟩
  have h0 : (0 : Nat) ∈ Multiset.range 10 := Multiset.mem_range.mpr (by decide)
  exact (Multiset.nodup_cons.mp hnd).1 h0

end IssuingIds
