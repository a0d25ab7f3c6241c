import AtomicsAndLocks.Interleaving
import AtomicsAndLocks.Memory.Views

/-! # Lazy initialisation of a key (02-03-02_lazy-initialization.rs)

    `get_key` loads `KEY` (`Relaxed`); on 0 it generates a key and tries
    `compare_exchange(0, new_key, Relaxed, Relaxed)`, returning `new_key` on
    `Ok` and the key it found on `Err`; on any other value it returns the
    value loaded.  Any number of threads call it, each as often as it likes.
    The source's `generate_random_key` returns 42; the model takes each new
    key from a generator `gen`, any whose keys are not 0.

    The exchange succeeds only on the latest write, so it succeeds at most
    once, and `KEY`'s writes are its 0 and at most one key after it.  A load
    may still read the stale 0; the exchange after it then fails on the
    installed key, or installs its own: every call returns the one key
    installed (`get_key_agrees`). -/

namespace LazyKey

open Views Interleaving Relation

/-- `KEY`. -/
inductive Loc
  | key
  deriving DecidableEq

/-- `generate_random_key`. -/
def generateRandomKey : Nat := 42

structure Shared where
  mem : Memory Loc Nat
  /-- The keys the calls of `get_key` returned: a ghost. -/
  returned : List Nat

inductive Thread
  /-- Outside `get_key`; a call starts with `KEY.load(Relaxed)`. -/
  | idle (T : TView Loc)
  /-- The load returned 0: `generate_random_key()` is next. -/
  | generating (T : TView Loc)
  /-- `KEY.compare_exchange(0, new_key, Relaxed, Relaxed)` is next. -/
  | exchanging (newKey : Nat) (T : TView Loc)

inductive Act (gen : Nat → Prop) : Shared → Thread → Shared → Thread → Prop
  /-- The load returned a key: `get_key` returns it. -/
  | loadKey {sh : Shared} {T T' : TView Loc} {key : Nat}
      (hl : Load .relaxed .key T sh.mem key T') (hk : key ≠ 0) :
      Act gen sh (.idle T) ⟨sh.mem, sh.returned ++ [key]⟩ (.idle T')
  | loadZero {sh : Shared} {T T' : TView Loc} (hl : Load .relaxed .key T sh.mem 0 T') :
      Act gen sh (.idle T) sh (.generating T')
  | generate {sh : Shared} {T : TView Loc} {k : Nat} (hk : gen k) :
      Act gen sh (.generating T) sh (.exchanging k T)
  /-- `Ok(_) => new_key`. -/
  | exchangeOk {sh : Shared} {k : Nat} {T T' : TView Loc} {M' : Memory Loc Nat}
      (h : CompareExchange .relaxed .relaxed .key 0 k T sh.mem (.ok 0) T' M') :
      Act gen sh (.exchanging k T) ⟨M', sh.returned ++ [k]⟩ (.idle T')
  /-- `Err(k) => k`. -/
  | exchangeErr {sh : Shared} {k v : Nat} {T T' : TView Loc}
      (h : CompareExchange .relaxed .relaxed .key 0 k T sh.mem (.error v) T' sh.mem) :
      Act gen sh (.exchanging k T) ⟨sh.mem, sh.returned ++ [v]⟩ (.idle T')

abbrev Conf := Interleaving.Conf Shared Thread

abbrev Step (gen : Nat → Prop) : Conf → Conf → Prop := Interleaving.Step (Act gen) noHandOff

/-- `KEY` 0 and `n` threads, none in `get_key`. -/
def init (n : Nat) : Conf := ⟨⟨Memory.init fun _ => 0, []⟩, Multiset.replicate n (.idle TView.init)⟩

def Reachable (gen : Nat → Prop) (c : Conf) : Prop := ∃ n, ReflTransGen (Step gen) (init n) c

/-! ## The invariant -/

/-- `KEY` holds only its initial 0 and no call has returned, or a key `k`,
    not 0, was written after the 0 and every call returned `k`. -/
def Keyed (sh : Shared) : Prop :=
  (sh.mem .key = [⟨0, ⊥⟩] ∧ sh.returned = []) ∨
    ∃ k V, k ≠ 0 ∧ sh.mem .key = [⟨0, ⊥⟩, ⟨k, V⟩] ∧ ∀ v ∈ sh.returned, v = k

/-- A thread about to exchange holds a key that is not 0. -/
def Thread.Fresh : Thread → Prop
  | .exchanging k _ => k ≠ 0
  | _ => True

structure Inv (c : Conf) : Prop where
  keyed : Keyed c.shared
  fresh : ∀ t ∈ c.threads, t.Fresh

theorem inv_init (n : Nat) : Inv (init n) where
  keyed := .inl ⟨rfl, rfl⟩
  fresh t ht := by
    rw [Multiset.eq_of_mem_replicate ht]
    trivial

/-- A read of `KEY` that is not 0 reads the installed key, and `get_key`
    returning it keeps every call's key the same. -/
theorem Keyed.returns {sh : Shared} (h : Keyed sh) {o : Views.Ordering} {T T' : TView Loc} {v : Nat}
    (hl : Load o .key T sh.mem v T') (hv : v ≠ 0) : Keyed ⟨sh.mem, sh.returned ++ [v]⟩ := by
  cases hl with
  | @read ts m hr =>
      rcases h with ⟨hM, -⟩ | ⟨k, V, hk, hM, hret⟩
      -- the only write is the 0
      · rw [(Reads.of_singleton hM hr).2] at hv
        exact absurd rfl hv
      · rcases Reads.of_pair hM hr with ⟨-, rfl⟩ | ⟨-, rfl⟩
        · exact absurd rfl hv
        · refine .inr ⟨k, V, hk, hM, fun w hw => ?_⟩
          rcases List.mem_append.mp hw with hw | hw
          · exact hret w hw
          · exact List.mem_singleton.mp hw

/-- An exchange that succeeds found 0 as the latest write: no key was
    installed, and its own key is now the only one. -/
theorem Keyed.installs {sh : Shared} (h : Keyed sh) {o : Views.Ordering} {T T' : TView Loc} {k : Nat}
    {M' : Memory Loc Nat} (hk : k ≠ 0) (hu : Update o .key (fun _ => k) T sh.mem 0 T' M') :
    Keyed ⟨M', sh.returned ++ [k]⟩ := by
  obtain ⟨m, R, hlast, hm, rfl⟩ := hu.append
  rcases h with ⟨hM, hret⟩ | ⟨k', V, hk', hM, -⟩
  · refine .inr ⟨k, R, hk, by simp [hM], fun w hw => ?_⟩
    rw [hret] at hw
    exact List.mem_singleton.mp hw
  -- the latest write is the installed key, not 0
  · rw [hM] at hlast
    simp only [List.getLast?_cons_cons, List.getLast?_singleton, Option.some.injEq] at hlast
    rw [← hlast] at hm
    exact absurd hm.symm hk'

/-- One step of one thread keeps `Keyed`, and its new state is `Fresh`. -/
theorem Act.keeps {gen : Nat → Prop} (hgen : ∀ k, gen k → k ≠ 0) {sh sh' : Shared}
    {t t' : Thread} (ha : Act gen sh t sh' t') (h : Keyed sh) (hf : t.Fresh) :
    Keyed sh' ∧ t'.Fresh := by
  cases ha with
  | loadKey hl hk => exact ⟨h.returns hl hk, trivial⟩
  | loadZero _ => exact ⟨h, trivial⟩
  | generate hk => exact ⟨h, hgen _ hk⟩
  | exchangeOk hc =>
      cases hc with
      | ok hu => exact ⟨h.installs hf hu, trivial⟩
  | exchangeErr hc =>
      cases hc with
      | error hl hv => exact ⟨h.returns hl hv, trivial⟩

theorem inv_step {gen : Nat → Prop} (hgen : ∀ k, gen k → k ≠ 0) {c c' : Conf} (h : Inv c)
    (hs : Step gen c c') : Inv c' := by
  cases hs with
  | duo rest hh => exact hh.elim
  | @solo sh sh' t t' rest ha =>
      have hk := ha.keeps hgen h.keyed (h.fresh t (Multiset.mem_cons_self _ _))
      refine ⟨hk.1, fun u hu => ?_⟩
      rcases Multiset.mem_cons.mp hu with rfl | hu
      · exact hk.2
      · exact h.fresh u (Multiset.mem_cons_of_mem hu)

theorem inv_reachable {gen : Nat → Prop} (hgen : ∀ k, gen k → k ≠ 0) {c : Conf}
    (hr : Reachable gen c) : Inv c := by
  obtain ⟨n, hr⟩ := hr
  induction hr with
  | refl => exact inv_init n
  | tail _ hs ih => exact inv_step hgen ih hs

/-- For a generator of keys that are not 0, in every run with any number
    of threads: `compare_exchange` installed at most one key, and every call
    of `get_key` returned the same key, which is not 0. -/
theorem get_key_agrees (gen : Nat → Prop) (hgen : ∀ k, gen k → k ≠ 0) (c : Conf)
    (hr : Reachable gen c) :
    (c.shared.mem .key).length ≤ 2 ∧
      ∀ v ∈ c.shared.returned, v ≠ 0 ∧ ∀ w ∈ c.shared.returned, w = v := by
  rcases (inv_reachable hgen hr).keyed with ⟨hM, hret⟩ | ⟨k, V, hk, hM, hret⟩
  · refine ⟨by simp [hM], fun v hv => ?_⟩
    rw [hret] at hv
    cases hv
  · refine ⟨by simp [hM], fun v hv => ⟨?_, fun w hw => ?_⟩⟩
    · rw [hret v hv]
      exact hk
    · rw [hret w hw, hret v hv]

/-- A thread's view after its load read `KEY`'s initial 0. -/
def zeroRead : TView Loc := TView.init.read .relaxed .key 0 ⊥

/-- The write `a`'s exchange installs, right after the 0. -/
def installed : Msg Loc Nat := ⟨generateRandomKey, (zeroRead.read .relaxed .key 0 ⊥).released .relaxed .key 1 ⊥⟩

/-- `KEY` after `a`'s exchange: the 0, then 42. -/
def keyIs42 : Memory Loc Nat := (Memory.init fun _ => 0).append .key installed

/-- Two threads: `a` loaded 0 and installed 42; `b` loaded the stale 0
    after that, and its exchange failed on the 42.  Both returned 42. -/
def bothGot42 : Conf :=
  ⟨⟨keyIs42, [generateRandomKey, generateRandomKey]⟩,
    .idle (zeroRead.read .relaxed .key 1 installed.view) ::ₘ
      .idle ((zeroRead.read .relaxed .key 0 ⊥).write .key 1) ::ₘ 0⟩

theorem reach_bothGot42 : Reachable (· = generateRandomKey) bothGot42 := by
  -- `a` loads the initial 0, generates 42 and installs it
  have a1 : Act (· = generateRandomKey) ⟨Memory.init fun _ => 0, []⟩ (.idle TView.init)
      ⟨Memory.init fun _ => 0, []⟩ (.generating zeroRead) :=
    Act.loadZero (Load.read (m := ⟨0, ⊥⟩) ⟨le_refl _, rfl⟩)
  have a2 : Act (· = generateRandomKey) ⟨Memory.init fun _ => 0, []⟩ (.generating zeroRead)
      ⟨Memory.init fun _ => 0, []⟩ (.exchanging generateRandomKey zeroRead) :=
    Act.generate rfl
  have a3 : Act (· = generateRandomKey) ⟨Memory.init fun _ => 0, []⟩
      (.exchanging generateRandomKey zeroRead) ⟨keyIs42, [generateRandomKey]⟩
      (.idle ((zeroRead.read .relaxed .key 0 ⊥).write .key 1)) :=
    Act.exchangeOk (CompareExchange.ok (Update.latest (m := ⟨0, ⊥⟩) rfl))
  -- `b` still knows only the 0: it may load it, and then its exchange reads the 42
  have b1 : Act (· = generateRandomKey) ⟨keyIs42, [generateRandomKey]⟩ (.idle TView.init)
      ⟨keyIs42, [generateRandomKey]⟩ (.generating zeroRead) :=
    Act.loadZero (Load.read (m := ⟨0, ⊥⟩) ⟨le_refl _, rfl⟩)
  have b2 : Act (· = generateRandomKey) ⟨keyIs42, [generateRandomKey]⟩ (.generating zeroRead)
      ⟨keyIs42, [generateRandomKey]⟩ (.exchanging generateRandomKey zeroRead) :=
    Act.generate rfl
  have hb : Reads zeroRead keyIs42 .key 1 installed := ⟨by decide, rfl⟩
  have b3 : Act (· = generateRandomKey) ⟨keyIs42, [generateRandomKey]⟩
      (.exchanging generateRandomKey zeroRead)
      ⟨keyIs42, [generateRandomKey, generateRandomKey]⟩
      (.idle (zeroRead.read .relaxed .key 1 installed.view)) :=
    Act.exchangeErr (CompareExchange.error (Load.read hb) (by decide))
  have ra : ReflTransGen (Step (· = generateRandomKey))
      ⟨⟨Memory.init fun _ => 0, []⟩, .idle TView.init ::ₘ .idle TView.init ::ₘ 0⟩
      ⟨⟨keyIs42, [generateRandomKey]⟩,
        .idle ((zeroRead.read .relaxed .key 0 ⊥).write .key 1) ::ₘ .idle TView.init ::ₘ 0⟩ :=
    ((reach_solo _ a1).trans (reach_solo _ a2)).trans (reach_solo _ a3)
  have rb : ReflTransGen (Step (· = generateRandomKey))
      ⟨⟨keyIs42, [generateRandomKey]⟩,
        .idle TView.init ::ₘ .idle ((zeroRead.read .relaxed .key 0 ⊥).write .key 1) ::ₘ 0⟩
      bothGot42 :=
    ((reach_solo _ b1).trans (reach_solo _ b2)).trans (reach_solo _ b3)
  rw [Multiset.cons_swap (Thread.idle ((zeroRead.read .relaxed .key 0 ⊥).write .key 1))] at ra
  exact ⟨2, ra.trans rb⟩

theorem get_key_agrees_bothGot42 :
    (∀ k, k = generateRandomKey → k ≠ 0) ∧ Reachable (· = generateRandomKey) bothGot42 ∧
      bothGot42.shared.returned = [42, 42] ∧
      ((bothGot42.shared.mem .key).length ≤ 2 ∧
        ∀ v ∈ bothGot42.shared.returned, v ≠ 0 ∧ ∀ w ∈ bothGot42.shared.returned, w = v) := by
  have hgen : ∀ k, k = generateRandomKey → k ≠ 0 := by
    rintro k rfl
    decide
  exact ⟨hgen, reach_bothGot42, rfl,
    get_key_agrees (· = generateRandomKey) hgen bothGot42 reach_bothGot42⟩

end LazyKey
