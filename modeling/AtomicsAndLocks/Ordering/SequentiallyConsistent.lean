import AtomicsAndLocks.Memory.Views

/-! # Sequentially consistent ordering (03-07_sequentially-consistent.rs)

    Thread `a` stores `true` to `A` and then loads `B`; thread `b` stores
    `true` to `B` and then loads `A`, all `SeqCst`; a thread whose load reads
    `false` pushes `'!'` to the `static mut S`.  The two closures are one
    code with `A` and `B` swapped, so a thread is named by the location it
    stores to, and `Loc.other` is the one it loads.

    Each `SeqCst` store adds its write to the global view `sc`, and each
    `SeqCst` load first joins the entry there of the location it loads
    (`TView.joinSC`).  So the thread that loads second, in the one order of
    the `SeqCst` operations, reads the other's `true`: at most one thread
    enters its `if` and touches `S` (`touches_s_alone`). -/

namespace SequentiallyConsistent

open Views Relation

/-- `A` and `B`. -/
inductive Loc
  | a
  | b
  deriving DecidableEq

/-- The location the thread of `x` loads: `B` for thread `a`, `A` for `b`. -/
def Loc.other : Loc → Loc
  | .a => .b
  | .b => .a

@[simp] theorem Loc.other_ne (x : Loc) : x.other ≠ x := by
  cases x <;> simp [Loc.other]

@[simp] theorem Loc.other_other (x : Loc) : x.other.other = x := by
  cases x <;> rfl

/-- Every location is the thread's own or the one it loads. -/
theorem Loc.eq_or_eq_other (x y : Loc) : y = x ∨ y = x.other := by
  cases x <;> cases y <;> simp [Loc.other]

/-- A fact about both threads is one about the thread `x` and the other. -/
theorem Loc.forall_of (x : Loc) {P : Loc → Prop} (hx : P x) (ho : P x.other) : ∀ y, P y := by
  intro y
  rcases Loc.eq_or_eq_other x y with hy | hy
  · rw [hy]
    exact hx
  · rw [hy]
    exact ho

/-- A thread's place in its closure. -/
inductive Pc
  /-- `X.store(true, SeqCst)` is next. -/
  | start
  /-- `if !Y.load(SeqCst)` is next. -/
  | stored
  /-- The load read `false`: `S.push('!')` is next. -/
  | pushing
  | pushed
  /-- The load read `true`: the closure returned without touching `S`. -/
  | skipped
  deriving DecidableEq

/-- The thread is in the body of its `if`, where it touches `S`. -/
def Pc.touches : Pc → Bool
  | pushing | pushed => true
  | start | stored | skipped => false

structure Conf where
  mem : Memory Loc Bool
  /-- The global view of the `SeqCst` operations. -/
  sc : View Loc
  pc : Loc → Pc
  views : Loc → TView Loc
  /-- The characters of `S`. -/
  s : List Char

inductive Step : Conf → Conf → Prop
  /-- `X.store(true, SeqCst)`: a releasing store, added to the global view. -/
  | store {c : Conf} (x : Loc) (h : c.pc x = .start) :
      Step c { c with mem := c.mem.store (c.views x) .seqCst x true,
                      sc := c.sc ⊔ View.single x (c.mem x).length,
                      pc := Function.update c.pc x .stored,
                      views := Function.update c.views x ((c.views x).write x (c.mem x).length) }
  /-- `Y.load(SeqCst)`, after joining the last `SeqCst` write of `Y`. -/
  | load {c : Conf} (x : Loc) {v : Bool} {T : TView Loc} (h : c.pc x = .stored)
      (hl : Load .seqCst x.other ((c.views x).joinSC c.sc x.other) c.mem v T) :
      Step c { c with pc := Function.update c.pc x (if v then .skipped else .pushing),
                      views := Function.update c.views x T }
  /-- `S.push('!')`. -/
  | push {c : Conf} (x : Loc) (h : c.pc x = .pushing) :
      Step c { c with pc := Function.update c.pc x .pushed, s := c.s ++ ['!'] }

/-- `A` and `B` `false`, `S` empty, both threads spawned. -/
def init : Conf := ⟨Memory.init fun _ => false, ⊥, fun _ => .start, fun _ => TView.init, []⟩

def Reachable (c : Conf) : Prop := ReflTransGen Step init c

/-! ## The invariant -/

structure Inv (c : Conf) : Prop where
  unwritten : ∀ x, c.pc x = .start → c.mem x = [⟨false, ⊥⟩]
  /-- A thread's `true` is written, and in the global view. -/
  written : ∀ x, c.pc x ≠ .start → (∃ V, c.mem x = [⟨false, ⊥⟩, ⟨true, V⟩]) ∧ 1 ≤ c.sc x
  exclusive : ∀ x, (c.pc x).touches → (c.pc x.other).touches = false
  s_nil : (∀ x, c.pc x ≠ .pushed) → c.s = []
  s_one : ∀ x, c.pc x = .pushed → c.s = ['!']

theorem inv_init : Inv init where
  unwritten _ _ := rfl
  written x h := absurd rfl h
  exclusive x h := by cases h
  s_nil _ := rfl
  s_one x h := by cases h

/-- Once the other thread has stored, a `SeqCst` load of its location reads
    its `true`. -/
theorem load_true {c : Conf} (h : Inv c) {x : Loc} (hy : c.pc x.other ≠ .start) {v : Bool}
    {T : TView Loc} (hl : Load .seqCst x.other ((c.views x).joinSC c.sc x.other) c.mem v T) :
    v = true := by
  obtain ⟨⟨V, hV⟩, hsc⟩ := h.written x.other hy
  cases hl with
  | @read ts m hr =>
      -- the joined view knows the `true` at timestamp 1
      have hk := Nat.le_trans hsc (TView.sc_le_joinSC (T := c.views x) c.sc)
      rcases Reads.of_pair hV hr with ⟨rfl, -⟩ | ⟨-, rfl⟩
      · exact absurd (Nat.le_trans hk hr.visible) (by omega)
      · rfl

theorem inv_store {c : Conf} (h : Inv c) {x : Loc} (hx : c.pc x = .start) :
    Inv { c with mem := c.mem.store (c.views x) .seqCst x true,
                 sc := c.sc ⊔ View.single x (c.mem x).length,
                 pc := Function.update c.pc x .stored,
                 views := Function.update c.views x ((c.views x).write x (c.mem x).length) } := by
  have hm := h.unwritten x hx
  constructor
  · refine Loc.forall_of x ?_ ?_
    · intro hy
      simp at hy
    · intro hy
      simp only [Function.update_of_ne (Loc.other_ne x)] at hy
      simpa using h.unwritten _ hy
  · refine Loc.forall_of x ?_ ?_
    -- the new `true` is the second write of `x`, at timestamp 1
    · intro _
      exact ⟨⟨(c.views x).released .seqCst x 1 ⊥, by simp [hm]⟩, by simp [hm]⟩
    · intro hy
      simp only [Function.update_of_ne (Loc.other_ne x)] at hy
      obtain ⟨hV, hsc⟩ := h.written _ hy
      exact ⟨by simpa using hV, by simp [hsc]⟩
  · refine Loc.forall_of x ?_ ?_
    · intro hy
      simp [Pc.touches] at hy
    · intro _
      simp [Pc.touches]
  · intro hp
    refine h.s_nil (Loc.forall_of x (by rw [hx]; simp) ?_)
    simpa using hp x.other
  · refine Loc.forall_of x ?_ ?_
    · intro hy
      simp at hy
    · intro hy
      simp only [Function.update_of_ne (Loc.other_ne x)] at hy
      exact h.s_one _ hy

theorem inv_load {c : Conf} (h : Inv c) {x : Loc} (hx : c.pc x = .stored) {v : Bool}
    {T : TView Loc} (hl : Load .seqCst x.other ((c.views x).joinSC c.sc x.other) c.mem v T) :
    Inv { c with pc := Function.update c.pc x (if v then .skipped else .pushing),
                 views := Function.update c.views x T } := by
  have hread : c.pc x.other ≠ .start → v = true := fun hy => load_true h hy hl
  constructor
  · refine Loc.forall_of x ?_ ?_
    · intro hy
      simp only [Function.update_self] at hy
      split at hy <;> cases hy
    · intro hy
      simp only [Function.update_of_ne (Loc.other_ne x)] at hy
      exact h.unwritten _ hy
  · refine Loc.forall_of x ?_ ?_
    · intro _
      exact h.written x (by rw [hx]; simp)
    · intro hy
      simp only [Function.update_of_ne (Loc.other_ne x)] at hy
      exact h.written _ hy
  · refine Loc.forall_of x ?_ ?_
    -- the thread pushes only if the other has not stored, and so does not touch `S`
    · intro hy
      simp only [Function.update_self, Function.update_of_ne (Loc.other_ne x)] at hy ⊢
      cases v with
      | false =>
          by_cases hy' : c.pc x.other = .start
          · rw [hy']
            rfl
          · cases hread hy'
      | true => simp [Pc.touches] at hy
    · intro hy
      simp only [Function.update_of_ne (Loc.other_ne x), Loc.other_other,
        Function.update_self] at hy ⊢
      have hs : c.pc x.other ≠ .start := by
        intro hs
        rw [hs] at hy
        cases hy
      rw [hread hs]
      rfl
  · intro hp
    refine h.s_nil (Loc.forall_of x (by rw [hx]; simp) ?_)
    simpa using hp x.other
  · refine Loc.forall_of x ?_ ?_
    · intro hy
      simp only [Function.update_self] at hy
      split at hy <;> cases hy
    · intro hy
      simp only [Function.update_of_ne (Loc.other_ne x)] at hy
      exact h.s_one _ hy

theorem inv_push {c : Conf} (h : Inv c) {x : Loc} (hx : c.pc x = .pushing) :
    Inv { c with pc := Function.update c.pc x .pushed, s := c.s ++ ['!'] } := by
  have hy : (c.pc x.other).touches = false := h.exclusive x (by rw [hx]; rfl)
  have hy' : c.pc x.other ≠ .pushed := by
    intro hp
    rw [hp] at hy
    cases hy
  constructor
  · refine Loc.forall_of x ?_ ?_
    · intro hs
      simp at hs
    · intro hs
      simp only [Function.update_of_ne (Loc.other_ne x)] at hs
      exact h.unwritten _ hs
  · refine Loc.forall_of x ?_ ?_
    · intro _
      exact h.written x (by rw [hx]; simp)
    · intro hs
      simp only [Function.update_of_ne (Loc.other_ne x)] at hs
      exact h.written _ hs
  · refine Loc.forall_of x ?_ ?_
    · intro _
      simpa using hy
    · intro ht
      simp only [Function.update_of_ne (Loc.other_ne x)] at ht
      rw [hy] at ht
      cases ht
  · intro hp
    exact absurd (Function.update_self x Pc.pushed c.pc) (hp x)
  -- before the push `S` is empty: neither thread has pushed
  · have hs : c.s = [] := h.s_nil (Loc.forall_of x (by rw [hx]; simp) hy')
    refine Loc.forall_of x ?_ ?_
    · intro _
      simp [hs]
    · intro hp
      simp only [Function.update_of_ne (Loc.other_ne x)] at hp
      exact absurd hp hy'

theorem inv_step {c c' : Conf} (h : Inv c) (hs : Step c c') : Inv c' := by
  cases hs with
  | store x hx => exact inv_store h hx
  | load x hx hl => exact inv_load h hx hl
  | push x hx => exact inv_push h hx

theorem inv_reachable {c : Conf} (hr : Reachable c) : Inv c := by
  induction hr with
  | refl => exact inv_init
  | tail _ hs ih => exact inv_step ih hs

/-- In every run, at most one thread is in the body of its `if`, so the two
    accesses to the `static mut S` never race, and `S` holds at most one
    `'!'`. -/
theorem touches_s_alone (c : Conf) (hr : Reachable c) :
    ¬ ((c.pc .a).touches ∧ (c.pc .b).touches) ∧ c.s.length ≤ 1 := by
  have h := inv_reachable hr
  refine ⟨fun ⟨ha, hb⟩ => ?_, ?_⟩
  · have := h.exclusive .a ha
    simp only [Loc.other, hb] at this
    cases this
  · by_cases hp : ∃ x, c.pc x = .pushed
    · obtain ⟨x, hx⟩ := hp
      simp [h.s_one x hx]
    · rw [h.s_nil fun x hx => hp ⟨x, hx⟩]
      simp

/-- Thread `a` has stored. -/
def storedA : Conf :=
  { init with mem := init.mem.store TView.init .seqCst .a true,
              sc := ⊥ ⊔ View.single .a 1,
              pc := Function.update init.pc .a .stored,
              views := Function.update init.views .a (TView.init.write .a 1) }

/-- Its load of `B` read the initial `false`, before thread `b` stored. -/
def pushingA : Conf :=
  { storedA with pc := Function.update storedA.pc .a .pushing,
                 views := Function.update storedA.views .a
                   (((TView.init.write .a 1).joinSC storedA.sc .b).read .seqCst .b 0 ⊥) }

/-- Thread `a` pushed. -/
def pushedA : Conf :=
  { pushingA with pc := Function.update pushingA.pc .a .pushed, s := ['!'] }

theorem reach_pushedA : Reachable pushedA := by
  have s1 : Step init storedA := Step.store .a rfl
  have s2 : Step storedA pushingA :=
    Step.load .a (v := false) rfl (Load.read (m := ⟨false, ⊥⟩) ⟨by decide, rfl⟩)
  have s3 : Step pushingA pushedA := Step.push .a rfl
  exact ((ReflTransGen.single s1).tail s2).tail s3

theorem touches_s_alone_pushedA :
    Reachable pushedA ∧ pushedA.s = ['!'] ∧
      (¬ ((pushedA.pc .a).touches ∧ (pushedA.pc .b).touches) ∧ pushedA.s.length ≤ 1) :=
  ⟨reach_pushedA, rfl, touches_s_alone pushedA reach_pushedA⟩

end SequentiallyConsistent
