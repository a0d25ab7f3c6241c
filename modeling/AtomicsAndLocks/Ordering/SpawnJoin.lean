import AtomicsAndLocks.Memory.Views

/-! # Spawning and joining (03-03-01_starting-thread-and-joining.rs)

    `main` stores 1 to `X` (`Relaxed`), spawns `f`, stores 2, joins `f`, and
    stores 3; `f` loads `X` (`Relaxed`) and asserts that it read 1 or 2.

    Spawning starts `f` with `main`'s view, which knows the 1; joining waits
    for `f` to return and adds its view to `main`'s.  So `f` can read neither
    the initial 0, which it knows overwritten, nor the 3, which is stored
    only after it returned: neither thread panics (`assert_holds`).  A
    panic of `f` would reach `main` through `t.join().unwrap()`. -/

namespace SpawnJoin

open Views Relation

/-- `X`. -/
inductive Loc
  | x
  deriving DecidableEq

/-- `main`, by the statement that is next. -/
inductive Main
  | store1
  | spawn
  | store2
  | join
  | store3
  | done
  /-- `unwrap` of the `Err` that `join` returned for a panicked `f`. -/
  | panicked

/-- `f`, by the statement that is next. -/
inductive Child
  | unspawned
  | load
  /-- `assert!(x == 1 || x == 2)` for the `x` loaded. -/
  | check (x : Int)
  | returned
  | panicked

structure Conf where
  mem : Memory Loc Int
  main : Main
  mview : TView Loc
  child : Child
  cview : TView Loc

inductive Step : Conf → Conf → Prop
  | store1 {c : Conf} (h : c.main = .store1) :
      Step c { c with mem := c.mem.store c.mview .relaxed .x 1, main := .spawn,
                      mview := c.mview.write .x (c.mem .x).length }
  /-- `thread::spawn(f)`: `f` starts with what `main` knows. -/
  | spawn {c : Conf} (h : c.main = .spawn) :
      Step c { c with main := .store2, child := .load, cview := c.mview }
  | store2 {c : Conf} (h : c.main = .store2) :
      Step c { c with mem := c.mem.store c.mview .relaxed .x 2, main := .join,
                      mview := c.mview.write .x (c.mem .x).length }
  | join {c : Conf} (h : c.main = .join) (hc : c.child = .returned) :
      Step c { c with main := .store3, mview := c.mview.join c.cview }
  | joinErr {c : Conf} (h : c.main = .join) (hc : c.child = .panicked) :
      Step c { c with main := .panicked }
  | store3 {c : Conf} (h : c.main = .store3) :
      Step c { c with mem := c.mem.store c.mview .relaxed .x 3, main := .done,
                      mview := c.mview.write .x (c.mem .x).length }
  | load {c : Conf} {v : Int} {T : TView Loc} (h : c.child = .load)
      (hl : Load .relaxed .x c.cview c.mem v T) : Step c { c with child := .check v, cview := T }
  | pass {c : Conf} {v : Int} (h : c.child = .check v) (hv : (v == 1 || v == 2) = true) :
      Step c { c with child := .returned }
  | fail {c : Conf} {v : Int} (h : c.child = .check v) (hv : (v == 1 || v == 2) = false) :
      Step c { c with child := .panicked }

/-- `X` 0, `main` about to store 1. -/
def init : Conf := ⟨Memory.init fun _ => 0, .store1, TView.init, .unspawned, TView.init⟩

def Reachable (c : Conf) : Prop := ReflTransGen Step init c

/-! ## The invariant -/

/-- The values of `X`'s writes at each point of `main`. -/
def stored : Main → List Int
  | .store1 => [0]
  | .spawn | .store2 => [0, 1]
  | .join | .store3 | .panicked => [0, 1, 2]
  | .done => [0, 1, 2, 3]

structure Inv (c : Conf) : Prop where
  mem_eq : (c.mem .x).map Msg.val = stored c.main
  /-- From its first store on, `main` knows the 1. -/
  mview : c.main ≠ .store1 → 1 ≤ c.mview.cur .x
  unspawned : c.main = .store1 ∨ c.main = .spawn → c.child = .unspawned
  /-- From its spawn on, `f` knows the 1. -/
  cview : c.child ≠ .unspawned → 1 ≤ c.cview.cur .x
  /-- `main` gets past `join` only once `f` returned. -/
  joined : c.main = .store3 ∨ c.main = .done → c.child = .returned
  checked : ∀ v, c.child = .check v → v = 1 ∨ v = 2
  child_ok : c.child ≠ .panicked
  main_ok : c.main ≠ .panicked

theorem inv_init : Inv init where
  mem_eq := rfl
  mview h := absurd rfl h
  unspawned _ := rfl
  cview h := absurd rfl h
  joined h := by rcases h with h | h <;> cases h
  checked v h := by cases h
  child_ok h := by cases h
  main_ok h := by cases h

/-- `f`'s load, knowing the 1 and run before the 3 is stored, reads 1 or 2. -/
theorem load_one_or_two {c : Conf} (h : Inv c) (hc : c.child = .load) {v : Int} {T : TView Loc}
    (hl : Load .relaxed .x c.cview c.mem v T) : v = 1 ∨ v = 2 := by
  have hk : 1 ≤ c.cview.cur .x := h.cview (by rw [hc]; simp)
  -- `main` is between the spawn and the join: the 3 is not stored yet
  have hm : c.main = .store2 ∨ c.main = .join := by
    cases hmain : c.main with
    | store1 | spawn => rw [h.unspawned (by simp [hmain])] at hc; cases hc
    | store3 | done => rw [h.joined (by simp [hmain])] at hc; cases hc
    | store2 | join => simp
    | panicked => exact absurd hmain h.main_ok
  cases hl with
  | @read ts m hr =>
      have hv : m.val ∈ ((c.mem .x).map Msg.val).drop 1 := by
        rw [← List.map_drop]
        exact List.mem_map_of_mem (hr.mem_drop hk)
      rw [h.mem_eq] at hv
      rcases hm with hm | hm <;> simp [hm, stored] at hv <;> omega

/-- `main`'s three stores: each appends its value to `X`'s writes, and none
    takes `main` across the spawn or the join. -/
theorem inv_store {c : Conf} (h : Inv c) (m : Main) (v : Int)
    (hs : stored m = stored c.main ++ [v])
    (hu : m = .store1 ∨ m = .spawn → c.main = .store1 ∨ c.main = .spawn)
    (hj : m = .store3 ∨ m = .done → c.main = .store3 ∨ c.main = .done) (hp : m ≠ .panicked) :
    Inv { c with mem := c.mem.store c.mview .relaxed .x v, main := m,
                 mview := c.mview.write .x (c.mem .x).length } := by
  have hlen : 1 ≤ (c.mem .x).length := by
    have := congrArg List.length h.mem_eq
    rw [List.length_map] at this
    rw [this]
    cases c.main <;> simp [stored]
  refine { h with mem_eq := ?_, mview := fun _ => ?_, unspawned := fun hm => h.unspawned (hu hm),
                  joined := fun hm => h.joined (hj hm), main_ok := hp }
  · simp [h.mem_eq, hs]
  -- the store's own timestamp is at least 1
  · exact Nat.le_trans hlen (by simp [TView.write])

theorem inv_step {c c' : Conf} (h : Inv c) (hs : Step c c') : Inv c' := by
  cases hs with
  | store1 hm => exact inv_store h .spawn 1 (by rw [hm]; rfl) (fun _ => .inl hm) (by simp) (by simp)
  | spawn hm =>
      have hmem := h.mem_eq
      rw [hm] at hmem
      exact { mem_eq := hmem
              mview := fun _ => h.mview (by rw [hm]; simp)
              unspawned := by simp
              -- `f` starts with `main`'s view
              cview := fun _ => h.mview (by rw [hm]; simp)
              joined := by simp
              checked := by simp
              child_ok := by simp
              main_ok := by simp }
  | store2 hm => exact inv_store h .join 2 (by rw [hm]; rfl) (by simp) (by simp) (by simp)
  | join hm hc =>
      have hmem := h.mem_eq
      rw [hm] at hmem
      exact { h with
              mem_eq := hmem
              mview := fun _ => le_sup_of_le_left (h.mview (by rw [hm]; simp))
              unspawned := by simp
              joined := fun _ => hc
              main_ok := by simp }
  | joinErr hm hc => exact absurd hc h.child_ok
  | store3 hm => exact inv_store h .done 3 (by rw [hm]; rfl) (by simp) (fun _ => .inl hm) (by simp)
  | load hc hl =>
      have hk := h.cview (by rw [hc]; simp)
      exact { h with
              unspawned := fun hm => absurd (h.unspawned hm) (by rw [hc]; simp)
              cview := fun _ => Nat.le_trans hk (hl.cur_le Loc.x)
              joined := fun hm => absurd (h.joined hm) (by rw [hc]; simp)
              checked := fun w hw => by
                cases hw
                exact load_one_or_two h hc hl
              child_ok := by simp }
  | pass hc hv =>
      exact { h with
              unspawned := fun hm => absurd (h.unspawned hm) (by rw [hc]; simp)
              cview := fun _ => h.cview (by rw [hc]; simp)
              joined := fun _ => rfl
              checked := by simp
              child_ok := by simp }
  | @fail v hc hv =>
      -- the value checked is 1 or 2, so the assertion cannot fail
      rcases h.checked v hc with rfl | rfl <;> cases hv

theorem inv_reachable {c : Conf} (hr : Reachable c) : Inv c := by
  induction hr with
  | refl => exact inv_init
  | tail _ hs ih => exact inv_step ih hs

/-- In every run, `f`'s assertion holds whenever it is checked, and neither
    `f` nor `main` panics. -/
theorem assert_holds (c : Conf) (hr : Reachable c) :
    (∀ v, c.child = .check v → v = 1 ∨ v = 2) ∧ c.child ≠ .panicked ∧ c.main ≠ .panicked := by
  have h := inv_reachable hr
  exact ⟨h.checked, h.child_ok, h.main_ok⟩

/-- `main` stored 1, spawned `f` and stored 2 before `f` loaded: `f` read
    the 2. -/
def checkTwo : Conf :=
  ⟨(init.mem.store TView.init .relaxed .x 1).store (TView.init.write .x 1) .relaxed .x 2, .join,
    (TView.init.write .x 1).write .x 2, .check 2,
    (TView.init.write .x 1).read .relaxed .x 2 ((TView.init.write .x 1).released .relaxed .x 2 ⊥)⟩

theorem reach_checkTwo : Reachable checkTwo := by
  have run := ((ReflTransGen.single (Step.store1 (c := init) rfl)).tail (Step.spawn rfl)).tail
    (Step.store2 rfl)
  -- `f`'s view knows the 1 at timestamp 1, so it may read the 2 at timestamp 2
  have hr : Reads (TView.init.write .x 1) checkTwo.mem .x 2
      ⟨2, (TView.init.write .x 1).released .relaxed .x 2 ⊥⟩ := ⟨by decide, rfl⟩
  exact run.tail (Step.load rfl (Load.read hr))

theorem assert_holds_checkTwo :
    Reachable checkTwo ∧ checkTwo.child = .check 2 ∧
      ((∀ v, checkTwo.child = .check v → v = 1 ∨ v = 2) ∧ checkTwo.child ≠ .panicked ∧
        checkTwo.main ≠ .panicked) :=
  ⟨reach_checkTwo, rfl, assert_holds checkTwo reach_checkTwo⟩

end SpawnJoin
