import Mathlib
import AtomicsAndLocks.Interleaving
import AtomicsAndLocks.Memory.Views

/-! # Relaxed ordering (03-04_relaxed-ordering.rs, 03-04_relaxed-ordering2.rs)

    Both programs have a thread `b` that loads `X` four times (`Relaxed`)
    and prints the four values, and threads that add to `X` with
    `fetch_add(_, Relaxed)`: in `03-04_relaxed-ordering.rs` one thread `a`
    adds 5 and then 10, in `03-04_relaxed-ordering2.rs` `a2` adds 10 and `a1`
    adds 5.  The sleeps between the operations change no state and are left
    out.  `X` is an `AtomicI32`, so each `fetch_add` wraps (`wrappingAdd`).

    A `fetch_add` reads the latest write of `X` and writes right after it
    (`Update`), so `X`'s writes are the running wrapped sums of the
    additions, in the order the `fetch_add`s ran (`Inv.vals`), and while the
    additions stay within `i32` none is lost (`fetch_adds_lose_nothing`).  `b`'s view only grows, so its loads read
    writes in modification order (`loads_follow_modification_order`).  In
    `03-04_relaxed-ordering.rs` that order is `0 5 15`, which `b` can only
    see forwards (`prints_in_modification_order`); in
    `03-04_relaxed-ordering2.rs` it is `0 5 15` or `0 10 15`, so `b` never
    sees both 5 and 10 (`never_sees_five_and_ten`). -/

namespace Relaxed

open Views Interleaving Relation

/-- `X`. -/
inductive Loc
  | x
  deriving DecidableEq

/-- `i32`'s addition as an atomic `fetch_add` makes it: wrapping, the sum
    taken into `-2 ^ 31 ..< 2 ^ 31` modulo `2 ^ 32`. -/
def wrappingAdd (a d : Int) : Int := Int.bmod (a + d) (2 ^ 32)

/-- A sum within `i32` does not wrap. -/
theorem wrappingAdd_of_natAbs_lt {a d : Int} (h : (a + d).natAbs < 2 ^ 31) :
    wrappingAdd a d = a + d := by
  rw [wrappingAdd, Int.bmod_def]
  split <;> omega

/-- Additions that, with the start, stay below `2 ^ 31` in magnitude sum
    without wrapping. -/
theorem foldl_wrappingAdd (l : List Int) {a : Int}
    (h : a.natAbs + (l.map Int.natAbs).sum < 2 ^ 31) : l.foldl wrappingAdd a = a + l.sum := by
  induction l generalizing a with
  | nil => simp
  | cons d l ih =>
      rw [List.map_cons, List.sum_cons] at h
      have hd : wrappingAdd a d = a + d := wrappingAdd_of_natAbs_lt (by omega)
      rw [List.foldl_cons, hd, ih (by omega), List.sum_cons, Int.add_assoc]

structure Shared where
  mem : Memory Loc Int
  /-- The additions of the `fetch_add`s that ran, in modification order: a ghost. -/
  added : List Int

inductive Thread
  /-- A thread that adds to `X`: the additions its `fetch_add`s made (a
      ghost) and those it has still to make, in program order. -/
  | adder (done todo : List Int) (T : TView Loc)
  /-- `b`, with the values its loads returned. -/
  | loader (reads : List Int) (T : TView Loc)
  /-- `b` after `println!("{a}, {b}, {c}, {d}")`. -/
  | printed (reads : List Int)

inductive Act : Shared → Thread → Shared → Thread → Prop
  /-- `X.fetch_add(d, Relaxed)`. -/
  | fetchAdd {sh : Shared} {done ds : List Int} {d v : Int} {T T' : TView Loc}
      {M : Memory Loc Int} (hu : Update .relaxed .x (wrappingAdd · d) T sh.mem v T' M) :
      Act sh (.adder done (d :: ds) T) ⟨M, sh.added ++ [d]⟩ (.adder (done ++ [d]) ds T')
  /-- One of the four `X.load(Relaxed)`. -/
  | load {sh : Shared} {rs : List Int} {v : Int} {T T' : TView Loc} (h : rs.length < 4)
      (hl : Load .relaxed .x T sh.mem v T') : Act sh (.loader rs T) sh (.loader (rs ++ [v]) T')
  | print {sh : Shared} {rs : List Int} {T : TView Loc} (h : rs.length = 4) :
      Act sh (.loader rs T) sh (.printed rs)

abbrev Conf := Interleaving.Conf Shared Thread

abbrev Step : Conf → Conf → Prop := Interleaving.Step Act noHandOff

/-- `X` 0, `b` spawned, and one thread for each list of additions in `ws`. -/
def init (ws : List (List Int)) : Conf :=
  ⟨⟨Memory.init fun _ => 0, []⟩,
    .loader [] TView.init ::ₘ ↑(ws.map fun w => Thread.adder [] w TView.init)⟩

def Reachable (ws : List (List Int)) (c : Conf) : Prop := ReflTransGen Step (init ws) c

/-- `03-04_relaxed-ordering.rs`: `a` adds 5, then 10. -/
def relaxedOrdering : List (List Int) := [[5, 10]]

/-- `03-04_relaxed-ordering2.rs`: `a2` adds 10, `a1` adds 5. -/
def relaxedOrdering2 : List (List Int) := [[10], [5]]

/-! ## What the threads did and have to do -/

def Thread.done : Thread → List Int
  | .adder done _ _ => done
  | _ => []

def Thread.todo : Thread → List Int
  | .adder _ todo _ => todo
  | _ => []

def Thread.reads : Thread → List Int
  | .loader rs _ | .printed rs => rs
  | .adder _ _ _ => []

/-- The additions the threads made. -/
def dones (m : Multiset Thread) : Multiset Int := m.bind fun t => ↑t.done

/-- The additions the threads have still to make. -/
def todos (m : Multiset Thread) : Multiset Int := m.bind fun t => ↑t.todo

@[simp] theorem dones_cons (t : Thread) (m : Multiset Thread) :
    dones (t ::ₘ m) = ↑t.done + dones m := Multiset.cons_bind _ _ _

@[simp] theorem todos_cons (t : Thread) (m : Multiset Thread) :
    todos (t ::ₘ m) = ↑t.todo + todos m := Multiset.cons_bind _ _ _

theorem todos_adders (ws : List (List Int)) (T : TView Loc) :
    todos ↑(ws.map fun w => Thread.adder [] w T) = ↑ws.flatten := by
  induction ws with
  | nil => rfl
  | cons w ws ih =>
      rw [List.map_cons, ← Multiset.cons_coe, todos_cons, ih, List.flatten_cons, Multiset.coe_add]
      rfl

theorem dones_adders (ws : List (List Int)) (T : TView Loc) :
    dones ↑(ws.map fun w => Thread.adder [] w T) = 0 := by
  induction ws with
  | nil => rfl
  | cons w ws ih => rw [List.map_cons, ← Multiset.cons_coe, dones_cons, ih]; rfl

/-! ## Reads at timestamps -/

/-- `rs` are the values of `X`'s writes `vals` at the timestamps `tss`,
    which never decrease. -/
def ReadsAt (vals rs : List Int) (tss : List Nat) : Prop :=
  tss.Pairwise (· ≤ ·) ∧ (∀ i ∈ tss, i < vals.length) ∧ rs = tss.map (vals.getD · 0)

/-- Later writes change no value at a timestamp read. -/
theorem ReadsAt.grow {vals vals' rs : List Int} {tss : List Nat} (hp : vals <+: vals')
    (h : ReadsAt vals rs tss) : ReadsAt vals' rs tss := by
  obtain ⟨rest, rfl⟩ := hp
  obtain ⟨hs, hb, hr⟩ := h
  refine ⟨hs, fun i hi => ?_, ?_⟩
  · rw [List.length_append]
    exact Nat.lt_of_lt_of_le (hb i hi) (Nat.le_add_right _ _)
  · rw [hr]
    exact List.map_congr_left fun i hi => (List.getD_append _ _ _ i (hb i hi)).symm

/-- One more read, at a timestamp no older than those before. -/
theorem ReadsAt.snoc {vals rs : List Int} {tss : List Nat} {ts : Nat} (h : ReadsAt vals rs tss)
    (hts : ts < vals.length) (hle : ∀ i ∈ tss, i ≤ ts) :
    ReadsAt vals (rs ++ [vals.getD ts 0]) (tss ++ [ts]) := by
  obtain ⟨hs, hb, hr⟩ := h
  refine ⟨List.pairwise_append.mpr ⟨hs, List.pairwise_singleton _ _, ?_⟩, ?_, by simp [hr]⟩
  · intro i hi j hj
    rw [List.mem_singleton] at hj
    rw [hj]
    exact hle i hi
  · intro i hi
    rcases List.mem_append.mp hi with hi | hi
    · exact hb i hi
    · rw [List.mem_singleton.mp hi]
      exact hts

/-! ## The invariant -/

/-- What each thread keeps true of `X`'s writes `vals` and the log `added`:
    an adder's additions are one program of `ws`, and those it made appear
    in the log in program order; `b`'s view lies within `X`'s writes, and it
    read at timestamps no newer than its view. -/
def Thread.Ok (ws : List (List Int)) (vals added : List Int) : Thread → Prop
  | .adder done todo _ => done ++ todo ∈ ws ∧ done.Sublist added
  | .loader rs T => T.cur .x < vals.length ∧ ∃ tss, ReadsAt vals rs tss ∧ ∀ i ∈ tss, i ≤ T.cur .x
  | .printed rs => rs.length = 4 ∧ ∃ tss, ReadsAt vals rs tss

theorem Thread.Ok.grow {ws : List (List Int)} {vals vals' added added' : List Int} {t : Thread}
    (hv : vals <+: vals') (ha : added.Sublist added') (h : t.Ok ws vals added) :
    t.Ok ws vals' added' := by
  cases t with
  | adder done todo T => exact ⟨h.1, h.2.trans ha⟩
  | loader rs T =>
      obtain ⟨hT, tss, hr, hle⟩ := h
      exact ⟨Nat.lt_of_lt_of_le hT hv.length_le, tss, hr.grow hv, hle⟩
  | printed rs =>
      obtain ⟨hl, tss, hr⟩ := h
      exact ⟨hl, tss, hr.grow hv⟩

structure Inv (ws : List (List Int)) (c : Conf) : Prop where
  /-- `X`'s writes are the running wrapped sums of the additions, from 0. -/
  vals : (c.shared.mem .x).map Msg.val = c.shared.added.scanl wrappingAdd 0
  /-- Each addition is logged or still to make, once. -/
  conserved : ↑c.shared.added + todos c.threads = (↑ws.flatten : Multiset Int)
  /-- Each logged addition was made by a thread. -/
  made : dones c.threads = ↑c.shared.added
  threads : ∀ t ∈ c.threads, t.Ok ws ((c.shared.mem .x).map Msg.val) c.shared.added

theorem inv_init (ws : List (List Int)) : Inv ws (init ws) where
  vals := rfl
  conserved := by
    simp only [init, todos_cons, todos_adders]
    simp [Thread.todo]
  made := by
    simp only [init, dones_cons, dones_adders]
    simp [Thread.done]
  threads := by
    intro t ht
    simp only [init] at ht
    rcases Multiset.mem_cons.mp ht with rfl | ht
    · exact ⟨Nat.zero_lt_one, [], ⟨List.Pairwise.nil, by simp, rfl⟩, by simp⟩
    · obtain ⟨w, hw, rfl⟩ := List.mem_map.mp (Multiset.mem_coe.mp ht)
      exact ⟨by simpa using hw, List.Sublist.slnil⟩

/-! ## One step -/

/-- A `fetch_add` reads the latest write, the running sum of all the
    additions so far, and writes that sum with its own addition. -/
theorem vals_fetchAdd {M M' : Memory Loc Int} {added : List Int} {d v : Int} {T T' : TView Loc}
    (hv : (M .x).map Msg.val = added.scanl wrappingAdd 0)
    (hu : Update .relaxed .x (wrappingAdd · d) T M v T' M') :
    (M' .x).map Msg.val = (added ++ [d]).scanl wrappingAdd 0 := by
  cases hu with
  | @latest m hm =>
      have hlast : m.val = added.foldl wrappingAdd 0 := by
        have := congrArg List.getLast? hv
        rw [List.getLast?_map, hm, List.getLast?_scanl] at this
        simpa using this
      simp [List.scanl_append, hv, hlast]

/-- What a step does to the shared state: `X`'s writes and the log only grow. -/
theorem Act.grows {sh sh' : Shared} {t t' : Thread} (h : Act sh t sh' t') :
    (sh.mem .x).map Msg.val <+: (sh'.mem .x).map Msg.val ∧ sh.added.Sublist sh'.added := by
  cases h with
  | fetchAdd hu =>
      cases hu with
      | latest _ =>
          refine ⟨?_, List.sublist_append_left _ _⟩
          simp only [Memory.append_self, List.map_append]
          exact List.prefix_append _ _
  | load _ _ => exact ⟨List.prefix_refl _, List.Sublist.refl _⟩
  | print _ => exact ⟨List.prefix_refl _, List.Sublist.refl _⟩

/-- A step moves at most one addition from a thread's `todo` to its `done`
    and to the log. -/
theorem Act.moves {sh sh' : Shared} {t t' : Thread} (h : Act sh t sh' t') :
    (↑sh'.added : Multiset Int) + ↑t'.todo = ↑sh.added + ↑t.todo ∧
      (↑t'.done : Multiset Int) + ↑sh.added = ↑t.done + ↑sh'.added := by
  cases h with
  | fetchAdd _ =>
      simp only [Thread.todo, Thread.done, Multiset.coe_add, Multiset.coe_eq_coe]
      constructor
      · simp
      · simpa using List.Perm.append_left _ (List.perm_append_singleton _ _).symm
  | load _ _ => exact ⟨rfl, rfl⟩
  | print _ => exact ⟨rfl, rfl⟩

/-- The thread that steps keeps its part of the invariant. -/
theorem Act.ok {ws : List (List Int)} {sh sh' : Shared} {t t' : Thread} (h : Act sh t sh' t')
    (ht : t.Ok ws ((sh.mem .x).map Msg.val) sh.added) :
    t'.Ok ws ((sh'.mem .x).map Msg.val) sh'.added := by
  cases h with
  | fetchAdd hu =>
      obtain ⟨hw, hs⟩ := ht
      exact ⟨by simpa using hw, hs.append (List.Sublist.refl _)⟩
  | load hlen hl =>
      obtain ⟨hT, tss, hr, hle⟩ := ht
      cases hl with
      | @read ts m hm =>
          -- the load reads at `ts`, no older than its view, which then knows `ts`
          have hts : ts < ((sh.mem .x).map Msg.val).length := by
            rw [List.length_map]
            exact (List.getElem?_eq_some_iff.mp hm.get).1
          have hval : ((sh.mem .x).map Msg.val).getD ts 0 = m.val := by
            simp [List.getD_eq_getElem?_getD, hm.get]
          have hcur := TView.read_cur_self (o := .relaxed) (R := m.view) rfl hm.visible
          refine ⟨by rw [hcur]; exact hts, tss ++ [ts], ?_, ?_⟩
          · rw [← hval]
            exact hr.snoc hts fun i hi => Nat.le_trans (hle i hi) hm.visible
          · intro i hi
            rw [hcur]
            rcases List.mem_append.mp hi with hi | hi
            · exact Nat.le_trans (hle i hi) hm.visible
            · exact Nat.le_of_eq (List.mem_singleton.mp hi)
  | print hlen =>
      obtain ⟨_, tss, hr, _⟩ := ht
      exact ⟨hlen, tss, hr⟩

theorem inv_step {ws : List (List Int)} {c c' : Conf} (h : Inv ws c) (hs : Step c c') :
    Inv ws c' := by
  cases hs with
  | duo rest hh => exact hh.elim
  | @solo sh sh' t t' rest ha =>
      have hg := ha.grows
      have hm := ha.moves
      have hrest : ↑t.done + dones rest = ↑sh.added := by simpa using h.made
      refine ⟨?_, ?_, ?_, ?_⟩
      · cases ha with
        | fetchAdd hu => exact vals_fetchAdd h.vals hu
        | load _ _ => exact h.vals
        | print _ => exact h.vals
      · show ↑sh'.added + todos (t' ::ₘ rest) = _
        rw [todos_cons, ← add_assoc, hm.1, add_assoc, ← todos_cons]
        exact h.conserved
      -- the log grew by what the thread's `done` grew by
      · show dones (t' ::ₘ rest) = ↑sh'.added
        rw [dones_cons]
        apply add_right_cancel (b := (↑sh.added : Multiset Int))
        calc ↑t'.done + dones rest + ↑sh.added
            = ↑t'.done + ↑sh.added + dones rest := add_right_comm _ _ _
          _ = ↑t.done + ↑sh'.added + dones rest := by rw [hm.2]
          _ = ↑sh'.added + (↑t.done + dones rest) := by rw [add_comm (↑t.done : Multiset Int),
                add_assoc]
          _ = ↑sh'.added + ↑sh.added := by rw [hrest]
      · intro u hu
        rcases Multiset.mem_cons.mp hu with rfl | hu
        · exact ha.ok (h.threads t (Multiset.mem_cons_self _ _))
        · exact (h.threads u (Multiset.mem_cons_of_mem hu)).grow hg.1 hg.2

theorem inv_reachable {ws : List (List Int)} {c : Conf} (hr : Reachable ws c) : Inv ws c := by
  induction hr with
  | refl => exact inv_init ws
  | tail _ hs ih => exact inv_step ih hs

/-! ## Runs -/

/-- The view the first `fetch_add` of a run releases. -/
def firstReleased : View Loc := (TView.init.read .relaxed .x 0 ⊥).released .relaxed .x 1 ⊥

/-- An adder made its first addition `d` before any other, and `b` loaded
    the sum; the threads `rest` have not moved. -/
def sawFirst (d : Int) (ds : List Int) (rest : Multiset Thread) : Conf :=
  ⟨⟨(Memory.init fun _ => 0).append .x ⟨wrappingAdd 0 d, firstReleased⟩, [d]⟩,
    .loader [wrappingAdd 0 d] (TView.init.read .relaxed .x 1 firstReleased) ::ₘ
      .adder [d] ds ((TView.init.read .relaxed .x 0 ⊥).write .x 1) ::ₘ rest⟩

theorem reach_sawFirst {ws : List (List Int)} {d : Int} {ds : List Int} {rest : Multiset Thread}
    (hw : (init ws).threads = .adder [] (d :: ds) TView.init ::ₘ .loader [] TView.init ::ₘ rest) :
    Reachable ws (sawFirst d ds rest) := by
  have e : init ws = ⟨⟨Memory.init fun _ => 0, []⟩,
      .adder [] (d :: ds) TView.init ::ₘ .loader [] TView.init ::ₘ rest⟩ := by
    rw [← hw]
    rfl
  -- the `fetch_add` reads the initial 0 and writes its sum with `d` at timestamp 1
  have r1 : ReflTransGen Step (init ws)
      ⟨⟨(Memory.init fun _ => 0).append .x ⟨wrappingAdd 0 d, firstReleased⟩, [d]⟩,
        .adder [d] ds ((TView.init.read .relaxed .x 0 ⊥).write .x 1) ::ₘ
          .loader [] TView.init ::ₘ rest⟩ := by
    rw [e]
    exact reach_solo _ (Act.fetchAdd (Update.latest (m := ⟨0, ⊥⟩) rfl))
  -- then `b`, knowing only the initial write, loads the one at timestamp 1
  have hr : Reads TView.init ((Memory.init fun _ => 0).append .x ⟨wrappingAdd 0 d, firstReleased⟩) .x 1
      ⟨wrappingAdd 0 d, firstReleased⟩ := ⟨Nat.zero_le 1, rfl⟩
  have r2 : ReflTransGen Step
      ⟨⟨(Memory.init fun _ => 0).append .x ⟨wrappingAdd 0 d, firstReleased⟩, [d]⟩,
        .loader [] TView.init ::ₘ .adder [d] ds ((TView.init.read .relaxed .x 0 ⊥).write .x 1) ::ₘ
          rest⟩ (sawFirst d ds rest) :=
    reach_solo _ (Act.load (by decide) (Load.read hr))
  rw [Multiset.cons_swap] at r1
  exact r1.trans r2

/-- `03-04_relaxed-ordering.rs`: `a` added 5, and `b` loaded it. -/
def sawFive : Conf := sawFirst 5 [10] 0

theorem reach_sawFive : Reachable relaxedOrdering sawFive := by
  refine reach_sawFirst ?_
  show Thread.loader [] TView.init ::ₘ Thread.adder [] [5, 10] TView.init ::ₘ 0 = _
  exact Multiset.cons_swap _ _ _

/-- `03-04_relaxed-ordering2.rs`: `a2` added 10 before `a1` added 5, and `b`
    loaded the 10. -/
def sawTen : Conf := sawFirst 10 [] {.adder [] [5] TView.init}

theorem reach_sawTen : Reachable relaxedOrdering2 sawTen := by
  refine reach_sawFirst ?_
  show Thread.loader [] TView.init ::ₘ Thread.adder [] [10] TView.init ::ₘ
    {Thread.adder [] [5] TView.init} = _
  exact Multiset.cons_swap _ _ _

/-! ## What the loads return -/

theorem Inv.readsAt {ws : List (List Int)} {c : Conf} (h : Inv ws c) {t : Thread}
    (ht : t ∈ c.threads) : ∃ tss, ReadsAt ((c.shared.mem .x).map Msg.val) t.reads tss := by
  have hok := h.threads t ht
  cases t with
  | adder done todo T => exact ⟨[], List.Pairwise.nil, by simp, rfl⟩
  | loader rs T =>
      obtain ⟨_, tss, hr, _⟩ := hok
      exact ⟨tss, hr⟩
  | printed rs =>
      obtain ⟨_, tss, hr⟩ := hok
      exact ⟨tss, hr⟩

/-- The additions logged are some of those of the programs, each at most once. -/
theorem Inv.added_subperm {ws : List (List Int)} {c : Conf} (h : Inv ws c) :
    c.shared.added.Subperm ws.flatten := by
  rw [← Multiset.coe_le, ← h.conserved]
  exact Multiset.le_add_right _ _

/-- In every run, each thread's loads of `X` returned values of `X`'s writes
    at timestamps that never decrease: every thread sees `X`'s writes in
    the one modification order. -/
theorem loads_follow_modification_order (ws : List (List Int)) (c : Conf) (hr : Reachable ws c) :
    ∀ t ∈ c.threads, ∃ tss, ReadsAt ((c.shared.mem .x).map Msg.val) t.reads tss :=
  fun _ ht => (inv_reachable hr).readsAt ht

theorem loads_follow_modification_order_sawTen :
    Reachable relaxedOrdering2 sawTen ∧
      ∀ t ∈ sawTen.threads, ∃ tss, ReadsAt ((sawTen.shared.mem .x).map Msg.val) t.reads tss :=
  ⟨reach_sawTen, loads_follow_modification_order relaxedOrdering2 sawTen reach_sawTen⟩

/-- The logged additions are at most all the programs' additions in
    magnitude. -/
theorem Inv.natAbs_added_le {ws : List (List Int)} {c : Conf} (h : Inv ws c) :
    (c.shared.added.map Int.natAbs).sum ≤ (ws.flatten.map Int.natAbs).sum := by
  have hsum := congrArg (fun s => (s.map Int.natAbs).sum) h.conserved
  simp only [Multiset.map_add, Multiset.sum_add, Multiset.map_coe, Multiset.sum_coe] at hsum
  omega

/-- In every run of programs whose additions sum below `2 ^ 31` in
    magnitude, no `fetch_add` wraps, and the latest write of `X` and the
    additions still to make sum to all the additions of the programs: no
    `fetch_add` is lost. -/
theorem fetch_adds_lose_nothing (ws : List (List Int)) (hws : (ws.flatten.map Int.natAbs).sum < 2 ^ 31)
    (c : Conf) (hr : Reachable ws c) :
    ∃ m, (c.shared.mem .x).getLast? = some m ∧
      m.val + (todos c.threads).sum = (ws.map List.sum).sum := by
  have h := inv_reachable hr
  have hlast := congrArg List.getLast? h.vals
  rw [List.getLast?_map, List.getLast?_scanl] at hlast
  obtain ⟨m, hm, hv⟩ := Option.map_eq_some_iff.mp hlast
  refine ⟨m, hm, ?_⟩
  -- so far below `2 ^ 31`, the wrapped running sum is the sum
  have hfits : (0 : Int).natAbs + (c.shared.added.map Int.natAbs).sum < 2 ^ 31 := by
    have := h.natAbs_added_le
    simp only [Int.natAbs_zero, Nat.zero_add]
    omega
  have hsum := congrArg Multiset.sum h.conserved
  rw [Multiset.sum_add, Multiset.sum_coe, Multiset.sum_coe, List.sum_flatten] at hsum
  rw [hv, foldl_wrappingAdd _ hfits, Int.zero_add]
  exact hsum

theorem fetch_adds_lose_nothing_sawTen :
    (relaxedOrdering2.flatten.map Int.natAbs).sum < 2 ^ 31 ∧ Reachable relaxedOrdering2 sawTen ∧
      ∃ m, (sawTen.shared.mem .x).getLast? = some m ∧
        m.val + (todos sawTen.threads).sum = (relaxedOrdering2.map List.sum).sum :=
  have hws : (relaxedOrdering2.flatten.map Int.natAbs).sum < 2 ^ 31 := by decide
  ⟨hws, reach_sawTen, fetch_adds_lose_nothing relaxedOrdering2 hws sawTen reach_sawTen⟩

/-! ## The two programs -/

/-- A list that is a sub-permutation of `[p, q]`, for `p ≠ q`. -/
theorem subperm_pair {a : List Int} {p q : Int} (hpq : p ≠ q) (h : a.Subperm [p, q]) :
    a = [] ∨ a = [p] ∨ a = [q] ∨ a = [p, q] ∨ a = [q, p] := by
  have hmem : ∀ x ∈ a, x = p ∨ x = q := fun x hx => by simpa using h.subset hx
  match a, h.length_le, hmem with
  | [], _, _ => exact .inl rfl
  | [x], _, hm =>
      rcases hm x (by simp) with rfl | rfl <;> simp
  | [x, y], _, hm =>
      -- `[p, p]` and `[q, q]` hold one of them twice
      have hp := h.count_le p
      have hq := h.count_le q
      rcases hm x (by simp) with rfl | rfl <;> rcases hm y (by simp) with rfl | rfl <;>
        simp_all [List.count_cons]

/-- The additions of `03-04_relaxed-ordering.rs` ran in `a`'s program order. -/
theorem Inv.added_prefix {c : Conf} (h : Inv relaxedOrdering c) :
    c.shared.added <+: [5, 10] := by
  -- a logged 10 was made by `a` after its 5, and both are in the log in that order
  have h10 : 10 ∈ c.shared.added → List.Sublist [5, 10] c.shared.added := by
    intro hm
    have hd : (10 : Int) ∈ Relaxed.dones c.threads := by
      rw [h.made]
      exact Multiset.mem_coe.mpr hm
    obtain ⟨t, ht, h10⟩ := Multiset.mem_bind.mp hd
    have hok := h.threads t ht
    cases t with
    | adder done todo T =>
        obtain ⟨hw, hs⟩ := hok
        have hpre : done ∈ ([5, 10] : List Int).inits := by
          rw [List.mem_inits]
          exact ⟨todo, by simpa [relaxedOrdering] using hw⟩
        have hinits : ∀ a ∈ ([5, 10] : List Int).inits, 10 ∈ a → a = [5, 10] := by decide
        have hdone : done = [5, 10] := hinits done hpre h10
        rw [← hdone]
        exact hs
    | loader rs T => simp [Thread.done] at h10
    | printed rs => simp [Thread.done] at h10
  rcases subperm_pair (by decide) h.added_subperm with he | he | he | he | he <;> rw [he] at h10 ⊢
  all_goals first | decide | exact absurd (h10 (by simp)) (by decide)

/-- In every run of `03-04_relaxed-ordering.rs`, the values `b` loads are 0,
    5 or 15 and never decrease: `b` sees `X`'s writes `0 5 15` forwards. -/
theorem prints_in_modification_order (c : Conf) (hr : Reachable relaxedOrdering c) :
    ∀ t ∈ c.threads, t.reads.Pairwise (· ≤ ·) ∧ ∀ v ∈ t.reads, v = 0 ∨ v = 5 ∨ v = 15 := by
  have h := inv_reachable hr
  -- `X`'s writes so far are a prefix of `0 5 15`
  have hvals : (c.shared.mem .x).map Msg.val <+: [0, 5, 15] := by
    rw [h.vals]
    have hi : c.shared.added ∈ ([5, 10] : List Int).inits := (List.mem_inits _ _).mpr h.added_prefix
    revert hi
    generalize c.shared.added = a
    revert a
    decide
  intro t ht
  obtain ⟨tss, hr⟩ := h.readsAt ht
  obtain ⟨hs, hb, hrs⟩ := hr.grow hvals
  have hmono : ∀ i < 3, ∀ j < 3, i ≤ j →
      ([0, 5, 15] : List Int).getD i 0 ≤ ([0, 5, 15] : List Int).getD j 0 := by decide
  have hval : ∀ i < 3, ([0, 5, 15] : List Int).getD i 0 = 0 ∨
      ([0, 5, 15] : List Int).getD i 0 = 5 ∨ ([0, 5, 15] : List Int).getD i 0 = 15 := by decide
  rw [hrs]
  refine ⟨List.pairwise_map.mpr (hs.imp_of_mem fun hi hj hij => hmono _ (hb _ hi) _ (hb _ hj) hij),
    ?_⟩
  intro v hv
  obtain ⟨i, hi, rfl⟩ := List.mem_map.mp hv
  exact hval i (hb i hi)

theorem prints_in_modification_order_sawFive :
    Reachable relaxedOrdering sawFive ∧
      ∀ t ∈ sawFive.threads, t.reads.Pairwise (· ≤ ·) ∧ ∀ v ∈ t.reads, v = 0 ∨ v = 5 ∨ v = 15 :=
  ⟨reach_sawFive, prints_in_modification_order sawFive reach_sawFive⟩

/-- In every run of `03-04_relaxed-ordering2.rs`, no thread's loads return
    both 5 and 10: `X`'s writes are `0 5 15` or `0 10 15`. -/
theorem never_sees_five_and_ten (c : Conf) (hr : Reachable relaxedOrdering2 c) :
    ∀ t ∈ c.threads, ¬ (5 ∈ t.reads ∧ 10 ∈ t.reads) := by
  have h := inv_reachable hr
  intro t ht
  obtain ⟨tss, -, hb, hrs⟩ := h.readsAt ht
  -- every value read is a value of one of `X`'s writes
  have hsub : ∀ v ∈ t.reads, v ∈ (c.shared.mem .x).map Msg.val := by
    intro v hv
    rw [hrs] at hv
    obtain ⟨i, hi, rfl⟩ := List.mem_map.mp hv
    rw [List.getD_eq_getElem _ _ (hb i hi)]
    exact List.getElem_mem _
  rintro ⟨h5, h10⟩
  have h5' := hsub 5 h5
  have h10' := hsub 10 h10
  rw [h.vals] at h5' h10'
  -- the writes are the running sums of one of five orders of the additions
  have horders : ∀ a ∈ ([[], [5], [10], [5, 10], [10, 5]] : List (List Int)),
      ¬ (5 ∈ a.scanl wrappingAdd 0 ∧ 10 ∈ a.scanl wrappingAdd 0) := by decide
  refine horders _ ?_ ⟨h5', h10'⟩
  rcases subperm_pair (by decide) h.added_subperm with he | he | he | he | he <;> simp [he]

theorem never_sees_five_and_ten_sawTen :
    Reachable relaxedOrdering2 sawTen ∧ ∀ t ∈ sawTen.threads, ¬ (5 ∈ t.reads ∧ 10 ∈ t.reads) :=
  ⟨reach_sawTen, never_sees_five_and_ten sawTen reach_sawTen⟩

end Relaxed
