import AtomicsAndLocks.Memory.Views

/-! # Release and acquire (03-05_release-acquire-ordering.rs)

    The spawned thread stores 123 to `DATA` (`Relaxed`) and then `true` to
    `READY` (`Release`).  The main thread loads `READY` (`Acquire`) until it
    reads `true`, sleeping and printing "waiting..." in between, and then
    prints `DATA.load(Relaxed)`.  The thread is spawned before either of them
    touches memory, so both start knowing the initial writes only.  Values
    are numbers; `READY`'s `false` and `true` are 0 and 1.

    The release store makes `READY`'s write carry the spawned thread's view,
    which knows the write of 123; the acquiring load that reads it passes
    that knowledge to the main thread, whose relaxed load of `DATA` can then
    read nothing older (`prints_stored_data`). -/

namespace ReleaseAcquire

open Views Relation

inductive Loc
  | data
  | ready
  deriving DecidableEq

/-- The spawned thread. -/
inductive Writer
  /-- `DATA.store(123, Relaxed)` is next. -/
  | start
  /-- `READY.store(true, Release)` is next. -/
  | stored
  | done

/-- The main thread. -/
inductive Main
  /-- `while !READY.load(Acquire)`: the load is next. -/
  | wait
  /-- The loop is over: `DATA.load(Relaxed)` is next. -/
  | read
  /-- `println!` printed `v`. -/
  | printed (v : Nat)

structure Conf where
  mem : Memory Loc Nat
  writer : Writer
  wview : TView Loc
  main : Main
  mview : TView Loc

inductive Step : Conf → Conf → Prop
  | storeData {c : Conf} (h : c.writer = .start) :
      Step c { c with mem := c.mem.store c.wview .relaxed .data 123, writer := .stored,
                      wview := c.wview.write .data (c.mem .data).length }
  | storeReady {c : Conf} (h : c.writer = .stored) :
      Step c { c with mem := c.mem.store c.wview .release .ready 1, writer := .done,
                      wview := c.wview.write .ready (c.mem .ready).length }
  /-- The load reads `false`: sleep, print "waiting..." and load again. -/
  | loadFalse {c : Conf} {T : TView Loc} (h : c.main = .wait)
      (hl : Load .acquire .ready c.mview c.mem 0 T) : Step c { c with mview := T }
  /-- The load reads `true`: the loop is over. -/
  | loadTrue {c : Conf} {T : TView Loc} (h : c.main = .wait)
      (hl : Load .acquire .ready c.mview c.mem 1 T) : Step c { c with main := .read, mview := T }
  | loadData {c : Conf} {v : Nat} {T : TView Loc} (h : c.main = .read)
      (hl : Load .relaxed .data c.mview c.mem v T) :
      Step c { c with main := .printed v, mview := T }

/-- Both locations 0, the spawned thread about to store, the main thread about to load. -/
def init : Conf := ⟨Memory.init fun _ => 0, .start, TView.init, .wait, TView.init⟩

def Reachable (c : Conf) : Prop := ReflTransGen Step init c

/-! ## The invariant -/

/-- The writes to `DATA` and `READY` at each point of the spawned thread:
    `READY`'s `true` releases a view that knows the 123. -/
def Written : Writer → Memory Loc Nat → Prop
  | .start, M => M .data = [⟨0, ⊥⟩] ∧ M .ready = [⟨0, ⊥⟩]
  | .stored, M => (∃ V, M .data = [⟨0, ⊥⟩, ⟨123, V⟩]) ∧ M .ready = [⟨0, ⊥⟩]
  | .done, M => (∃ V, M .data = [⟨0, ⊥⟩, ⟨123, V⟩]) ∧
      ∃ R, M .ready = [⟨0, ⊥⟩, ⟨1, R⟩] ∧ 1 ≤ R .data

structure Inv (c : Conf) : Prop where
  written : Written c.writer c.mem
  /-- The spawned thread knows its own 123. -/
  wview_data : c.writer ≠ .start → 1 ≤ c.wview.cur .data
  /-- Out of the loop, the main thread knows the 123, which is written. -/
  main_read : c.main = .read → c.writer = .done ∧ 1 ≤ c.mview.cur .data
  printed : ∀ v, c.main = .printed v → v = 123

theorem inv_init : Inv init where
  written := ⟨rfl, rfl⟩
  wview_data := fun h => absurd rfl h
  main_read := fun h => by cases h
  printed := fun v h => by cases h

/-- The main thread's loads of `READY`: `true` only once it is written, and
    then with a view that knows the 123. -/
theorem load_ready {c : Conf} (h : Inv c) {v : Nat} {T : TView Loc}
    (hl : Load .acquire .ready c.mview c.mem v T) :
    v = 1 → c.writer = .done ∧ 1 ≤ T.cur .data := by
  intro hv
  cases hl with
  | @read ts m hr =>
      have hw := h.written
      cases hc : c.writer with
      | start =>
          rw [hc] at hw
          rw [(Reads.of_singleton hw.2 hr).2] at hv
          cases hv
      | stored =>
          rw [hc] at hw
          rw [(Reads.of_singleton hw.2 hr).2] at hv
          cases hv
      | done =>
          rw [hc] at hw
          obtain ⟨-, R, hR, hRd⟩ := hw
          rcases Reads.of_pair hR hr with ⟨-, rfl⟩ | ⟨-, rfl⟩
          · cases hv
          -- the acquiring load joins the view `true` released
          · exact ⟨rfl, Nat.le_trans hRd (TView.le_read rfl Loc.data)⟩

/-- The main thread's load of `DATA`, knowing the 123, reads it. -/
theorem load_data {c : Conf} (h : Inv c) (hr : c.main = .read) {v : Nat} {T : TView Loc}
    (hl : Load .relaxed .data c.mview c.mem v T) : v = 123 := by
  obtain ⟨hd, hk⟩ := h.main_read hr
  have hw := h.written
  rw [hd] at hw
  obtain ⟨⟨V, hV⟩, -⟩ := hw
  cases hl with
  | @read ts m hm =>
      rcases Reads.of_pair hV hm with ⟨rfl, -⟩ | ⟨-, rfl⟩
      · exact absurd hm.visible (by omega)
      · rfl

theorem inv_step {c c' : Conf} (h : Inv c) (hs : Step c c') : Inv c' := by
  cases hs with
  | storeData hw =>
      have hW := h.written
      rw [hw] at hW
      obtain ⟨hd, hr⟩ := hW
      refine ⟨⟨⟨c.wview.released .relaxed .data 1 ⊥, by simp [hd]⟩, by simpa using hr⟩,
        fun _ => ?_, fun hm => ?_, h.printed⟩
      -- the thread's view now knows its write at timestamp 1
      · show 1 ≤ max _ _
        simp [hd]
      · exact absurd (h.main_read hm).1 (by rw [hw]; simp)
  | storeReady hw =>
      have hW := h.written
      rw [hw] at hW
      obtain ⟨hd, hr⟩ := hW
      have hk := h.wview_data (by rw [hw]; simp)
      refine ⟨⟨by simpa using hd, c.wview.released .release .ready 1 ⊥, by simp [hr], ?_⟩,
        fun _ => ?_, fun hm => ?_, h.printed⟩
      -- the release store releases the thread's view, which knows the 123
      · exact Nat.le_trans hk (TView.le_released rfl Loc.data)
      · exact Nat.le_trans hk (TView.cur_le_write Loc.data)
      · exact absurd (h.main_read hm).1 (by rw [hw]; simp)
  | loadFalse hm hl =>
      refine ⟨h.written, h.wview_data, fun hr => ?_, fun v hv => ?_⟩
      · rw [hm] at hr
        cases hr
      · rw [hm] at hv
        cases hv
  | loadTrue hm hl =>
      refine ⟨h.written, h.wview_data, fun _ => load_ready h hl rfl, fun v hv => ?_⟩
      cases hv
  | loadData hm hl =>
      refine ⟨h.written, h.wview_data, fun hr => ?_, fun v hv => ?_⟩
      · cases hr
      · cases hv
        exact load_data h hm hl

theorem inv_reachable {c : Conf} (hr : Reachable c) : Inv c := by
  induction hr with
  | refl => exact inv_init
  | tail _ hs ih => exact inv_step ih hs

/-- In every run, what the main thread prints is 123: the relaxed load of
    `DATA` after the acquiring load of `READY` read `true` cannot read the
    initial 0. -/
theorem prints_stored_data (c : Conf) (hr : Reachable c) (v : Nat) (hv : c.main = .printed v) :
    v = 123 :=
  (inv_reachable hr).printed v hv

/-- The spawned thread has stored 123. -/
def storedData : Conf :=
  { init with mem := init.mem.store init.wview .relaxed .data 123, writer := .stored,
              wview := init.wview.write .data (init.mem .data).length }

/-- It has stored `true` too, before the main thread's first load. -/
def stored : Conf :=
  { storedData with mem := storedData.mem.store storedData.wview .release .ready 1,
                    writer := .done,
                    wview := storedData.wview.write .ready (storedData.mem .ready).length }

/-- `READY`'s `true`, with the view it released. -/
def readyTrue : Msg Loc Nat := ⟨1, storedData.wview.released .release .ready 1 ⊥⟩

/-- The write of 123. -/
def data123 : Msg Loc Nat := ⟨123, init.wview.released .relaxed .data 1 ⊥⟩

/-- The main thread's first load has read `true`. -/
def loopDone : Conf :=
  { stored with main := .read, mview := stored.mview.read .acquire .ready 1 readyTrue.view }

/-- The main thread has printed 123. -/
def printedConf : Conf :=
  { loopDone with main := .printed 123,
                  mview := loopDone.mview.read .relaxed .data 1 data123.view }

theorem reach_printedConf : Reachable printedConf := by
  have s1 : Step init storedData := Step.storeData rfl
  have s2 : Step storedData stored := Step.storeReady rfl
  -- the acquiring load reads `true` at timestamp 1, then the 123
  have s3 : Step stored loopDone :=
    Step.loadTrue rfl (Load.read (m := readyTrue) ⟨Nat.zero_le 1, rfl⟩)
  have s4 : Step loopDone printedConf :=
    Step.loadData rfl (Load.read (m := data123) ⟨by decide, rfl⟩)
  exact (((ReflTransGen.single s1).tail s2).tail s3).tail s4

theorem prints_stored_data_printedConf :
    Reachable printedConf ∧ printedConf.main = .printed 123 ∧ 123 = 123 :=
  ⟨reach_printedConf, rfl, prints_stored_data printedConf reach_printedConf 123 rfl⟩

end ReleaseAcquire
