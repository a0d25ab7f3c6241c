import AtomicsAndLocks.Memory.Views

/-! # A stop flag (02-01-01_stop-flag.rs)

    A background thread calls `some_work()` while `STOP.load(Relaxed)` is
    false.  `main` reads lines from standard input: `help` prints the
    commands, `stop` breaks the loop, anything else is an unknown command;
    the loop also ends when the input does.  Then `main` stores true to
    `STOP` (`Relaxed`) and joins the background thread.  The input is any
    list of lines.

    Everything `main` printed is the reply to a line it read, in order;
    `main` leaves its loop at the first `stop` or at the end of the input;
    and the background thread returns only once `main` has left the loop
    and stored true (`stops_after_stop`). -/

namespace StopFlag

open Views Relation

/-- `STOP`. -/
inductive Loc
  | stop
  deriving DecidableEq

/-- The `match` of `main`'s loop: what it prints for a line, or `none` for
    `stop`, which breaks the loop. -/
def command (line : String) : Option String :=
  match line with
  | "help" => some "commands: help, stop"
  | "stop" => none
  | cmd => some ("unknown command: " ++ cmd)

/-- `main`, by the statement that is next. -/
inductive Main
  /-- The `for` loop with the lines `rest` still to read. -/
  | reading (rest : List String)
  /-- `STOP.store(true, Relaxed)` -/
  | storing
  /-- `background_thread.join().unwrap()` -/
  | joining
  | done
  deriving DecidableEq

/-- The background thread: looping, or returned. -/
inductive Background
  /-- `while !STOP.load(Relaxed)`, with `some_work()` after each false. -/
  | looping
  | returned
  deriving DecidableEq

structure Conf where
  mem : Memory Loc Bool
  main : Main
  mview : TView Loc
  background : Background
  bview : TView Loc
  /-- The lines `main` read and did not break on: a ghost. -/
  consumed : List String
  /-- What `main` printed: a ghost. -/
  printed : List String

inductive Step : Conf → Conf → Prop
  /-- A line that `main` answers. -/
  | reply {c : Conf} {line reply : String} {rest : List String}
      (h : c.main = .reading (line :: rest)) (hc : command line = some reply) :
      Step c { c with main := .reading rest, consumed := c.consumed ++ [line],
                      printed := c.printed ++ [reply] }
  /-- `"stop" => break` -/
  | stop {c : Conf} {rest : List String} (h : c.main = .reading ("stop" :: rest)) :
      Step c { c with main := .storing }
  /-- The input ends. -/
  | eof {c : Conf} (h : c.main = .reading []) : Step c { c with main := .storing }
  | store {c : Conf} (h : c.main = .storing) :
      Step c { c with mem := c.mem.store c.mview .relaxed .stop true, main := .joining,
                      mview := c.mview.write .stop (c.mem .stop).length }
  | join {c : Conf} (h : c.main = .joining) (hb : c.background = .returned) :
      Step c { c with main := .done }
  /-- `STOP` read false: `some_work()` and the loop again. -/
  | work {c : Conf} {T : TView Loc} (h : c.background = .looping)
      (hl : Load .relaxed .stop c.bview c.mem false T) : Step c { c with bview := T }
  | finish {c : Conf} {T : TView Loc} (h : c.background = .looping)
      (hl : Load .relaxed .stop c.bview c.mem true T) :
      Step c { c with background := .returned, bview := T }

/-- `STOP` false, `main` about to read `input`. -/
def init (input : List String) : Conf :=
  ⟨Memory.init fun _ => false, .reading input, TView.init, .looping, TView.init, [], []⟩

def Reachable (input : List String) (c : Conf) : Prop := ReflTransGen Step (init input) c

/-! ## The invariant -/

/-- The lines of the input `main` has not read: all of them while it
    reads, none it cares about once it has left the loop. -/
def Main.rest : Main → Option (List String)
  | .reading rest => some rest
  | _ => none

/-- Whether `main` has stored true. -/
def Main.stored : Main → Bool
  | .joining | .done => true
  | _ => false

structure Inv (input : List String) (c : Conf) : Prop where
  /-- While `main` reads, the lines read and those left make up the input. -/
  reading : ∀ rest, c.main = .reading rest → input = c.consumed ++ rest
  /-- Out of the loop, `main` read the lines before the first `stop`. -/
  left : c.main.rest = none → c.consumed = input.takeWhile (fun l => l != "stop")
  no_stop : "stop" ∉ c.consumed
  printed_eq : c.printed = c.consumed.filterMap command
  mem_eq : (c.mem .stop).map Msg.val = if c.main.stored then [false, true] else [false]
  /-- The background thread returns only after reading the true. -/
  returned : c.background = .returned → c.main.stored = true

theorem inv_init (input : List String) : Inv input (init input) where
  reading rest h := by
    cases h
    rfl
  left h := by cases h
  no_stop := List.not_mem_nil
  printed_eq := rfl
  mem_eq := rfl
  returned h := by cases h

/-- While `main` reads, the background thread is still looping. -/
theorem Inv.looping {input : List String} {c : Conf} (h : Inv input c) {rest : List String}
    (hm : c.main = .reading rest) : c.background = .looping := by
  cases hb : c.background with
  | looping => rfl
  | returned =>
      have := h.returned hb
      rw [hm] at this
      cases this

/-- What `main` read when the loop ended with `rest` unread: everything
    before the first `stop`. -/
theorem Inv.consumed_of_break {input : List String} {c : Conf} (h : Inv input c)
    {rest : List String} (hm : c.main = .reading rest)
    (hr : rest = [] ∨ ∃ rest', rest = "stop" :: rest') :
    c.consumed = input.takeWhile (fun l => l != "stop") := by
  -- no line read is `stop`, so the first `stop` is in `rest` if anywhere
  have hall : ∀ l ∈ c.consumed, (l != "stop") = true := by
    intro l hl
    have hne : l ≠ "stop" := fun he => h.no_stop (he ▸ hl)
    simpa using hne
  rw [h.reading rest hm, List.takeWhile_append_of_pos hall]
  rcases hr with rfl | ⟨rest', rfl⟩
  · simp
  · simp

theorem inv_step {input : List String} {c c' : Conf} (h : Inv input c) (hs : Step c c') :
    Inv input c' := by
  cases hs with
  | @reply line reply rest hm hc =>
      have hne : line ≠ "stop" := by
        intro he
        rw [he] at hc
        cases hc
      refine ⟨fun r hr => ?_, by simp [Main.rest], ?_, ?_, ?_, ?_⟩
      · cases hr
        rw [h.reading _ hm, List.append_assoc]
        rfl
      · intro hl
        rcases List.mem_append.mp hl with hl | hl
        · exact h.no_stop hl
        · exact hne (List.mem_singleton.mp hl).symm
      · rw [h.printed_eq, List.filterMap_append]
        simp [hc]
      · rw [h.mem_eq, hm]
        rfl
      · intro hb
        cases (h.looping hm).symm.trans hb
  | @stop rest hm =>
      refine { h with reading := by simp, left := fun _ => h.consumed_of_break hm (.inr ⟨rest, rfl⟩),
                      mem_eq := ?_, returned := fun hb => ?_ }
      · rw [h.mem_eq, hm]
        rfl
      · cases (h.looping hm).symm.trans hb
  | eof hm =>
      refine { h with reading := by simp, left := fun _ => h.consumed_of_break hm (.inl rfl),
                      mem_eq := ?_, returned := fun hb => ?_ }
      · rw [h.mem_eq, hm]
        rfl
      · cases (h.looping hm).symm.trans hb
  | store hm =>
      refine { h with reading := by simp, left := fun _ => h.left (by rw [hm]; rfl),
                      mem_eq := ?_, returned := fun _ => rfl }
      have hmem : (c.mem .stop).map Msg.val = [false] := by
        have := h.mem_eq
        rw [hm] at this
        exact this
      show ((c.mem.store c.mview .relaxed .stop true) .stop).map Msg.val = [false, true]
      rw [Memory.store_self, List.map_append, hmem]
      rfl
  | join hm hb =>
      refine { h with reading := by simp, left := fun _ => h.left (by rw [hm]; rfl),
                      mem_eq := ?_, returned := fun _ => rfl }
      rw [h.mem_eq, hm]
      rfl
  | work hb hl => exact { h with }
  | @finish T hb hl =>
      -- the true read is `main`'s store
      have hv := hl.mem_map
      refine { h with returned := fun _ => ?_ }
      rw [h.mem_eq] at hv
      cases hs : c.main.stored
      · rw [hs] at hv
        simp at hv
      · rfl

theorem inv_reachable {input : List String} {c : Conf} (hr : Reachable input c) : Inv input c := by
  induction hr with
  | refl => exact inv_init input
  | tail _ hs ih => exact inv_step ih hs

/-- For any input, in every run: `main` printed the replies to the lines
    it read, in order, and read none that is `stop`; once out of its loop it
    has read exactly the lines before the first `stop`; and the background
    thread returns only after `main` has left the loop and stored true. -/
theorem stops_after_stop (input : List String) (c : Conf) (hr : Reachable input c) :
    c.printed = c.consumed.filterMap command ∧ "stop" ∉ c.consumed ∧
      (c.main.rest = none → c.consumed = input.takeWhile (fun l => l != "stop")) ∧
      (c.background = .returned →
        c.main.rest = none ∧ (c.mem .stop).map Msg.val = [false, true]) := by
  have h := inv_reachable hr
  refine ⟨h.printed_eq, h.no_stop, h.left, fun hb => ?_⟩
  have hs := h.returned hb
  refine ⟨?_, by rw [h.mem_eq, hs]; rfl⟩
  cases hm : c.main with
  | reading rest =>
      rw [hm] at hs
      cases hs
  | storing | joining | done => rfl

/-- The input `help`, `stop`, `x`: `main` answered the `help`, broke on the
    `stop` and stored true; the background thread read it and returned, and
    `main` joined it. -/
def stoppedAfterHelp : Conf :=
  ⟨(Memory.init fun _ => false).store TView.init .relaxed .stop true, .done,
    TView.init.write .stop 1, .returned,
    TView.init.read .relaxed .stop 1 (TView.init.released .relaxed .stop 1 ⊥),
    ["help"], ["commands: help, stop"]⟩

theorem reach_stoppedAfterHelp : Reachable ["help", "stop", "x"] stoppedAfterHelp := by
  have run := ((ReflTransGen.single (Step.reply (c := init ["help", "stop", "x"]) rfl rfl)).tail
    (Step.stop rfl)).tail (Step.store rfl)
  -- the background thread, knowing only the initial false, may read the true
  have hr : Reads TView.init ((Memory.init fun _ => false).store TView.init .relaxed Loc.stop true)
      Loc.stop 1 ⟨true, TView.init.released .relaxed Loc.stop 1 ⊥⟩ := ⟨Nat.zero_le 1, rfl⟩
  exact (run.tail (Step.finish rfl (Load.read hr))).tail (Step.join rfl rfl)

theorem stops_after_stop_stoppedAfterHelp :
    Reachable ["help", "stop", "x"] stoppedAfterHelp ∧
      stoppedAfterHelp.printed = ["commands: help, stop"] ∧
      (stoppedAfterHelp.printed = stoppedAfterHelp.consumed.filterMap command ∧
        "stop" ∉ stoppedAfterHelp.consumed ∧
        (stoppedAfterHelp.main.rest = none →
          stoppedAfterHelp.consumed = ["help", "stop", "x"].takeWhile (fun l => l != "stop")) ∧
        (stoppedAfterHelp.background = .returned →
          stoppedAfterHelp.main.rest = none ∧
            (stoppedAfterHelp.mem .stop).map Msg.val = [false, true])) :=
  ⟨reach_stoppedAfterHelp, rfl,
    stops_after_stop ["help", "stop", "x"] stoppedAfterHelp reach_stoppedAfterHelp⟩

end StopFlag
