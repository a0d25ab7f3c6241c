import Mathlib.Data.List.Range

/-! # Thread parking (01-08-01_thread-parking.rs)

    A consumer thread loops: it pops the front of a `Mutex<VecDeque>`,
    prints the item with `dbg!`, and parks when the queue was empty.  `main`
    is the producer: for `i` in `0..` it pushes `i`, unparks the consumer and
    sleeps a second.  Each `lock().unwrap()` guards one `push_back` or
    `pop_front` in one statement, so each is one atomic step here.

    `thread::park` is std's, as documented: it takes the thread's token and
    returns at once if `unpark` left one, blocks otherwise, and may return
    spuriously; `unpark` wakes the thread if it is blocked and otherwise
    leaves the token.

    The consumer prints `0, 1, 2, …` in order, none lost or repeated
    (`prints_in_order`), and it is never blocked with an item queued unless
    the producer's `unpark` for that item is the producer's next step
    (`consumer_not_stranded`). -/

namespace Parking

open Relation

/-- `main`'s loop, by the statement that is next. -/
inductive Producer
  | push
  | unpark
  deriving DecidableEq

/-- The consumer's loop, by the statement that is next. -/
inductive Consumer
  | pop
  /-- `dbg!(item)` -/
  | print (item : Nat)
  /-- `pop_front` returned `None`: `thread::park()` is next. -/
  | park
  /-- Blocked in `thread::park()`. -/
  | parked
  deriving DecidableEq

structure Conf where
  queue : List Nat
  /-- The items pushed so far: the producer's next `i`. -/
  next : Nat
  producer : Producer
  consumer : Consumer
  /-- The consumer's park token. -/
  token : Bool
  /-- The items `dbg!` printed: a ghost. -/
  printed : List Nat

inductive Step : Conf → Conf → Prop
  /-- `queue.lock().unwrap().push_back(i)` -/
  | push {c : Conf} (h : c.producer = .push) :
      Step c { c with queue := c.queue ++ [c.next], next := c.next + 1, producer := .unpark }
  /-- `t.thread().unpark()` wakes the blocked consumer; the sleep follows. -/
  | unparkParked {c : Conf} (h : c.producer = .unpark) (hc : c.consumer = .parked) :
      Step c { c with producer := .push, consumer := .pop }
  /-- `unpark` of a consumer that is not blocked leaves it the token. -/
  | unpark {c : Conf} (h : c.producer = .unpark) (hc : c.consumer ≠ .parked) :
      Step c { c with producer := .push, token := true }
  /-- `queue.lock().unwrap().pop_front()` returns `Some(item)`. -/
  | popSome {c : Conf} {item : Nat} {q : List Nat} (h : c.consumer = .pop)
      (hq : c.queue = item :: q) : Step c { c with queue := q, consumer := .print item }
  | popNone {c : Conf} (h : c.consumer = .pop) (hq : c.queue = []) :
      Step c { c with consumer := .park }
  | print {c : Conf} {item : Nat} (h : c.consumer = .print item) :
      Step c { c with consumer := .pop, printed := c.printed ++ [item] }
  /-- `park` takes the token and returns at once. -/
  | parkToken {c : Conf} (h : c.consumer = .park) (ht : c.token = true) :
      Step c { c with consumer := .pop, token := false }
  | park {c : Conf} (h : c.consumer = .park) (ht : c.token = false) :
      Step c { c with consumer := .parked }
  /-- `park` returns spuriously. -/
  | spurious {c : Conf} (h : c.consumer = .parked) : Step c { c with consumer := .pop }

def init : Conf := ⟨[], 0, .push, .pop, false, []⟩

def Reachable (c : Conf) : Prop := ReflTransGen Step init c

/-! ## The invariant -/

/-- The item the consumer popped and has not printed yet. -/
def Consumer.holding : Consumer → List Nat
  | .print item => [item]
  | _ => []

structure Inv (c : Conf) : Prop where
  /-- Printed, popped and queued, the items are those pushed, in order. -/
  fifo : c.printed ++ c.consumer.holding ++ c.queue = List.range c.next
  parked_token : c.consumer = .parked → c.token = false
  /-- A consumer about to park or blocked, with an item queued, has the
      token or the producer's `unpark` is next. -/
  covered : c.consumer = .park ∨ c.consumer = .parked → c.queue ≠ [] →
    c.token = true ∨ c.producer = .unpark

theorem inv_init : Inv init where
  fifo := rfl
  parked_token h := by cases h
  covered h := by rcases h with h | h <;> cases h

/-- The items printed and queued, when the consumer holds none. -/
theorem Inv.fifo_of_holding {c : Conf} (h : Inv c) (hc : c.consumer.holding = []) :
    c.printed ++ c.queue = List.range c.next := by
  have hf := h.fifo
  rwa [hc, List.append_nil] at hf

/-- With an empty token, a consumer about to park or blocked has an item
    queued only if the producer's `unpark` is next. -/
theorem Inv.unpark_next {c : Conf} (h : Inv c) (hc : c.consumer = .park ∨ c.consumer = .parked)
    (ht : c.token = false) (hq : c.queue ≠ []) : c.producer = .unpark := by
  rcases h.covered hc hq with ht' | hp
  · rw [ht] at ht'
    cases ht'
  · exact hp

theorem inv_step {c c' : Conf} (h : Inv c) (hs : Step c c') : Inv c' := by
  cases hs with
  | push hp =>
      refine { h with fifo := ?_, covered := fun _ _ => .inr rfl }
      show c.printed ++ c.consumer.holding ++ (c.queue ++ [c.next]) = List.range (c.next + 1)
      rw [← List.append_assoc, h.fifo, List.range_succ]
  | unparkParked hp hc =>
      have hf := h.fifo_of_holding (by rw [hc]; rfl)
      exact ⟨by simpa [Consumer.holding] using hf, by simp, by simp⟩
  | unpark hp hc =>
      exact { h with parked_token := fun hc' => absurd hc' hc, covered := fun _ _ => .inl rfl }
  | @popSome item q hc hq =>
      have hf := h.fifo_of_holding (by rw [hc]; rfl)
      rw [hq] at hf
      refine ⟨?_, by simp, by simp⟩
      simpa [Consumer.holding] using hf
  | popNone hc hq =>
      have hf := h.fifo_of_holding (by rw [hc]; rfl)
      exact ⟨by simpa [Consumer.holding] using hf, by simp, fun _ hq' => absurd hq hq'⟩
  | @print item hc =>
      have hf := h.fifo
      rw [hc] at hf
      refine ⟨?_, by simp, by simp⟩
      simpa [Consumer.holding] using hf
  | parkToken hc ht =>
      have hf := h.fifo_of_holding (by rw [hc]; rfl)
      exact ⟨by simpa [Consumer.holding] using hf, by simp, by simp⟩
  -- blocking on an empty token: an item queued has the producer's `unpark` next
  | park hc ht =>
      have hf := h.fifo_of_holding (by rw [hc]; rfl)
      exact ⟨by simpa [Consumer.holding] using hf, fun _ => ht,
        fun _ hq => .inr (h.unpark_next (.inl hc) ht hq)⟩
  | spurious hc =>
      have hf := h.fifo_of_holding (by rw [hc]; rfl)
      exact ⟨by simpa [Consumer.holding] using hf, by simp, by simp⟩

theorem inv_reachable {c : Conf} (hr : Reachable c) : Inv c := by
  induction hr with
  | refl => exact inv_init
  | tail _ hs ih => exact inv_step ih hs

/-- In every run, the items printed, then the one popped and not printed
    yet, then the queue, are `0, 1, …` up to the last pushed: the consumer
    prints the items in the order pushed, none lost or repeated. -/
theorem prints_in_order (c : Conf) (hr : Reachable c) :
    c.printed ++ c.consumer.holding ++ c.queue = List.range c.next :=
  (inv_reachable hr).fifo

/-- In every run, a consumer blocked in `park` with an item queued has an
    empty token, and the producer's `unpark` is its next step: that
    `unpark` wakes it, so no wake-up is lost. -/
theorem consumer_not_stranded (c : Conf) (hr : Reachable c) (hc : c.consumer = .parked)
    (hq : c.queue ≠ []) : c.token = false ∧ c.producer = .unpark := by
  have h := inv_reachable hr
  have ht := h.parked_token hc
  exact ⟨ht, h.unpark_next (.inr hc) ht hq⟩

/-- The producer pushed 0 and unparked the running consumer, which then
    popped and printed the 0. -/
def printedZero : Conf := ⟨[], 1, .push, .pop, true, [0]⟩

theorem reach_printedZero : Reachable printedZero := by
  have run := (ReflTransGen.single (Step.push (c := init) rfl)).tail (Step.unpark rfl (by decide))
  exact (run.tail (Step.popSome rfl rfl)).tail (Step.print rfl)

theorem prints_in_order_printedZero :
    Reachable printedZero ∧ printedZero.printed = [0] ∧
      printedZero.printed ++ printedZero.consumer.holding ++ printedZero.queue =
        List.range printedZero.next :=
  ⟨reach_printedZero, rfl, prints_in_order printedZero reach_printedZero⟩

/-- The consumer found the queue empty and blocked; then the producer
    pushed 0, and its `unpark` is next. -/
def parkedWithItem : Conf := ⟨[0], 1, .unpark, .parked, false, []⟩

theorem reach_parkedWithItem : Reachable parkedWithItem := by
  have run := (ReflTransGen.single (Step.popNone (c := init) rfl rfl)).tail (Step.park rfl rfl)
  exact run.tail (Step.push rfl)

theorem consumer_not_stranded_parkedWithItem :
    Reachable parkedWithItem ∧ parkedWithItem.consumer = .parked ∧ parkedWithItem.queue ≠ [] ∧
      (parkedWithItem.token = false ∧ parkedWithItem.producer = .unpark) :=
  ⟨reach_parkedWithItem, rfl, by simp [parkedWithItem],
    consumer_not_stranded parkedWithItem reach_parkedWithItem rfl (by simp [parkedWithItem])⟩

end Parking
