import Mathlib.Logic.Relation

/-! # Lockstep simulation — machines that read the same inputs

    A deterministic machine reads one input at a time and either stops, for
    a reason, or moves to a new state and shows one observation.  Two
    machines agree on a run when they show the same observations, one per
    input read, and stop for the same reason or end in related states.

    `run_agree` turns agreement of single steps from related states into
    agreement of whole runs, as long as a guard holds of the states the first
    machine passes through.  `RunAgree.symm` and `RunAgree.trans` compose two
    simulations of one machine into an agreement between the other two: two
    implementations that both simulate one specification agree with each
    other.  Nothing here names a particular machine. -/

namespace Lockstep

variable {σ τ υ ι ω ε α β γ : Type}

/-- A machine over states `σ`, reading inputs `ι`, showing `ω`, stopping with `ε`. -/
abbrev Machine (σ ι ω ε : Type) := σ → ι → Except ε (σ × ω)

/-- The observations of a run, one per input read before it stopped, and how
    it ended: the final state, or why it stopped. -/
def run (m : Machine σ ι ω ε) : σ → List ι → List ω × Except ε σ
  | s, [] => ([], .ok s)
  | s, i :: is =>
      match m s i with
      | .error e => ([], .error e)
      | .ok (s', o) => (o :: (run m s' is).1, (run m s' is).2)

@[simp] theorem run_nil (m : Machine σ ι ω ε) (s : σ) : run m s [] = ([], .ok s) := rfl

theorem run_cons_error {m : Machine σ ι ω ε} {s : σ} {i : ι} {e : ε} (is : List ι)
    (h : m s i = .error e) : run m s (i :: is) = ([], .error e) := by
  simp only [run, h]

theorem run_cons_ok {m : Machine σ ι ω ε} {s s' : σ} {i : ι} {o : ω} (is : List ι)
    (h : m s i = .ok (s', o)) :
    run m s (i :: is) = (o :: (run m s' is).1, (run m s' is).2) := by
  simp only [run, h]

/-- `P` holds of every state the run passes through. -/
def Always (m : Machine σ ι ω ε) (P : σ → Prop) : σ → List ι → Prop
  | s, [] => P s
  | s, i :: is => P s ∧ ∀ s' o, m s i = .ok (s', o) → Always m P s' is

/-- A run over no input. -/
theorem Always.nil {m : Machine σ ι ω ε} {P : σ → Prop} {s : σ} (hP : P s) : Always m P s [] :=
  hP

/-- A run that passes one step and goes on. -/
theorem Always.cons {m : Machine σ ι ω ε} {P : σ → Prop} {s s' : σ} {i : ι} {o : ω}
    {is : List ι} (hP : P s) (hm : m s i = .ok (s', o)) (h : Always m P s' is) :
    Always m P s (i :: is) := by
  refine ⟨hP, ?_⟩
  intro s'' o' h'
  rw [hm] at h'
  cases h'
  exact h

/-! ## Agreement of results -/

/-- Two results agree: both stopped for the same reason, or both went on, to
    related values. -/
def Agree (R : α → β → Prop) : Except ε α → Except ε β → Prop
  | .error e, .error e' => e = e'
  | .ok a, .ok b => R a b
  | _, _ => False

variable {R : α → β → Prop} {S : β → γ → Prop}

@[simp] theorem agree_error_error {e e' : ε} :
    Agree R (.error e : Except ε α) (.error e') ↔ e = e' := Iff.rfl

@[simp] theorem agree_ok_ok {a : α} {b : β} :
    Agree R (.ok a : Except ε α) (.ok b : Except ε β) ↔ R a b := Iff.rfl

@[simp] theorem not_agree_error_ok {e : ε} {b : β} :
    ¬ Agree R (.error e : Except ε α) (.ok b) := id

@[simp] theorem not_agree_ok_error {a : α} {e : ε} :
    ¬ Agree R (.ok a) (.error e : Except ε β) := id

theorem Agree.imp {R' : α → β → Prop} (hR : ∀ a b, R a b → R' a b) :
    ∀ {x : Except ε α} {y : Except ε β}, Agree R x y → Agree R' x y
  | .error _, .error _, h => h
  | .ok a, .ok b, h => hR a b h

theorem Agree.symm : ∀ {x : Except ε α} {y : Except ε β}, Agree R x y → Agree (flip R) y x
  | .error _, .error _, h => Eq.symm h
  | .ok _, .ok _, h => h

theorem Agree.trans :
    ∀ {x : Except ε α} {y : Except ε β} {z : Except ε γ},
      Agree R x y → Agree S y z → Agree (Relation.Comp R S) x z
  | .error _, .error _, .error _, h, h' => Eq.trans h h'
  | .ok _, .ok b, .ok _, h, h' => ⟨b, h, h'⟩

/-- Two runs agree: the same observations, and the same stop or related final
    states. -/
def RunAgree (R : α → β → Prop) (r : List ω × Except ε α) (r' : List ω × Except ε β) : Prop :=
  r.1 = r'.1 ∧ Agree R r.2 r'.2

theorem RunAgree.symm {r : List ω × Except ε α} {r' : List ω × Except ε β}
    (h : RunAgree R r r') : RunAgree (flip R) r' r :=
  ⟨h.1.symm, h.2.symm⟩

theorem RunAgree.trans {r : List ω × Except ε α} {r' : List ω × Except ε β}
    {r'' : List ω × Except ε γ} (h : RunAgree R r r') (h' : RunAgree S r' r'') :
    RunAgree (Relation.Comp R S) r r'' :=
  ⟨h.1.trans h'.1, h.2.trans h'.2⟩

/-! ## Lockstep simulation -/

/-- From related states in which `P` holds, both machines stop for the same
    reason or show the same observation and stay related. -/
def Simulates (P : σ → Prop) (R : σ → τ → Prop) (m : Machine σ ι ω ε)
    (m' : Machine τ ι ω ε) : Prop :=
  ∀ s t i, P s → R s t → Agree (fun p q => p.2 = q.2 ∧ R p.1 q.1) (m s i) (m' t i)

/-- **LOCKSTEP SIMULATION.** Runs over the same inputs from related states
    agree, as long as `P` holds of every state the first run passes through. -/
theorem run_agree {P : σ → Prop} {R : σ → τ → Prop} {m : Machine σ ι ω ε}
    {m' : Machine τ ι ω ε} (hsim : Simulates P R m m') :
    ∀ (is : List ι) {s : σ} {t : τ}, R s t → Always m P s is →
      RunAgree R (run m s is) (run m' t is) := by
  intro is
  induction is with
  | nil =>
      intro s t hR _
      exact ⟨rfl, hR⟩
  | cons i is ih =>
      intro s t hR hA
      have hs := hsim s t i hA.1 hR
      -- the two machines take the step in lockstep: both stop, or both go on
      cases hm : m s i with
      | error e =>
          cases hm' : m' t i with
          | error e' =>
              rw [hm, hm'] at hs
              rw [run_cons_error is hm, run_cons_error is hm']
              exact ⟨rfl, hs⟩
          | ok q =>
              rw [hm, hm'] at hs
              exact absurd hs not_agree_error_ok
      | ok p =>
          obtain ⟨s', o⟩ := p
          cases hm' : m' t i with
          | error e' =>
              rw [hm, hm'] at hs
              exact absurd hs not_agree_ok_error
          | ok q =>
              obtain ⟨t', o'⟩ := q
              rw [hm, hm'] at hs
              obtain ⟨ho, hR'⟩ : o = o' ∧ R s' t' := hs
              have hrest := ih hR' (hA.2 s' o hm)
              rw [run_cons_ok is hm, run_cons_ok is hm', ho]
              exact ⟨congrArg (o' :: ·) hrest.1, hrest.2⟩

end Lockstep
