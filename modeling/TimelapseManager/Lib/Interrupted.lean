import Mathlib

/-!
# Programs that are interrupted

A program of atomic steps on a state.  Before any step the process may crash, and any step may
fail, which raises; what a step has done stays done.  `Prog.run` executes a program under faults
that are given for each step it comes to, in turn.

`Triple faults before prog after left` says that from `before`, with no fault so far, the program
ends in `after`, or is in `left` where it is interrupted.  Assertions may speak of the number of
steps that were made.  There is one rule for each construct.
-/

namespace TimelapseManager.Interrupted

inductive Fault
  | fine
  | fails
  | crash
  deriving DecidableEq

inductive Exit
  | ended
  | raised
  | crashed
  deriving DecidableEq

inductive Prog (σ : Type*)
  | skip
  /-- One atomic step; without a next state it raises. -/
  | act (step : σ → Option σ)
  | raise
  | seq (first second : Prog σ)
  | branch (test : σ → Bool) (yes no : Prog σ)
  /-- On an exception of the body the cleanup is run, and the exception raised again. -/
  | protect (body cleanup : Prog σ)

variable {σ : Type*}

/-- The program from a number of steps on: how and in which state it is left, and the number of
steps it has come to. -/
def Prog.run (faults : ℕ → Fault) : Prog σ → ℕ → σ → Exit × σ × ℕ
  | .skip, clock, state => (.ended, state, clock)
  | .raise, clock, state => (.raised, state, clock)
  | .act step, clock, state =>
    match faults clock with
    | .crash => (.crashed, state, clock + 1)
    | .fails => (.raised, state, clock + 1)
    | .fine =>
      match step state with
      | none => (.raised, state, clock + 1)
      | some next => (.ended, next, clock + 1)
  | .seq first second, clock, state =>
    match first.run faults clock state with
    | (.ended, next, later) => second.run faults later next
    | other => other
  | .branch test yes no, clock, state =>
    if test state then yes.run faults clock state else no.run faults clock state
  | .protect body cleanup, clock, state =>
    match body.run faults clock state with
    | (.raised, next, later) =>
      match cleanup.run faults later next with
      | (.ended, last, latest) => (.raised, last, latest)
      | other => other
    | other => other

/-- No step before the one with this number is hit. -/
def FineBefore (faults : ℕ → Fault) (clock : ℕ) : Prop :=
  ∀ step < clock, faults step = .fine

/-- What holds of an outcome: one condition if the program has ended, which it does without a
fault only, another if it was interrupted. -/
def Holds (faults : ℕ → Fault) (after : ℕ → σ → Prop) (left : σ → Prop) : Exit × σ × ℕ → Prop
  | (.ended, state, clock) => FineBefore faults clock ∧ after clock state
  | (.raised, state, _) => left state
  | (.crashed, state, _) => left state

/-- From `before` the program ends in `after` and is otherwise left in `left`. -/
def Triple (faults : ℕ → Fault) (before : ℕ → σ → Prop) (prog : Prog σ) (after : ℕ → σ → Prop)
    (left : σ → Prop) : Prop :=
  ∀ clock state, FineBefore faults clock → before clock state →
    Holds faults after left (prog.run faults clock state)

namespace Triple

variable {faults : ℕ → Fault} {before middle after : ℕ → σ → Prop} {left : σ → Prop}
  {prog first second yes no body cleanup : Prog σ}

theorem skip (hAfter : ∀ clock state, before clock state → after clock state) :
    Triple faults before .skip after left := by
  intro clock state hFine hBefore
  exact ⟨hFine, hAfter clock state hBefore⟩

theorem raise (hLeft : ∀ clock state, before clock state → left state) :
    Triple faults before .raise after left := by
  intro clock state _ hBefore
  exact hLeft clock state hBefore

/-- A step that is hit, or cannot be made, leaves the state as it is. -/
theorem act {step : σ → Option σ}
    (hHit : ∀ clock state, FineBefore faults clock → before clock state → faults clock ≠ .fine →
      left state)
    (hStuck : ∀ clock state, before clock state → step state = none → left state)
    (hAfter : ∀ clock state next, before clock state → step state = some next →
      after (clock + 1) next) :
    Triple faults before (.act step) after left := by
  intro clock state hFine hBefore
  unfold Prog.run
  cases hFault : faults clock with
  | crash | fails => exact hHit clock state hFine hBefore (by rw [hFault]; exact Fault.noConfusion)
  | fine =>
    dsimp only
    cases hStep : step state with
    | none => exact hStuck clock state hBefore hStep
    | some next =>
      refine ⟨?_, hAfter clock state next hBefore hStep⟩
      intro earlier hEarlier
      rcases Nat.lt_succ_iff_lt_or_eq.mp hEarlier with hLt | rfl
      · exact hFine earlier hLt
      · exact hFault

theorem seq (hFirst : Triple faults before first middle left)
    (hSecond : Triple faults middle second after left) :
    Triple faults before (.seq first second) after left := by
  intro clock state hFine hBefore
  have hHolds := hFirst clock state hFine hBefore
  unfold Prog.run
  generalize first.run faults clock state = outcome at hHolds
  obtain ⟨exit, next, later⟩ := outcome
  cases exit with
  | ended => exact hSecond later next hHolds.1 hHolds.2
  | raised | crashed => exact hHolds

theorem branch {choose : σ → Bool}
    (hYes : Triple faults (fun clock state => before clock state ∧ choose state = true) yes after
      left)
    (hNo : Triple faults (fun clock state => before clock state ∧ choose state = false) no after
      left) :
    Triple faults before (.branch choose yes no) after left := by
  intro clock state hFine hBefore
  unfold Prog.run
  cases hTest : choose state with
  | true => exact hYes clock state hFine ⟨hBefore, hTest⟩
  | false => exact hNo clock state hFine ⟨hBefore, hTest⟩

/-- The cleanup is one step, which may be hit as well. -/
theorem protect {step : σ → Option σ} (hBody : Triple faults before body after left)
    (hCleanup : ∀ state next, left state → step state = some next → left next) :
    Triple faults before (.protect body (.act step)) after left := by
  intro clock state hFine hBefore
  have hHolds := hBody clock state hFine hBefore
  unfold Prog.run
  generalize body.run faults clock state = outcome at hHolds
  obtain ⟨exit, next, later⟩ := outcome
  cases exit with
  | ended | crashed => exact hHolds
  | raised =>
    simp only [Prog.run]
    cases faults later with
    | crash | fails => exact hHolds
    | fine =>
      dsimp only
      cases hStep : step next with
      | none => exact hHolds
      | some last => exact hCleanup next last hHolds hStep

/-- Whatever the faults are, the program leaves a state of which one condition holds. -/
theorem everywhere (hTriple : Triple faults before prog after left)
    (hEnd : ∀ clock state, FineBefore faults clock → after clock state → left state) {state : σ}
    (hBefore : before 0 state) : left (prog.run faults 0 state).2.1 := by
  have hHolds := hTriple 0 state (fun _ hStep => absurd hStep (Nat.not_lt_zero _)) hBefore
  generalize prog.run faults 0 state = outcome at hHolds
  obtain ⟨exit, next, clock⟩ := outcome
  cases exit with
  | ended => exact hEnd clock next hHolds.1 hHolds.2
  | raised | crashed => exact hHolds

/-- The rule of consequence. -/
theorem weaken {later : ℕ → σ → Prop} {weaker : σ → Prop}
    (hTriple : Triple faults before prog after left)
    (hLater : ∀ clock state, after clock state → later clock state)
    (hWeaker : ∀ state, left state → weaker state) : Triple faults before prog later weaker := by
  intro clock state hFine hBefore
  have hHolds := hTriple clock state hFine hBefore
  generalize prog.run faults clock state = outcome at hHolds ⊢
  obtain ⟨exit, next, steps⟩ := outcome
  cases exit with
  | ended => exact ⟨hHolds.1, hLater steps next hHolds.2⟩
  | raised | crashed => exact hWeaker next hHolds

end Triple

end TimelapseManager.Interrupted
