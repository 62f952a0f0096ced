import Mathlib

/-!
# Runs of a labelled transition relation

A component is given by a relation `step state label next`.  A *run* is a finite sequence of
labelled steps; its label list is the order in which the parties acted.

* `Run.invariant` is the one induction every safety result goes through.
* `Guarded` restricts a relation to the steps that meet a side condition on the state *before* the
  step.  A result which holds only while some condition is met is a result about the runs of
  `Guarded step good`.
* `Steps` is the relation of a step function that may refuse; `exec` executes labels with it, and
  `Run.of_exec` makes the execution a run.
-/

namespace TimelapseManager.Runs

variable {σ α : Type*}

/-- `Run step start labels stop`: the labelled steps lead from `start` to
`stop`, in the order of the list. -/
inductive Run (step : σ → α → σ → Prop) : σ → List α → σ → Prop
  | nil (state : σ) : Run step state [] state
  | cons {start middle stop : σ} {label : α} {labels : List α}
      (hHead : step start label middle) (hTail : Run step middle labels stop) :
      Run step start (label :: labels) stop

/-- The steps of `step` whose source state and label meet `good`. -/
def Guarded (step : σ → α → σ → Prop) (good : σ → α → Prop) : σ → α → σ → Prop :=
  fun start label stop => step start label stop ∧ good start label

/-- The steps of a step function that may refuse. -/
def Steps (next : σ → α → Option σ) : σ → α → σ → Prop :=
  fun state label after => next state label = some after

variable {start stop : σ} {step : σ → α → σ → Prop} {labels : List α} {good : σ → α → Prop}
  {next : σ → α → Option σ}

theorem Run.append {middle : σ} {first second : List α} (hFirst : Run step start first middle)
    (hSecond : Run step middle second stop) : Run step start (first ++ second) stop := by
  induction hFirst with
  | nil state => exact hSecond
  | cons hHead _ ih => exact Run.cons hHead (ih hSecond)

theorem Run.invariant (Inv : σ → Prop)
    (hStep : ∀ start label stop, Inv start → step start label stop → Inv stop)
    (hRun : Run step start labels stop) (hStart : Inv start) : Inv stop := by
  induction hRun with
  | nil state => exact hStart
  | cons hHead _ ih => exact ih (hStep _ _ _ hStart hHead)

theorem Run.of_guarded (hRun : Run (Guarded step good) start labels stop) :
    Run step start labels stop := by
  induction hRun with
  | nil state => exact Run.nil state
  | cons hHead _ ih => exact Run.cons hHead.1 ih

theorem of_guard {allowed : Prop} [Decidable allowed] {after : σ}
    (hStep : (if allowed then some stop else none) = some after) : allowed ∧ after = stop := by
  obtain ⟨hAllowed, hAfter⟩ := Option.ite_none_right_eq_some.mp hStep
  exact ⟨hAllowed, (Option.some.inj hAfter).symm⟩

/-- Executes a list of labels with a step function that may refuse. -/
def exec (next : σ → α → Option σ) : σ → List α → Option σ
  | state, [] => some state
  | state, label :: labels => (next state label).bind fun middle => exec next middle labels

theorem Run.of_next (hNext : ∀ label ∈ labels, ∀ {state middle},
      next state label = some middle → step state label middle)
    (hExec : exec next start labels = some stop) : Run step start labels stop := by
  induction labels generalizing start with
  | nil =>
    cases hExec
    exact Run.nil _
  | cons label labels ih =>
    obtain ⟨middle, hHead, hRest⟩ := Option.bind_eq_some_iff.mp hExec
    obtain ⟨hLabel, hLabels⟩ := List.forall_mem_cons.mp hNext
    exact Run.cons (hLabel hHead) (ih hLabels hRest)

theorem Run.of_exec (hGood : ∀ label ∈ labels, ∀ state, good state label)
    (hExec : exec next start labels = some stop) :
    Run (Guarded (Steps next) good) start labels stop :=
  Run.of_next (fun label hMem state _ hNext => ⟨hNext, hGood label hMem state⟩) hExec

theorem Run.of_steps (hExec : exec next start labels = some stop) :
    Run (Steps next) start labels stop :=
  Run.of_next (fun _ _ _ _ hNext => hNext) hExec

/-- The step function that refuses where the side condition fails. -/
def checked (next : σ → α → Option σ) (good : σ → α → Prop)
    [∀ state label, Decidable (good state label)] (state : σ) (label : α) : Option σ :=
  if good state label then next state label else none

theorem Run.of_exec_checked [∀ state label, Decidable (good state label)]
    (hExec : exec (checked next good) start labels = some stop) :
    Run (Guarded (Steps next) good) start labels stop :=
  Run.of_next (fun _ _ _ _ hNext => (Option.ite_none_right_eq_some.mp hNext).symm) hExec

theorem Run.exists_of_exec {P : σ → Prop} (hExec : ∃ stop ∈ exec next start labels, P stop) :
    ∃ stop, Run (Steps next) start labels stop ∧ P stop := by
  obtain ⟨stop, hStop, hEnd⟩ := hExec
  exact ⟨stop, Run.of_steps hStop, hEnd⟩

theorem Run.exists_of_execs {P : σ → σ → Prop} {more : List α}
    (hExec : ∃ middle ∈ exec next start labels, ∃ stop ∈ exec next middle more, P middle stop) :
    ∃ middle stop, Run (Steps next) start labels middle ∧ Run (Steps next) middle more stop ∧
      P middle stop := by
  obtain ⟨middle, hMiddle, stop, hStop, hEnds⟩ := hExec
  exact ⟨middle, stop, Run.of_steps hMiddle, Run.of_steps hStop, hEnds⟩

/-- The end of a run, with what follows for it. -/
theorem Run.exists_and {P Q : σ → Prop} (hRun : ∃ stop, Run step start labels stop ∧ P stop)
    (hEnd : ∀ stop, Run step start labels stop → P stop → Q stop) :
    ∃ stop, Run step start labels stop ∧ P stop ∧ Q stop := by
  obtain ⟨stop, hStop, hFacts⟩ := hRun
  exact ⟨stop, hStop, hFacts, hEnd stop hStop hFacts⟩

/-- The end of an execution that meets the side condition, with what follows for it as a run. -/
theorem Run.exists_of_checked [∀ state label, Decidable (good state label)] {P Q : σ → Prop}
    (hExec : ∃ stop ∈ exec (checked next good) start labels, P stop)
    (hEnd : ∀ stop, Run (Guarded (Steps next) good) start labels stop → P stop → Q stop) :
    ∃ stop, Run (Guarded (Steps next) good) start labels stop ∧ Q stop := by
  obtain ⟨stop, hStop, hFacts⟩ := hExec
  have hRun := Run.of_exec_checked hStop
  exact ⟨stop, hRun, hEnd stop hRun hFacts⟩

/-- The state a deterministic system reaches after `steps` steps of its own. -/
def iterateStep (next : σ → σ) : Nat → σ → σ
  | 0, state => state
  | steps + 1, state => iterateStep next steps (next state)

@[simp] theorem iterateStep_succ (next : σ → σ) (steps : Nat) (state : σ) :
    iterateStep next (steps + 1) state = iterateStep next steps (next state) := rfl

end TimelapseManager.Runs
