import TimelapseManager.Lib.Grid
import TimelapseManager.Lib.Runs

/-!
# The cadence of an interval runner

`_plan_next`, `_advance_due` and `_retry_instant`, and the state they work on in the cycles of
`_run_project`.  Clock readings are rational numbers of seconds; every float is one, and the
arithmetic is exact.

A cycle plans; if it orders a capture, the attempt records its success and moves the grid on, or
moves the grid on and records its failure.  A failure can also strike after the success was
recorded.  Each of these is a step.  The runner may be stopped at any point, and a cycle that fails
otherwise changes nothing.
-/

namespace TimelapseManager.Capture

/-! ## Planning -/

inductive PlanAction
  | capture
  | wait
  deriving DecidableEq, Repr

structure PlanDecision where
  action : PlanAction
  sleepSeconds : ℚ
  nextRetryAt : Option ℚ
  deriving DecidableEq

def secondsUntil (instant : Option ℚ) (now fallback : ℚ) : ℚ :=
  match instant with
  | none => fallback
  | some instant => max 0 (instant - now)

def retryWall (now nowMono : ℚ) (nextRetryMono : Option ℚ) : Option ℚ :=
  match nextRetryMono with
  | none => none
  | some retry => if retry ≤ nowMono then none else some (now + (retry - nowMono))

def planNext (now : ℚ) (isOpen : Bool) (nextChange : Option ℚ) (interval : Option ℚ)
    (maxIdleSleep nowMono : ℚ) (nextDueMono nextRetryMono nextWake : Option ℚ) :
    PlanDecision :=
  let untilChange := secondsUntil nextChange now maxIdleSleep
  let untilWake := secondsUntil nextWake now maxIdleSleep
  if isOpen = false ∨ interval = none then
    ⟨.wait, min (min untilChange untilWake) maxIdleSleep, retryWall now nowMono nextRetryMono⟩
  else
    let dueMono := nextRetryMono.orElse fun _ => nextDueMono
    let dueIn : ℚ :=
      match dueMono with
      | none => 0
      | some due => max 0 (due - nowMono)
    if dueIn ≤ 0 then ⟨.capture, 0, none⟩
    else
      ⟨.wait, min (min (min dueIn untilChange) untilWake) maxIdleSleep,
        retryWall now nowMono nextRetryMono⟩

def advanceDue (due : Option ℚ) (interval nowMono : ℚ) : ℚ :=
  let due := due.getD nowMono
  if nowMono < due then due
  else
    let missed : ℤ := ⌊(nowMono - due) / interval⌋ + 1
    due + missed * interval

def retryInstant (nowMono delay : ℚ) (nextDueMono : Option ℚ) : ℚ :=
  match nextDueMono with
  | none => nowMono + delay
  | some due => min (nowMono + delay) due

/-! ## The runner -/

/-- What the runner was launched with.  The interval is `max(1, …)` of the
project's and the idle ceiling `max(1.0, …)` of the settings'. -/
structure RunnerConfig where
  interval : ℚ
  maxIdle : ℚ
  intervalPos : 0 < interval
  maxIdlePos : 0 < maxIdle

inductive CyclePhase
  | planning
  | attempting
  /-- `_record_success` has run, `_advance_cadence` has not. -/
  | recorded
  | stopped
  deriving DecidableEq, Repr

/-- An ordered capture: the grid slot that was pending, and whether a retry was. -/
structure CaptureAttempt where
  slot : Option ℚ
  retry : Bool
  deriving DecidableEq

/-- The fields of `CaptureState` the cadence uses, the latest monotonic reading
and the captures ordered so far, newest first. -/
structure CadenceState where
  startedMono : ℚ
  nextDueMono : Option ℚ
  nextRetryMono : Option ℚ
  clock : ℚ
  phase : CyclePhase
  attempts : List CaptureAttempt
  deriving DecidableEq

def CadenceState.launch (startedMono : ℚ) : CadenceState :=
  ⟨startedMono, some startedMono, none, startedMono, .planning, []⟩

inductive CadenceStep
  /-- The gate and anchor evaluation of a cycle is done, and it plans. -/
  | plan (now nowMono : ℚ) (isOpen : Bool) (nextChange nextWake : Option ℚ)
  | recordSuccess
  /-- `_advance_cadence` of a success. -/
  | advance (nowMono : ℚ)
  /-- `_advance_cadence` and `_record_transient_failure` of a failure, each with
  its own reading of the clock. -/
  | fail (nowMono failedMono delay : ℚ)
  /-- An error outside the attempt; the runner continues. -/
  | contain
  /-- Cancelled, or the campaign ended. -/
  | stop

/-- One step of a runner, or none when it is not possible.  The monotonic clock
does not go back. -/
def cadenceStep (config : RunnerConfig) (state : CadenceState) : CadenceStep → Option CadenceState
  | .plan now nowMono isOpen nextChange nextWake =>
    if state.phase = .planning ∧ state.clock ≤ nowMono then
      match (planNext now isOpen nextChange (some config.interval) config.maxIdle nowMono
          state.nextDueMono state.nextRetryMono nextWake).action with
      | .wait => some { state with clock := nowMono }
      | .capture =>
        let attempt : CaptureAttempt := ⟨state.nextDueMono, state.nextRetryMono.isSome⟩
        some { state with
          clock := nowMono, phase := .attempting, attempts := attempt :: state.attempts }
    else none
  | .recordSuccess =>
    if state.phase = .attempting then
      some { state with phase := .recorded, nextRetryMono := none }
    else none
  | .advance nowMono =>
    if state.phase = .recorded ∧ state.clock ≤ nowMono then
      some { state with
        clock := nowMono, phase := .planning
        nextDueMono := some (advanceDue state.nextDueMono config.interval nowMono) }
    else none
  | .fail nowMono failedMono delay =>
    if (state.phase = .attempting ∨ state.phase = .recorded) ∧ state.clock ≤ nowMono ∧
        nowMono ≤ failedMono then
      let due := some (advanceDue state.nextDueMono config.interval nowMono)
      some { state with
        clock := failedMono, phase := .planning, nextDueMono := due
        nextRetryMono := some (retryInstant failedMono delay due) }
    else none
  | .contain => if state.phase = .planning then some state else none
  | .stop => some { state with phase := .stopped }

abbrev Cadences (config : RunnerConfig) := Runs.Steps (cadenceStep config)

end TimelapseManager.Capture
