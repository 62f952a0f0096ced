import TimelapseManager.Capture.RunnerCycle

/-!
# The frame cap of a runner

The steps of `_run_cycle` that write frames or check the cap.  Due anchors are fired whether the
gates are open or not, before the cap is checked, and `capture_one_now` does not look at it.  A
write runs in a thread of its own: if the attempt that waits for it is given up (an anchor's
timeout, or the end of the runner), the thread goes on, and its frame lands later or never.

`row_le_cap_of_run`: the count stays within the cap on every run on which an anchor is fired, and
an interval capture planned next to abandoned writes, only while there is room for one more frame
than the abandoned writes may still add.
-/

namespace TimelapseManager.Capture.FrameCap

open Runs

/-! ## The runner -/

/-- Where the runner is in its cycle.  While it fires anchors it knows whether the gates are
open. -/
inductive Phase
  | idle
  | firing (isOpen : Bool)
  | attempting (isOpen : Bool)
  | capturing
  | stopped
  deriving DecidableEq

/-- The project's row, the runner's state and place in the cycle, and the number of write threads
that nobody waits for. -/
structure CapState where
  row : ProjectRow
  runner : RunnerState
  phase : Phase
  orphans : ℕ
  deriving DecidableEq

inductive CapLabel
  /-- A cycle starts; its gates are open or not. -/
  | begin (isOpen : Bool)
  /-- A due anchor is claimed, and its capture attempt starts. -/
  | fire
  | anchorWritten
  /-- An attempt without a frame: an error, a timeout before the write, or low disk. -/
  | anchorFailed
  /-- The attempt times out while its frame is written. -/
  | anchorTimedOut
  /-- The cap is checked and the next action planned. -/
  | plan (now nowMono maxIdle : ℚ) (nextChange nextWake : Option ℚ)
  /-- The frame of an interval capture is written, the grid moved on.  What follows the write may
  still raise. -/
  | written (nextDueMono nextRetryMono : Option ℚ) (raised : Bool)
  | failed (nextDueMono nextRetryMono : Option ℚ)
  /-- A frame is written that nobody waits for. -/
  | landed
  | lost
  /-- `_contain_cycle_error`. -/
  | contained
  /-- The runner is cancelled. -/
  | cancelled
  deriving DecidableEq

section Steps

variable {Document : Type} (target : CaptureTarget Document)

namespace CapState

def addFrame (state : CapState) : CapState :=
  { state with row := { state.row with frameCount := state.row.frameCount + 1 } }

def capReached (state : CapState) (isOpen : Bool) : Bool :=
  isOpen && (liveFrameCap target state.runner).isSome && frameCapReached (some state.row)

/-- The runner's state after an interval capture was written: the write reports the cap. -/
def afterWrite (state : CapState) (nextDueMono nextRetryMono : Option ℚ) : RunnerState where
  nextDueMono := nextDueMono
  nextRetryMono := nextRetryMono
  liveMaxFrameCount := state.row.maxFrameCount
  liveCapRead := true

/-- The check after the write of an interval capture, which is left out if something raises. -/
def phaseAfterWrite (runner : RunnerState) (frameCount : ℕ) (raised : Bool) : Phase :=
  if !raised && (liveFrameCap target runner).any fun cap => cap ≤ frameCount then .stopped
  else .idle

def phaseOfPlan (plan : PlanDecision) : Phase :=
  match plan.action with
  | .capture => .capturing
  | .wait => .idle

end CapState

def capStep (state : CapState) (label : CapLabel) : Option CapState :=
  match label, state.phase with
  | .begin isOpen, .idle => some { state with phase := .firing isOpen }
  | .fire, .firing isOpen => some { state with phase := .attempting isOpen }
  | .anchorWritten, .attempting isOpen => some { state.addFrame with phase := .firing isOpen }
  | .anchorFailed, .attempting isOpen => some { state with phase := .firing isOpen }
  | .anchorTimedOut, .attempting isOpen =>
    some { state with phase := .firing isOpen, orphans := state.orphans + 1 }
  | .plan now nowMono maxIdle nextChange nextWake, .firing isOpen =>
    if state.capReached target isOpen then some { state with phase := .stopped }
    else
      some { state with
        phase := CapState.phaseOfPlan
          (planNext now isOpen nextChange (intervalOf target) maxIdle nowMono
            state.runner.nextDueMono state.runner.nextRetryMono nextWake) }
  | .written nextDueMono nextRetryMono raised, .capturing =>
    let runner := state.afterWrite nextDueMono nextRetryMono
    some { state.addFrame with
      runner := runner
      phase := CapState.phaseAfterWrite target runner (state.row.frameCount + 1) raised }
  | .failed nextDueMono nextRetryMono, .capturing =>
    some { state with
      runner := { state.runner with
        nextDueMono := nextDueMono, nextRetryMono := nextRetryMono }
      phase := .idle }
  | .landed, _ =>
    if 0 < state.orphans then some { state.addFrame with orphans := state.orphans - 1 } else none
  | .lost, _ =>
    if 0 < state.orphans then some { state with orphans := state.orphans - 1 } else none
  | .contained, .firing _ => some { state with phase := .idle }
  | .cancelled, .attempting _ | .cancelled, .capturing =>
    some { state with phase := .stopped, orphans := state.orphans + 1 }
  | .cancelled, _ => some { state with phase := .stopped }
  | _, _ => none

def CapState.launch (row : ProjectRow) (startedMono : ℚ) : CapState :=
  ⟨row, ⟨some startedMono, none, none, false⟩, .idle, 0⟩

end Steps

/-- There is room for one more frame than the abandoned writes may still add. -/
def CapState.hasRoom (state : CapState) : Bool :=
  state.row.maxFrameCount.all fun cap => state.row.frameCount + state.orphans < cap

/-- There is room when an anchor is fired, and when a cycle with open gates plans while a write is
abandoned.  Without such a write the check before the plan sees to the room itself. -/
def RoomInFlight (state : CapState) : CapLabel → Prop
  | .fire => state.hasRoom = true
  | .plan .. => state.phase = .firing true → 0 < state.orphans → state.hasRoom = true
  | _ => True

instance (state : CapState) (label : CapLabel) : Decidable (RoomInFlight state label) := by
  cases label <;> unfold RoomInFlight <;> infer_instance

/-! ## The invariant -/

/-- The frame that the runner waits for. -/
def Phase.inFlight : Phase → ℕ
  | .attempting _ | .capturing => 1
  | _ => 0

section Invariant

variable {Document : Type} {target : CaptureTarget Document} {cap : ℕ} {state next : CapState}

/-- The cap is the one of the launch, and there is room under it for every frame that may still be
written: that of the attempt under way and those of the abandoned writes. -/
structure WithinCap (cap : ℕ) (state : CapState) : Prop where
  rowCap : state.row.maxFrameCount = some cap
  liveCap : state.runner.liveCapRead = true → state.runner.liveMaxFrameCount = some cap
  room : state.row.frameCount + state.orphans + state.phase.inFlight ≤ cap

variable {phase : Phase}

namespace WithinCap

variable (hWithin : WithinCap cap state)
include hWithin

theorem liveFrameCap_eq (hTarget : target.maxFrameCount = some cap) :
    liveFrameCap target state.runner = some cap := by
  unfold liveFrameCap
  split
  next hRead => exact hWithin.liveCap hRead
  next => exact hTarget

theorem lt_of_hasRoom (hRoom : state.hasRoom = true) :
    state.row.frameCount + state.orphans < cap := by
  unfold CapState.hasRoom at hRoom
  rw [hWithin.rowCap, Option.all_some] at hRoom
  exact of_decide_eq_true hRoom

end WithinCap

theorem phaseOfPlan_capturing {plan : PlanDecision}
    (hPhase : CapState.phaseOfPlan plan = .capturing) : plan.action = .capture := by
  unfold CapState.phaseOfPlan at hPhase
  cases hAction : plan.action with
  | capture => rfl
  | wait =>
    rw [hAction] at hPhase
    cases hPhase

/-- A capture is planned only below the cap, by the check or, next to an abandoned write, by the
room that is left. -/
theorem WithinCap.planned (hTarget : target.maxFrameCount = some cap)
    (hWithin : WithinCap cap state) {isOpen : Bool} (hPhase : state.phase = .firing isOpen)
    (hRoom : state.phase = .firing true → 0 < state.orphans → state.hasRoom = true)
    (hBelow : ¬ state.capReached target isOpen = true) {now nowMono maxIdle : ℚ}
    {nextChange nextWake : Option ℚ} :
    WithinCap cap { state with
      phase := CapState.phaseOfPlan
        (planNext now isOpen nextChange (intervalOf target) maxIdle nowMono
          state.runner.nextDueMono state.runner.nextRetryMono nextWake) } := by
  have hBefore := hWithin.room
  rw [hPhase] at hBefore
  refine { hWithin with room := ?_ }
  generalize hPlan : planNext now isOpen nextChange (intervalOf target) maxIdle nowMono
    state.runner.nextDueMono state.runner.nextRetryMono nextWake = plan
  by_cases hCapture : CapState.phaseOfPlan plan = .capturing
  · have hIsOpen : isOpen = true := by
      have hAction := phaseOfPlan_capturing hCapture
      by_contra hClosed
      rw [← hPlan, planNext, if_pos (Or.inl (Bool.eq_false_iff.mpr hClosed))] at hAction
      cases hAction
    subst hIsOpen
    rw [hCapture]
    show state.row.frameCount + state.orphans + 1 ≤ cap
    by_cases hOrphans : 0 < state.orphans
    · exact hWithin.lt_of_hasRoom (hRoom hPhase hOrphans)
    · by_contra hFull
      apply hBelow
      simp [CapState.capReached, frameCapReached, hWithin.liveFrameCap_eq hTarget, hWithin.rowCap]
      omega
  · have hNone : (CapState.phaseOfPlan plan).inFlight = 0 := by
      unfold CapState.phaseOfPlan at hCapture ⊢
      cases hAction : plan.action with rw [hAction] at hCapture
      | capture => exact absurd rfl hCapture
      | wait => rfl
    dsimp only
    rw [hNone]
    exact hBefore

/-- Every step keeps the room for what may still be written. -/
theorem withinCap_of_step (hTarget : target.maxFrameCount = some cap)
    (hWithin : WithinCap cap state) {label : CapLabel} (hRoom : RoomInFlight state label)
    (hStep : capStep target state label = some next) : WithinCap cap next := by
  have hBefore := hWithin.room
  unfold capStep at hStep
  split at hStep
  case h_1 hPhase =>
    cases hStep
    rw [hPhase] at hBefore
    exact { hWithin with room := hBefore }
  case h_2 =>
    cases hStep
    exact { hWithin with room := hWithin.lt_of_hasRoom hRoom }
  case h_3 hPhase | h_4 hPhase | h_5 hPhase | h_11 hPhase =>
    cases hStep
    rw [hPhase] at hBefore
    refine { hWithin with room := ?_ }
    simp only [Phase.inFlight, CapState.addFrame] at hBefore ⊢
    omega
  case h_6 hPhase =>
    split at hStep
    next =>
      cases hStep
      rw [hPhase] at hBefore
      exact { hWithin with room := hBefore }
    next hBelow =>
      cases hStep
      exact hWithin.planned hTarget hPhase hRoom hBelow
  case h_7 nextDueMono nextRetryMono raised hPhase =>
    cases hStep
    have hDone : (CapState.phaseAfterWrite target (state.afterWrite nextDueMono nextRetryMono)
        (state.row.frameCount + 1) raised).inFlight = 0 := by
      unfold CapState.phaseAfterWrite
      split <;> rfl
    rw [hPhase] at hBefore
    refine { hWithin with liveCap := fun _ => hWithin.rowCap, room := ?_ }
    show state.row.frameCount + 1 + state.orphans + Phase.inFlight _ ≤ cap
    rw [hDone, Nat.add_right_comm state.row.frameCount]
    exact hBefore
  case h_8 hPhase =>
    cases hStep
    rw [hPhase] at hBefore
    exact { hWithin with room := Nat.le_of_succ_le hBefore }
  case h_9 | h_10 =>
    obtain ⟨hSome, rfl⟩ := of_guard hStep
    refine { hWithin with room := ?_ }
    simp only [CapState.addFrame]
    omega
  case h_12 hPhase | h_13 hPhase | h_14 hPhase =>
    -- What was under way is abandoned: its frame may still be written.
    cases hStep
    refine { hWithin with room := ?_ }
    simp only [hPhase, Phase.inFlight] at hBefore ⊢
    omega
  case h_15 => cases hStep

/-- Every run of a runner with a cap: the count never exceeds the cap, and an interval capture is
on its way only below it, provided that anchors are fired, and captures planned next to abandoned
writes, while there is room. -/
theorem row_le_cap_of_run {row : ProjectRow} {startedMono : ℚ} {labels : List CapLabel}
    (hTarget : target.maxFrameCount = some cap) (hRow : row.maxFrameCount = some cap)
    (hStart : row.frameCount ≤ cap)
    (hRun : Run (Guarded (Steps (capStep target)) RoomInFlight)
      (CapState.launch row startedMono) labels next) :
    next.row.frameCount ≤ cap ∧ (next.phase = .capturing → next.row.frameCount < cap) := by
  have hLaunch : WithinCap cap (CapState.launch row startedMono) := ⟨hRow, nofun, hStart⟩
  have hWithin := hRun.invariant (WithinCap cap)
    (fun _ _ _ hWithin hStep => withinCap_of_step hTarget hWithin hStep.2 hStep.1) hLaunch
  have hRoom := hWithin.room
  refine ⟨by omega, ?_⟩
  intro hCapturing
  rw [hCapturing] at hRoom
  exact lt_of_lt_of_le (Nat.lt_succ_of_le (Nat.le_add_right _ _)) hRoom

end Invariant

def cappedTarget : CaptureTarget Unit where
  projectId := 1
  projectName := "north yard"
  cameraId := 1
  intervalSeconds := some 60
  maxFrameCount := some 2

/-- An anchor's write is abandoned, an interval capture planned next to it, and its frame lands
before that of the capture; the next cycle ends the campaign. -/
def cappedRun : List CapLabel :=
  [.begin true, .fire, .anchorTimedOut, .plan 0 0 30 none none, .landed,
    .written (some 60) none true, .begin true, .plan 90 90 30 none none]

theorem row_le_cap_with_anchor :
    ∃ stop, exec (checked (capStep cappedTarget) RoomInFlight)
        (CapState.launch ⟨0, some 2⟩ 0) cappedRun = some stop ∧ stop.phase = .stopped ∧
      stop.row.frameCount ≤ 2 ∧ (stop.phase = .capturing → stop.row.frameCount < 2) := by
  have hEnds : ∃ stop ∈ exec (checked (capStep cappedTarget) RoomInFlight)
      (CapState.launch ⟨0, some 2⟩ 0) cappedRun, stop.phase = .stopped := by decide +kernel
  obtain ⟨stop, hExec, hPhase⟩ := hEnds
  exact ⟨stop, hExec, hPhase, row_le_cap_of_run rfl rfl (Nat.zero_le 2) (Run.of_exec_checked hExec)⟩

/-- With one frame of two: two anchors are due in one cycle with open gates. -/
def twoAnchors : List CapLabel :=
  [.begin true, .fire, .anchorWritten, .fire, .anchorWritten, .plan 0 0 30 none none]

/-- An anchor is due in each of two cycles with closed gates, in which the cap is not checked. -/
def closedGates : List CapLabel :=
  [.begin false, .fire, .anchorWritten, .plan 0 0 30 none none,
    .begin false, .fire, .anchorWritten, .plan 30 30 30 none none]

/-- An anchor times out while its frame is written, which lands during the interval capture. -/
def lateFrame : List CapLabel :=
  [.begin true, .fire, .anchorTimedOut, .plan 0 0 30 none none, .landed,
    .written (some 60) none false]

/-- Three runs from one frame of two to three frames. -/
theorem cap_exceeded : [twoAnchors, closedGates, lateFrame].map (fun labels =>
      (exec (capStep cappedTarget) (CapState.launch ⟨1, some 2⟩ 0) labels).map
        fun state => state.row) = List.replicate 3 (some ⟨3, some 2⟩) := by
  decide +kernel

end TimelapseManager.Capture.FrameCap
