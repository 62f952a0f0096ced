import TimelapseManager.Capture.FireLog
import TimelapseManager.Lib.Runs

/-!
# Exact-time attempts as a concurrent system

One *worker* is one call of `_fire_anchor_decision` together with the threads its blocking hops run
in.  Any number of workers act at once: the decisions of one cycle, of later cycles, of a runner
that was stopped and relaunched.

The `stage` of a worker is where the coroutine is; its `hop` is the thread of the frame write, which
runs `FrameWriter.write` and then `mark_captured`.  When the attempt times out, or the runner is
stopped, the coroutine leaves but a hop that has started finishes.  A hop that still waits for a
thread may be dropped, which is the flag `dropped` of the two steps.  `mark_captured` first notes
the frame id for the coroutine to see, then updates the fire-log; so the hop goes from `written` to
`noted` to `closed`.
-/

namespace TimelapseManager.Capture

open Function (update)

/-! ## Workers -/

inductive Stage
  /-- The insert of `_claim_anchor_attempt` is under way. -/
  | claiming
  /-- The insert hit a row; the same hop goes on to `_reclaim_anchor_retry`. -/
  | reclaiming
  /-- `capture_one_now`, before and in the disk gate. -/
  | gated (attempts : Nat)
  /-- `_capture_and_write`, up to the captured image. -/
  | capturing (attempts : Nat)
  /-- Waiting for the frame-write hop. -/
  | writing (attempts : Nat)
  /-- The frame is written and marked; the audit event is under way. -/
  | auditing
  /-- `_handle_anchor_failure`. -/
  | failing (attempts : Nat)
  /-- The low-disk release of the claim. -/
  | releasing
  | finished
  deriving DecidableEq, Repr

inductive WriteHop
  | idle
  /-- Handed over; it waits for a thread, or for the write to commit. -/
  | queued
  /-- The frame is committed. -/
  | written (frameId : Nat)
  /-- The coroutine can see the frame id. -/
  | noted (frameId : Nat)
  /-- The row is marked, or no frame was written. -/
  | closed
  /-- The frame is committed and the update of the row failed. -/
  | lost
  deriving DecidableEq, Repr

structure Worker where
  projectId : Nat
  decision : AnchorDecision
  now : Int
  stage : Stage
  hop : WriteHop
  /-- The coroutine was cancelled while a database hop was under way. -/
  cancelled : Bool

def Worker.key (worker : Worker) : FireKey :=
  ⟨worker.projectId, worker.decision.anchor.id, worker.decision.localDate⟩

/-- The coroutine goes on after a hop, unless it was cancelled meanwhile. -/
def Worker.resume (worker : Worker) (stage : Stage) : Worker :=
  { worker with stage := if worker.cancelled then .finished else stage }

def claimStatus (decision : AnchorDecision) : FireStatus × Option String :=
  if decision.hasGeo = false then
    (.skippedNoGeo, some "camera has no geolocation for solar-noon anchor")
  else if decision.withinGrace then (.failed, none)
  else (.skippedMissed, some "anchor fire instant missed by more than the grace window")

/-! ## The system -/

/-- The fire-log, the frames written so far with the key they were taken for,
and the workers. -/
structure AttemptState where
  log : FireLog
  frames : List (FireKey × Nat)
  workers : Nat → Option Worker

def AttemptState.initial : AttemptState := ⟨fun _ => none, [], fun _ => none⟩

def AttemptState.frameCount (state : AttemptState) (key : FireKey) : Nat :=
  state.frames.countP fun frame => frame.1 = key

inductive AttemptStep
  /-- A cycle acts on a decision. -/
  | start (index projectId : Nat) (decision : AnchorDecision) (now : Int)
  | claim (index : Nat)
  | reclaim (index : Nat)
  /-- The disk gate answers. -/
  | gate (index : Nat) (diskOk : Bool)
  /-- The camera delivers. -/
  | capture (index : Nat)
  /-- Anything up to the image fails. -/
  | fail (index : Nat)
  /-- `FrameWriter.write` commits. -/
  | write (index : Nat)
  | writeFails (index : Nat)
  /-- `mark_captured` notes the frame id. -/
  | note (index : Nat)
  /-- `mark_captured` updates the fire-log. -/
  | mark (index : Nat)
  | markFails (index : Nat)
  | audit (index : Nat)
  /-- The attempt's own timeout. -/
  | timeout (index : Nat) (dropped : Bool)
  /-- The transaction of `_handle_anchor_failure`. -/
  | handle (index : Nat) (failedAt remaining : Int) (auth : Bool) (text : String)
  | release (index : Nat)
  /-- The runner is stopped, or the outer guard of the fire runs out. -/
  | cancel (index : Nat) (dropped : Bool)
  deriving DecidableEq

/-- A hop that still waits for a thread can be dropped with its coroutine. -/
def WriteHop.leave (hop : WriteHop) (dropped : Bool) : WriteHop :=
  match hop, dropped with
  | .queued, true => .closed
  | hop, _ => hop

/-- When the hop is through, a coroutine that waits for it goes on. -/
def Stage.wake (stage next : Stage) : Stage :=
  match stage with
  | .writing _ => next
  | stage => stage

def handleAnchorFailure (log : FireLog) (key : FireKey) (attempts : Nat)
    (failedAt remaining : Int) (auth : Bool) (text : String) : FireLog :=
  match anchorRetryDelay attempts remaining auth with
  | some delay => (scheduleAnchorRetry log key attempts (failedAt + delay) text).1
  | none => (finalizeInSession log key attempts (some text) .failed).1

/-! ## Steps of one worker -/

/-- `_claim_anchor_attempt`, up to a row that is in the way. -/
def Worker.claim (log : FireLog) (worker : Worker) : FireLog × Worker :=
  let (status, detail) := claimStatus worker.decision
  match claimExactTimeFire log worker.key status detail with
  | some next =>
    if status = .failed then (next, worker.resume (.gated 1))
    else (next, { worker with stage := .finished })
  | none =>
    if status = .skippedNoGeo then (log, { worker with stage := .finished })
    else (log, { worker with stage := .reclaiming })

/-- `_reclaim_anchor_retry`, on the row that was in the way. -/
def Worker.reclaim (log : FireLog) (worker : Worker) : FireLog × Worker :=
  match reclaimAnchorRetry log worker.key worker.now worker.decision.withinGrace with
  | (next, .claimed attempts) => (next, worker.resume (.gated attempts))
  | (next, _) => (next, { worker with stage := .finished })

/-- The step of a worker that is there: the log, the frames and the worker after
it.  A frame gets the next id. -/
def workerStep (log : FireLog) (frames : List (FireKey × Nat)) (worker : Worker)
    (label : AttemptStep) : Option (FireLog × List (FireKey × Nat) × Worker) :=
  match label, worker.stage, worker.hop with
  | .claim _, .claiming, _ => some ((worker.claim log).1, frames, (worker.claim log).2)
  | .reclaim _, .reclaiming, _ => some ((worker.reclaim log).1, frames, (worker.reclaim log).2)
  | .gate _ diskOk, .gated attempts, _ =>
    some (log, frames,
      { worker with stage := if diskOk then .capturing attempts else .releasing })
  | .capture _, .capturing attempts, _ =>
    some (log, frames, { worker with stage := .writing attempts, hop := .queued })
  | .fail _, .gated attempts, _ | .fail _, .capturing attempts, _ =>
    some (log, frames, { worker with stage := .failing attempts })
  | .write _, _, .queued =>
    some (log, frames ++ [(worker.key, frames.length + 1)],
      { worker with hop := .written (frames.length + 1) })
  | .writeFails _, .writing attempts, .queued =>
    some (log, frames, { worker with hop := .closed, stage := .failing attempts })
  | .writeFails _, _, .queued => some (log, frames, { worker with hop := .closed })
  | .note _, _, .written frameId => some (log, frames, { worker with hop := .noted frameId })
  | .mark _, _, .noted frameId =>
    some (recordExactTimeOutcome log worker.key .captured (some frameId) none, frames,
      { worker with hop := .closed, stage := worker.stage.wake .auditing })
  | .markFails _, _, .noted _ =>
    some (log, frames, { worker with hop := .lost, stage := worker.stage.wake .finished })
  | .audit _, .auditing, _ => some (log, frames, { worker with stage := .finished })
  | .timeout _ _, .gated attempts, _ | .timeout _ _, .capturing attempts, _ =>
    some (log, frames, { worker with stage := .failing attempts })
  | .timeout _ _, .writing _, .noted _ | .timeout _ _, .auditing, _ =>
    some (log, frames, { worker with stage := .finished })
  | .timeout _ dropped, .writing attempts, hop =>
    some (log, frames, { worker with stage := .failing attempts, hop := hop.leave dropped })
  | .handle _ failedAt remaining auth text, .failing attempts, _ =>
    some (handleAnchorFailure log worker.key attempts failedAt remaining auth text, frames,
      { worker with stage := .finished })
  | .release _, .releasing, _ =>
    some (releaseExactTimeFire log worker.key, frames, { worker with stage := .finished })
  | .cancel _ _, .gated _, _ | .cancel _ _, .capturing _, _ | .cancel _ _, .auditing, _ =>
    some (log, frames, { worker with stage := .finished })
  | .cancel _ dropped, .writing _, hop =>
    some (log, frames, { worker with stage := .finished, hop := hop.leave dropped })
  | .cancel _ dropped, .claiming, _ | .cancel _ dropped, .failing _, _
  | .cancel _ dropped, .releasing, _ =>
    if dropped then some (log, frames, { worker with stage := .finished })
    else some (log, frames, { worker with cancelled := true })
  | .cancel _ _, .reclaiming, _ => some (log, frames, { worker with cancelled := true })
  | _, _, _ => none

def AttemptStep.index : AttemptStep → Nat
  | .start index _ _ _ | .claim index | .reclaim index | .gate index _ | .capture index
  | .fail index | .write index | .writeFails index | .note index | .mark index
  | .markFails index | .audit index | .timeout index _ | .handle index _ _ _ _
  | .release index | .cancel index _ => index

/-- One step of the system, or none when the step is not possible. -/
def attemptStep (state : AttemptState) (label : AttemptStep) : Option AttemptState :=
  match state.workers label.index, label with
  | none, .start index projectId decision now =>
    let worker : Worker := ⟨projectId, decision, now, .claiming, .idle, false⟩
    some { state with workers := update state.workers index (some worker) }
  | none, _ => none
  | some worker, label =>
    (workerStep state.log state.frames worker label).map fun (log, frames, worker) =>
      ⟨log, frames, update state.workers label.index (some worker)⟩

abbrev Attempts := Runs.Steps attemptStep

end TimelapseManager.Capture
