import TimelapseManager.Capture.Anchors
import TimelapseManager.Capture.Cadence

/-!
# The cycles of a capture runner

`_run_cycle` and `_run_project` as functions of the target the runner was launched with.  A cycle
evaluates the schedule, start-date and disk gates, fires the due exact-time anchors, checks the
frame cap, plans, and captures or waits.

`Outside` is what the code asks of others, `Cycle` what one cycle finds.  Both kinds of capture
read no field of the target but its project id and those of `loopAffectingFields`; names are for
messages only.  Instants are microseconds, and `_plan_next` is given seconds.  A cycle with an error
that `_contain_cycle_error` catches decides nothing and has no place in a run here.
-/

namespace TimelapseManager.Capture

/-! ## Targets -/

/-- `CaptureTarget`.  Stored JSON documents are of any type. -/
structure CaptureTarget (Document : Type) where
  projectId : ℕ
  projectName : String
  cameraId : ℕ
  intervalSeconds : Option ℤ
  schedule : Option Document := none
  latitude : Option ℚ := none
  longitude : Option ℚ := none
  storagePath : Option String := none
  streamId : Option String := none
  ptzPreset : Option String := none
  ptzPan : Option ℚ := none
  ptzTilt : Option ℚ := none
  ptzZoom : Option ℚ := none
  startDate : Option ℤ := none
  endDate : Option ℤ := none
  maxFrameCount : Option ℕ := none
  exactTimeAnchors : Option (List Document) := none
  eventTriggers : Option (List Document) := none
  activeSince : Option ℤ := none
  cameraVersion : Option String := none
  deriving DecidableEq

structure LoopFields (Document : Type) where
  intervalSeconds : Option ℤ
  cameraId : ℕ
  schedule : Option Document
  storagePath : Option String
  streamId : Option String
  ptzPreset : Option String
  ptzPan : Option ℚ
  ptzTilt : Option ℚ
  ptzZoom : Option ℚ
  exactTimeAnchors : Option (List Document)
  deriving DecidableEq

variable {Document : Type}

def loopAffectingFields (target : CaptureTarget Document) : LoopFields Document where
  intervalSeconds := target.intervalSeconds
  cameraId := target.cameraId
  schedule := target.schedule
  storagePath := target.storagePath
  streamId := target.streamId
  ptzPreset := target.ptzPreset
  ptzPan := target.ptzPan
  ptzTilt := target.ptzTilt
  ptzZoom := target.ptzZoom
  exactTimeAnchors := target.exactTimeAnchors

/-! ## What is asked of others -/

structure Outside (Document : Type) where
  /-- `parse_schedule` of a document; `none` for its `ValueError`. -/
  parseSchedule : Document → Option Schedule
  /-- `parse_anchors` of a list that is not empty; `none` for its `ValueError`. -/
  parseAnchors : List Document → Option (List Anchor)
  /-- Astral at a latitude and longitude, in a zone. -/
  sun : ℚ → ℚ → Zone → Place
  /-- `tzfpy.get_tz` at a latitude and longitude, looked up in the timezone database. -/
  zoneAt : ℚ → ℚ → Option Zone
  /-- Whether `next_transition` raises; the location is read for a sun window only. -/
  raises : Schedule → Option (ℚ × ℚ) → ℤ → Bool
  /-- `_anchor_jitter`. -/
  jitter : ℕ → ℤ

def Schedule.default : Schedule where
  enabled := true
  timezone := Zone.utc
  windows := []
  sunWindow := none
  dayOfWeekMask := fullWeekMask
  maskLe := le_rfl
  startDate := none
  endDate := none

section Gate

variable (outside : Outside Document) (target : CaptureTarget Document)

def parseScheduleSafely : Schedule :=
  (target.schedule.bind outside.parseSchedule).getD Schedule.default

def CaptureTarget.location : Option (ℚ × ℚ) :=
  target.latitude.bind fun latitude => target.longitude.map fun longitude => (latitude, longitude)

def placeIn (zone : Zone) : Option Place :=
  target.location.map fun coordinates => outside.sun coordinates.1 coordinates.2 zone

def inCoordinateRange (coordinates : ℚ × ℚ) : Bool :=
  -90 ≤ coordinates.1 && coordinates.1 ≤ 90 && -180 ≤ coordinates.2 && coordinates.2 ≤ 180

def resolveZoneinfo : Option Zone :=
  target.location.bind fun coordinates =>
    if inCoordinateRange coordinates then outside.zoneAt coordinates.1 coordinates.2 else none

/-- The schedule gate of a cycle, open if its evaluation fails. -/
def scheduleGate (now : ℤ) : Bool × Option ℤ :=
  let schedule := parseScheduleSafely outside target
  if outside.raises schedule (schedule.sunWindow.bind fun _ => target.location) now then
    (true, none)
  else nextTransition schedule (placeIn outside target schedule.timezone) now

def startGate (now : ℤ) (gate : Bool × Option ℤ) : Bool × Option ℤ :=
  match target.startDate with
  | none => gate
  | some start =>
    if now < start then
      (false, match gate.2 with
        | none => some start
        | some change => some (min change start))
    else gate

end Gate

/-! ## Anchors -/

def keepSoonest (now : ℤ) (soonest instant : Option ℤ) : Option ℤ :=
  match instant with
  | none => soonest
  | some instant =>
    if instant ≤ now then soonest
    else
      match soonest with
      | none => some instant
      | some best => if instant < best then some instant else soonest

/-- The rounds of `next_anchor_wake` over the base dates of one anchor. -/
def anchorWake (now : ℤ) (zone : Zone) (place : Option Place) (solarZone : Option Zone)
    (soonest : Option ℤ) (anchor : Anchor) : Option ℤ :=
  let effective := effectiveZone anchor zone solarZone
  let today := effective.localDay now
  [today - 1, today, today + 1].foldl (fun soonest base =>
    keepSoonest now soonest (anchorFireInstant anchor base effective place)) soonest

def nextAnchorWake (anchors : List Anchor) (now : ℤ) (zone : Zone) (place : Option Place)
    (solarZone : Option Zone) : Option ℤ :=
  (anchors.filter fun anchor => anchor.enabled).foldl (anchorWake now zone place solarZone) none

/-- An instant before the project was last activated was never expected. -/
def sinceActive (floor : Option ℤ) (decisions : List AnchorDecision) : List AnchorDecision :=
  match floor with
  | none => decisions
  | some floor =>
    decisions.filter fun decision => decision.instant.all fun instant => floor ≤ instant

def withRetries (wake : Option ℤ) (retryWakes : List ℤ) : Option ℤ :=
  match retryWakes.min? with
  | none => wake
  | some soonest =>
    match wake with
    | none => some soonest
    | some wake => some (min wake soonest)

/-! ## Cycles -/

/-- The fields of `CaptureState` that a cycle decides by. -/
structure RunnerState where
  nextDueMono : Option ℚ
  nextRetryMono : Option ℚ
  liveMaxFrameCount : Option ℕ
  liveCapRead : Bool
  deriving DecidableEq

/-- The columns of the project's row that `_frame_cap_reached` reads. -/
structure ProjectRow where
  frameCount : ℕ
  maxFrameCount : Option ℕ
  deriving DecidableEq

/-- What becomes of a capture attempt: the grid and the retry it leaves, the project's row as the
write reports it if a frame is written, and whether something raises afterwards. -/
structure Attempt where
  nextDueMono : Option ℚ
  nextRetryMono : Option ℚ
  written : Option ProjectRow
  raised : Bool

/-- The frame count that `_attempt_capture` returns. -/
def Attempt.frameCount (attempt : Attempt) : Option ℕ :=
  if attempt.raised then none else attempt.written.map ProjectRow.frameCount

/-- A write that reports a row reports the live cap with it. -/
def RunnerState.afterAttempt (state : RunnerState) (attempt : Attempt) : RunnerState where
  nextDueMono := attempt.nextDueMono
  nextRetryMono := attempt.nextRetryMono
  liveMaxFrameCount := attempt.written.elim state.liveMaxFrameCount ProjectRow.maxFrameCount
  liveCapRead := state.liveCapRead || attempt.written.isSome

/-- What one cycle finds: the clocks, `is_capture_allowed` of a project's directory, the rows of
the projects at the cap check, the pending retries that the fires of its due anchors return, and
what becomes of its capture attempt. -/
structure Cycle (Document : Type) where
  now : ℤ
  nowMono : ℚ
  captureAllowed : ℕ → Option String → Bool
  project : ℕ → Option ProjectRow
  fires : ℕ → LoopFields Document → List AnchorDecision → List ℤ
  attempt : ℕ → LoopFields Document → RunnerState → Attempt

/-- What one cycle decides: the gates, the due anchors with the next wake, whether the cap ends
the campaign before the cycle plans, the plan, and what is left afterwards. -/
structure CycleOutcome where
  scheduleOpen : Bool
  nextChange : Option ℤ
  diskOk : Bool
  due : List AnchorDecision
  nextAnchorWake : Option ℤ
  capReached : Bool
  plan : Option PlanDecision
  after : RunnerState
  ended : Bool
  deriving DecidableEq

def liveFrameCap (target : CaptureTarget Document) (state : RunnerState) : Option ℕ :=
  if state.liveCapRead then state.liveMaxFrameCount else target.maxFrameCount

def frameCapReached (row : Option ProjectRow) : Bool :=
  match row with
  | none => false
  | some row => row.maxFrameCount.any fun cap => cap ≤ row.frameCount

def intervalOf (target : CaptureTarget Document) : Option ℚ :=
  target.intervalSeconds.map fun seconds => ((max 1 seconds : ℤ) : ℚ)

def inSeconds (instant : ℤ) : ℚ := instant / 1000000

section Cycles

variable (outside : Outside Document) (maxIdle : ℚ) (target : CaptureTarget Document)

/-- `_evaluate_exact_time_anchors`: the decisions it fires, and the next wake. -/
def evaluateExactTimeAnchors (cycle : Cycle Document) : List AnchorDecision × Option ℤ :=
  match target.exactTimeAnchors.getD [] with
  | [] => ([], none)
  | document :: documents =>
    match outside.parseAnchors (document :: documents) with
    | none => ([], none)
    | some anchors =>
      let zone := (parseScheduleSafely outside target).timezone
      let solarZone := resolveZoneinfo outside target
      let place := placeIn outside target (solarZone.getD zone)
      let due := sinceActive target.activeSince
        (dueAnchors anchors cycle.now zone place exactTimeGrace solarZone)
      (due, withRetries (nextAnchorWake anchors cycle.now zone place solarZone)
        (cycle.fires target.projectId (loopAffectingFields target) due))

/-- The capture of a cycle that plans one, and the check of the cap after its write. -/
def captureAndCheck (state : RunnerState) (cycle : Cycle Document) : RunnerState × Bool :=
  let attempt := cycle.attempt target.projectId (loopAffectingFields target) state
  let after := state.afterAttempt attempt
  (after, attempt.frameCount.any fun count =>
    (liveFrameCap target after).any fun cap => cap ≤ count)

def runCycle (state : RunnerState) (cycle : Cycle Document) : CycleOutcome :=
  let (scheduleOpen, nextChange) :=
    startGate target cycle.now (scheduleGate outside target cycle.now)
  let diskOk := if scheduleOpen then cycle.captureAllowed target.projectId target.storagePath
    else true
  let isOpen := scheduleOpen && diskOk
  let (due, wake) := evaluateExactTimeAnchors outside target cycle
  let nextWake := wake.map (· + outside.jitter target.projectId)
  if isOpen && (liveFrameCap target state).isSome &&
      frameCapReached (cycle.project target.projectId) then
    ⟨scheduleOpen, nextChange, diskOk, due, nextWake, true, none, state, true⟩
  else
    let plan := planNext (inSeconds cycle.now) isOpen (nextChange.map inSeconds)
      (intervalOf target) maxIdle cycle.nowMono state.nextDueMono state.nextRetryMono
      (nextWake.map inSeconds)
    match plan.action with
    | .capture =>
      let (after, ended) := captureAndCheck target state cycle
      ⟨scheduleOpen, nextChange, diskOk, due, nextWake, false, some plan, after, ended⟩
    | .wait => ⟨scheduleOpen, nextChange, diskOk, due, nextWake, false, some plan, state, false⟩

/-- `_run_project`: cycle after cycle, until one ends the campaign. -/
def runProject : RunnerState → List (Cycle Document) → List CycleOutcome
  | _, [] => []
  | state, cycle :: cycles =>
    let outcome := runCycle outside maxIdle target state cycle
    if outcome.ended then [outcome] else outcome :: runProject outcome.after cycles

end Cycles

end TimelapseManager.Capture
