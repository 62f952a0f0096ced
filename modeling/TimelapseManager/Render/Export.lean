import TimelapseManager.Render.Queue

/-!
# An export and its cancellation

An export's zip is built in a worker thread that cannot be interrupted.  `cancel_job` cancels the
task that waits for it: the task fails the row, and the thread, which looks at the row once more
before it renames the archive to its final name, is to find it failed and discard the archive.

`archive_iff_done`: a failed row has no archive and no completion event, and a done one has its
archive, if a row is not failed once the thread has found it wanted and the record of the
completion does not fail (`Ordered`).
-/

namespace TimelapseManager.Render

open Runs

/-- Where the thread of `_build_export` is.  It raised before or after the rename. -/
inductive BuildPhase
  | queued
  | resolving
  | writing
  | checking
  | renaming
  | recording
  | returned (success : Bool)
  | raised
  deriving DecidableEq

/-- Where the task of `_run_job` is. -/
inductive ExportPhase
  | preparing
  | waiting
  | settling (write : Write) (inBody cancelled : Bool)
  | settled (write : Write) (inBody cancelled landed : Bool)
  | afterResult
  | over
  deriving DecidableEq

/-- The row of the job, its files, its completion events, the thread with its gate, the task, and
the calls of `cancel_job` that wait for it. -/
structure ExportState where
  row : Option RenderJob
  part : Bool
  archive : Bool
  completions : ℕ
  gateClosed : Bool
  build : Option BuildPhase
  task : ExportPhase
  cancelRequested : Bool
  userCancel : Bool
  calls : ℕ
  deriving DecidableEq

/-- How the writing of the zip ends. -/
inductive ZipOutcome
  | complete
  | outOfSpace
  | raises
  deriving DecidableEq

inductive ExportLabel
  /-- `_prepare` returns or raises. -/
  | prepare (works : Bool)
  /-- The executor comes to the thread. -/
  | start
  /-- The sources are read and the free space is looked at; either may raise. -/
  | resolve (hasRoom raises : Bool)
  | writeZip (outcome : ZipOutcome)
  /-- `_still_wanted`. -/
  | check (works : Bool)
  | rename (works : Bool)
  /-- `_record_export_complete`. -/
  | record (works : Bool)
  /-- The task goes on; post-render actions may raise. -/
  | resume (raises : Bool)
  /-- The `CancelledError` reaches the task. -/
  | deliver
  | write (landed : Bool)
  | cancelJob (userRequested : Bool)
  | taskAwaited
  /-- The row is deleted. -/
  | remove
  deriving DecidableEq

namespace ExportState

variable (state : ExportState)

/-- The row is there and was not cancelled. -/
def stillWanted : Bool :=
  state.row.any fun job => job.status ≠ .failed

/-- The handler of a cancellation. -/
def handlerWrite : Write :=
  if state.userCancel then .markCancelled else .markFailed

/-- The thread ends without an archive: the part file goes, whatever it was. -/
def discard (build : BuildPhase) : ExportState :=
  { state with part := false, build := some build }

/-- A step of the thread. -/
def buildStep (label : ExportLabel) (build : BuildPhase) : Option ExportState :=
  match label, build with
  | .start, .queued =>
    if state.gateClosed then some { state with build := some (.returned false) }
    else some { state with build := some .resolving }
  | .resolve hasRoom raises, .resolving =>
    if raises then some { state with build := some .raised }
    else if state.row = none ∨ hasRoom = false then
      some { state with build := some (.returned false) }
    else some { state with build := some .writing }
  | .writeZip .complete, .writing => some { state with part := true, build := some .checking }
  | .writeZip .outOfSpace, .writing => some (state.discard (.returned false))
  | .writeZip .raises, .writing => some (state.discard .raised)
  | .check works, .checking =>
    if works = false then some (state.discard .raised)
    else if state.stillWanted then some { state with build := some .renaming }
    else some (state.discard (.returned false))
  | .rename works, .renaming =>
    if works then some { state with part := false, archive := true, build := some .recording }
    else some (state.discard .raised)
  | .record works, .recording =>
    if works then
      some { state with
        completions := state.completions + 1
        build := some (.returned true) }
    else some { state with build := some .raised }
  | _, _ => none

/-- A step of the task, without a cancellation.  `_settle` tries a write again that has not
landed. -/
def resume (raises : Bool) : Option ExportState :=
  match state.task with
  | .waiting =>
    match state.build with
    | some (.returned success) =>
      some { state with task := .settling (.recordResult success success) true false }
    | some .raised => some { state with task := .settling .markFailed false false }
    | _ => none
  | .settled write inBody cancelled landed =>
    if landed = false then some { state with task := .settling write inBody cancelled }
    else if cancelled = true ∧ inBody = true then
      some { state with task := .settling state.handlerWrite false false }
    else if cancelled = false ∧ inBody = true ∧ write.goesOn = true then
      some { state with task := .afterResult }
    else some { state with task := .over }
  | .afterResult =>
    if raises then some { state with task := .settling .markFailed false false }
    else some { state with task := .over }
  | _ => none

/-- A `CancelledError` reaches the task; `_settle` holds it back. -/
def deliver : Option ExportState :=
  let state := { state with cancelRequested := false }
  match state.task with
  | .settling write inBody _ => some { state with task := .settling write inBody true }
  | .settled write inBody _ landed => some { state with task := .settled write inBody true landed }
  | .over => none
  | _ => some { state with task := .settling state.handlerWrite false false }

/-- A call of `cancel_job` has awaited the task: an export that is still queued is not started, and
for one that has started the call goes on to await the thread. -/
def taskAwaited : Option ExportState :=
  if state.task = .over ∧ 0 < state.calls then
    some { state with
      calls := state.calls - 1
      userCancel := false
      gateClosed := state.gateClosed || state.build = some .queued }
  else none

end ExportState

/-- One atomic step. -/
def exportStep (state : ExportState) (label : ExportLabel) : Option ExportState :=
  match label with
  | .prepare works =>
    if state.task = .preparing ∧ state.cancelRequested = false then
      if works then some { state with task := .waiting, build := some .queued }
      else some { state with task := .settling .markFailed false false }
    else none
  | .resume raises => if state.cancelRequested then none else state.resume raises
  | .deliver => if state.cancelRequested then state.deliver else none
  | .write landed =>
    match state.task with
    | .settling write inBody cancelled =>
      some { state with
        task := .settled write inBody cancelled landed
        row := if landed then state.row.map write.apply else state.row }
    | _ => none
  | .cancelJob userRequested =>
    -- A job without a task is settled, and the call changes nothing.
    if state.task = .over then some state
    else
      some { state with
        cancelRequested := true
        userCancel := state.userCancel || userRequested
        calls := state.calls + 1 }
  | .taskAwaited => state.taskAwaited
  | .remove => some { state with row := none }
  | _ => state.build.bind (state.buildStep label)

abbrev ExportRuns := Steps exportStep

/-- The job has been claimed and its task has started. -/
def ExportState.initial : ExportState :=
  ⟨some ⟨true, .encoding, 0⟩, false, false, 0, false, none, .preparing, false, false, 0⟩

/-- The thread has found the row wanted. -/
def BuildPhase.passed : BuildPhase → Bool
  | .renaming => true
  | .recording => true
  | .returned success => success
  | _ => false

/-- The write under way fails the row for a cancel or an error. -/
def ExportState.failsRow (state : ExportState) : Bool :=
  match state.task with
  | .settling (.recordResult _ _) _ _ => false
  | .settling _ _ _ => state.row.any fun job => job.status ≠ .done
  | _ => false

/-- The row is not failed for a cancel or an error once the thread has found it wanted; and the
record of the completion does not fail. -/
def ExportState.Ordered (state : ExportState) : ExportLabel → Prop
  | .write true => state.failsRow = true → ∀ build ∈ state.build, build.passed = false
  | .record works => works = true
  | _ => True

instance (state : ExportState) : ∀ label, Decidable (state.Ordered label)
  | .write true => by
      unfold ExportState.Ordered
      infer_instance
  | .record works => by
      unfold ExportState.Ordered
      infer_instance
  | .write false | .prepare _ | .start | .resolve .. | .writeZip _ | .check _ | .rename _
  | .resume _ | .deliver | .cancelJob _ | .taskAwaited | .remove => isTrue trivial

/-! ## The invariant -/

/-- The result a task is about to record. -/
def ExportPhase.result : ExportPhase → Option (Bool × Bool)
  | .settling (.recordResult success hasOutput) _ _ => some (success, hasOutput)
  | .settled (.recordResult success hasOutput) _ _ _ => some (success, hasOutput)
  | _ => none

structure ExportState.Sound (state : ExportState) : Prop where
  preparing : state.task = .preparing → state.build = none
  /-- The thread does not pass by a failed row. -/
  failed : ∀ job ∈ state.row, job.status = .failed → ∀ build ∈ state.build, build.passed = false
  done : ∀ job ∈ state.row, job.status = .done → state.build = some (.returned true)
  archive : state.archive = true ↔
    state.build = some .recording ∨ state.build = some (.returned true)
  completions : state.completions ≠ 0 → state.build = some (.returned true)
  result : ∀ success hasOutput, state.task.result = some (success, hasOutput) →
    state.build = some (.returned success) ∧ hasOutput = success

section Steps

variable {state after : ExportState}

namespace ExportState

theorem Sound.initial : initial.Sound where
  preparing := by simp [ExportState.initial]
  failed := by simp [ExportState.initial]
  done := by simp [ExportState.initial]
  archive := by simp [ExportState.initial]
  completions := by simp [ExportState.initial]
  result := by simp [ExportState.initial, ExportPhase.result]

variable {build : BuildPhase}

section

variable (hSound : state.Sound)
include hSound

theorem Sound.thread {next : BuildPhase}
    (hBuild : state.build = some build) (hOpen : ∀ success, build ≠ .returned success)
    (hRow : after.row = state.row) (hTask : after.task = state.task)
    (hNext : after.build = some next)
    (hWanted : next.passed = true → ∀ job ∈ state.row, job.status ≠ .failed)
    (hArchive : after.archive = true ↔ next = .recording ∨ next = .returned true)
    (hCompletions : after.completions ≠ 0 → next = .returned true) : after.Sound := by
  have hNotReturned : ∀ success, state.build ≠ some (.returned success) := by
    intro success hSame
    rw [hBuild] at hSame
    exact hOpen success (Option.some.inj hSame)
  refine ⟨?_, ?_, ?_, ?_, ?_, ?_⟩
  · intro hPreparing
    rw [hTask] at hPreparing
    rw [hSound.preparing hPreparing] at hBuild
    cases hBuild
  · intro job hJob hFailed other hOther
    rw [hRow] at hJob
    cases hNext.symm.trans hOther
    rw [← Bool.not_eq_true]
    exact fun hPassed => hWanted hPassed job hJob hFailed
  · intro job hJob hDone
    rw [hRow] at hJob
    exact absurd (hSound.done job hJob hDone) (hNotReturned true)
  · rw [hNext]
    simpa using hArchive
  · intro hCount
    rw [hNext, hCompletions hCount]
  · intro success hasOutput hResult
    rw [hTask] at hResult
    exact absurd (hSound.result success hasOutput hResult).1 (hNotReturned success)

theorem Sound.completions_eq_zero
    (hBuild : state.build = some build) (hOpen : build ≠ .returned true) :
    state.completions = 0 := by
  by_contra hCount
  have hReturned := hSound.completions hCount
  rw [hBuild] at hReturned
  exact hOpen (Option.some.inj hReturned)

theorem Sound.archive_eq_false
    (hBuild : state.build = some build) (hRecording : build ≠ .recording)
    (hReturned : build ≠ .returned true) : state.archive = false := by
  rw [← Bool.not_eq_true, hSound.archive, hBuild]
  rintro (hSame | hSame)
  · exact hRecording (Option.some.inj hSame)
  · exact hReturned (Option.some.inj hSame)

theorem Sound.build_on {next : BuildPhase} {part : Bool}
    (hBuild : state.build = some build) (hOpen : ∀ success, build ≠ .returned success)
    (hRecording : build ≠ .recording) (hPassed : next.passed = false) :
    ({ state with part := part, build := some next } : ExportState).Sound := by
  have hArchive := hSound.archive_eq_false hBuild hRecording (hOpen true)
  have hCompletions := hSound.completions_eq_zero hBuild (hOpen true)
  refine hSound.thread hBuild hOpen rfl rfl rfl ?_ ?_ ?_
  · intro hPass
    rw [hPassed] at hPass
    cases hPass
  · simp only [hArchive, Bool.false_eq_true, false_iff, not_or]
    constructor
    all_goals
      rintro rfl
      cases hPassed
  · intro hCount
    exact absurd hCompletions hCount

theorem Sound.buildStep {label : ExportLabel}
    (hOrdered : state.Ordered label) (hBuild : state.build = some build)
    (hStep : state.buildStep label build = some after) : after.Sound := by
  unfold ExportState.buildStep at hStep
  split at hStep
  case h_1 | h_2 =>
    split_ifs at hStep
    all_goals
      cases hStep
      exact hSound.build_on hBuild nofun nofun rfl
  case h_3 | h_4 | h_5 =>
    cases hStep
    exact hSound.build_on hBuild nofun nofun rfl
  -- The look at the row: the archive goes on only if the row is not failed by then.
  next works =>
    have hArchive := hSound.archive_eq_false hBuild nofun nofun
    have hCompletions := hSound.completions_eq_zero hBuild nofun
    split_ifs at hStep with hWorks hWanted
    · cases hStep
      exact hSound.build_on hBuild nofun nofun rfl
    · cases hStep
      refine hSound.thread hBuild nofun rfl rfl rfl ?_ ?_ ?_
      · intro _ job hJob hFailed
        have hJob : state.row = some job := hJob
        simp [stillWanted, hJob, hFailed] at hWanted
      · simp [hArchive]
      · exact fun hCount => absurd hCompletions hCount
    · cases hStep
      exact hSound.build_on hBuild nofun nofun rfl
  next works =>
    have hCompletions := hSound.completions_eq_zero hBuild nofun
    split_ifs at hStep
    · cases hStep
      refine hSound.thread hBuild nofun rfl rfl rfl ?_ ?_ ?_
      · -- The row has not been failed since the look at it.
        intro _ job hJob hFailed
        cases hSound.failed job hJob hFailed _ hBuild
      · simp
      · exact fun hCount => absurd hCompletions hCount
    · cases hStep
      exact hSound.build_on hBuild nofun nofun rfl
  -- The record: the archive has its name, and `Ordered` rules out a record that fails.
  next works =>
    have hWorks : works = true := hOrdered
    have hArchive : state.archive = true := hSound.archive.mpr (Or.inl hBuild)
    rw [if_pos hWorks] at hStep
    cases hStep
    refine hSound.thread hBuild nofun rfl rfl rfl ?_ ?_ ?_
    · intro _ job hJob hFailed
      cases hSound.failed job hJob hFailed _ hBuild
    · simp [hArchive]
    · exact fun _ => rfl
  next => cases hStep

theorem Sound.handle {requested : Bool} : ({ state with
      task := .settling state.handlerWrite false false
      cancelRequested := requested } : ExportState).Sound := by
  refine { hSound with preparing := nofun, result := ?_ }
  unfold handlerWrite
  split
  · nofun
  · nofun

theorem Sound.resume {raises : Bool} (hStep : state.resume raises = some after) : after.Sound := by
  unfold ExportState.resume at hStep
  split at hStep
  next hTask =>
    split at hStep
    -- The thread has returned, and its result is what will be recorded.
    next success hBuild =>
      cases hStep
      refine { hSound with preparing := nofun, result := ?_ }
      intro other hasOutput hResult
      cases hResult
      exact ⟨hBuild, rfl⟩
    next =>
      cases hStep
      exact { hSound with preparing := nofun, result := nofun }
    next => cases hStep
  next write inBody cancelled landed hTask =>
    have hResult := hSound.result
    rw [hTask] at hResult
    split_ifs at hStep
    · -- The write did not land and is made again.
      cases hStep
      refine { hSound with preparing := nofun, result := ?_ }
      cases write with
      | recordResult => exact hResult
      | _ => nofun
    · cases hStep
      exact hSound.handle
    · -- The write failed in the body, so the handler writes, which records no result.
      cases hStep
      exact { hSound with preparing := nofun, result := nofun }
    · cases hStep
      exact { hSound with preparing := nofun, result := nofun }
  next =>
    split_ifs at hStep
    all_goals
      cases hStep
      exact { hSound with preparing := nofun, result := nofun }
  next => cases hStep

theorem Sound.deliver (hStep : state.deliver = some after) : after.Sound := by
  have hResult := hSound.result
  simp only [ExportState.deliver] at hStep
  split at hStep
  case h_1 write _ _ hTask | h_2 write _ _ _ hTask =>
    cases hStep
    refine { hSound with preparing := nofun, result := ?_ }
    rw [hTask] at hResult
    cases write with
    | recordResult => exact hResult
    | _ => nofun
  next => cases hStep
  next =>
    cases hStep
    exact hSound.handle

end

end ExportState

theorem Write.done_of_handler {write : Write} {job : RenderJob}
    (hHandler : ∀ success hasOutput, write ≠ .recordResult success hasOutput) :
    (write.apply job).status = .done ↔ job.status = .done := by
  cases write with
  | recordResult success hasOutput => exact absurd rfl (hHandler success hasOutput)
  | markFailed | markCancelled =>
    simp only [Write.apply, RenderJob.markFailed]
    split_ifs with hDone
    · rfl
    · simp [hDone]
  | markInterrupted withinGrace =>
    simp only [Write.apply, RenderJob.markInterrupted]
    split_ifs with hDone
    · rfl
    · simp [hDone]
    · simp [hDone]

theorem ExportState.Sound.record {success hasOutput inBody cancelled : Bool} (hSound : state.Sound)
    (hTask : state.task = .settling (.recordResult success hasOutput) inBody cancelled) :
    ({ state with
      task := .settled (.recordResult success hasOutput) inBody cancelled true
      row := state.row.map (Write.recordResult success hasOutput).apply } : ExportState).Sound := by
  have hResult : state.task.result = some (success, hasOutput) := by rw [hTask]; rfl
  obtain ⟨hBuild, rfl⟩ := hSound.result success hasOutput hResult
  refine ⟨nofun, ?_, ?_, hSound.archive, hSound.completions, ?_⟩
  · intro moved hMoved hFailed build hOther
    obtain ⟨job, -, rfl⟩ := Option.map_eq_some_iff.mp hMoved
    cases hBuild.symm.trans hOther
    cases hasOutput with
    | true => cases hFailed
    | false => rfl
  · intro moved hMoved hDone
    obtain ⟨job, -, rfl⟩ := Option.map_eq_some_iff.mp hMoved
    cases hasOutput with
    | true => exact hBuild
    | false => cases hDone
  · intro other output hSame
    cases hSame
    exact ⟨hBuild, rfl⟩

theorem ExportState.Sound.settle {write : Write} {inBody cancelled : Bool} (hSound : state.Sound)
    (hOrdered : state.Ordered (.write true)) (hTask : state.task = .settling write inBody cancelled)
    (hHandler : ∀ success hasOutput, write ≠ .recordResult success hasOutput) :
    ({ state with
      task := .settled write inBody cancelled true
      row := state.row.map write.apply } : ExportState).Sound := by
  refine ⟨nofun, ?_, ?_, hSound.archive, hSound.completions, ?_⟩
  · intro moved hMoved hFailed
    obtain ⟨job, hJob, rfl⟩ := Option.map_eq_some_iff.mp hMoved
    have hOpen : job.status ≠ .done := by
      intro hDone
      have hStill := (Write.done_of_handler hHandler).mpr hDone
      rw [hFailed] at hStill
      cases hStill
    have hFails : state.failsRow = true := by
      unfold ExportState.failsRow
      rw [hTask]
      cases write with
      | recordResult success hasOutput => exact absurd rfl (hHandler success hasOutput)
      | _ => simpa [hJob] using hOpen
    exact hOrdered hFails
  · intro moved hMoved hDone
    obtain ⟨job, hJob, rfl⟩ := Option.map_eq_some_iff.mp hMoved
    exact hSound.done job hJob ((Write.done_of_handler hHandler).mp hDone)
  · intro success hasOutput hSame
    cases write with
    | recordResult success hasOutput => exact absurd rfl (hHandler success hasOutput)
    | _ => cases hSame

theorem ExportState.Sound.submit (hSound : state.Sound) (hTask : state.task = .preparing) :
    ({ state with task := .waiting, build := some .queued } : ExportState).Sound := by
  have hNone := hSound.preparing hTask
  have hArchive : state.archive = false := by
    rw [← Bool.not_eq_true, hSound.archive, hNone]
    simp
  refine ⟨nofun, ?_, ?_, ?_, ?_, nofun⟩
  · intro job _ _ build hBuild
    cases hBuild
    rfl
  · intro job hJob hDone
    have hBuild := hSound.done job hJob hDone
    rw [hNone] at hBuild
    cases hBuild
  · simp [hArchive]
  · intro hCount
    have hBuild := hSound.completions hCount
    rw [hNone] at hBuild
    cases hBuild

theorem ExportState.Sound.step {label : ExportLabel} (hSound : state.Sound)
    (hStep : Guarded ExportRuns ExportState.Ordered state label after) : after.Sound := by
  obtain ⟨hRuns, hOrdered⟩ := hStep
  -- The six labels of the thread are one argument.
  have hThread : ∀ {label}, state.Ordered label →
      state.build.bind (state.buildStep label) = some after → after.Sound := by
    intro label hOrdered hBind
    obtain ⟨build, hBuild, hMove⟩ := Option.bind_eq_some_iff.mp hBind
    exact hSound.buildStep hOrdered hBuild hMove
  cases label with simp only [ExportRuns, Steps, exportStep] at hRuns
  | prepare works =>
    split_ifs at hRuns with hTask
    · cases hRuns
      exact hSound.submit hTask.1
    · cases hRuns
      exact { hSound with preparing := nofun, result := nofun }
  | start | resolve | writeZip | check | rename | record => exact hThread hOrdered hRuns
  | resume raises =>
    split_ifs at hRuns
    exact hSound.resume hRuns
  | deliver =>
    split_ifs at hRuns
    exact hSound.deliver hRuns
  | write landed =>
    split at hRuns
    next write inBody cancelled hTask =>
      cases landed with cases hRuns
      | false =>
        refine { hSound with preparing := nofun, result := ?_ }
        have hResult := hSound.result
        rw [hTask] at hResult
        cases write with
        | recordResult => exact hResult
        | _ => nofun
      | true =>
        -- Recording the result leaves the row done exactly if the archive is there; every other
        -- write fails the row, which `Ordered` allows only before the look.
        cases write with
        | recordResult => exact hSound.record hTask
        | _ => exact hSound.settle hOrdered hTask nofun
    next => cases hRuns
  | cancelJob userRequested =>
    split_ifs at hRuns
    · cases hRuns
      exact hSound
    · cases hRuns
      exact { hSound with }
  | taskAwaited =>
    unfold ExportState.taskAwaited at hRuns
    split_ifs at hRuns
    cases hRuns
    exact { hSound with }
  | remove =>
    cases hRuns
    exact { hSound with failed := nofun, done := nofun }

end Steps

/-- Over every interleaving in which a cancel or an error fails the row before the thread has found
it wanted, a failed row has neither an archive nor a completion event, and a done row has its
archive. -/
theorem archive_iff_done {labels : List ExportLabel} {state : ExportState}
    (hRun : Run (Guarded ExportRuns ExportState.Ordered) ExportState.initial labels state) :
    ∀ job ∈ state.row,
      (job.status = .failed → state.archive = false ∧ state.completions = 0) ∧
        (job.status = .done → state.archive = true) := by
  have hSound := hRun.invariant ExportState.Sound (fun _ _ _ hStart hStep => hStart.step hStep)
    ExportState.Sound.initial
  intro job hJob
  constructor
  · intro hFailed
    have hNotPassed := hSound.failed job hJob hFailed
    constructor
    · rw [← Bool.not_eq_true, hSound.archive]
      rintro (hBuild | hBuild)
      all_goals cases hNotPassed _ hBuild
    · by_contra hCount
      cases hNotPassed _ (hSound.completions hCount)
  · intro hDone
    exact hSound.archive.mpr (Or.inr (hSound.done job hJob hDone))

/-- An export is prepared and written, and its row found wanted. -/
def wantedExport : List ExportLabel :=
  [.prepare true, .start, .resolve true false, .writeZip .complete, .check true]

/-- The cancel comes while the zip is being written: the thread discards it. -/
theorem archive_iff_done_cancelled :
    ∃ state job, Run (Guarded ExportRuns ExportState.Ordered) ExportState.initial
        [.prepare true, .start, .resolve true false, .cancelJob true, .deliver, .write true,
          .resume false, .taskAwaited, .writeZip .complete, .check true] state ∧
      state.row = some job ∧ job.status = .failed ∧ state.build = some (.returned false) ∧
      state.archive = false ∧ state.completions = 0 := by
  have hEnd : ∃ state ∈ exec (checked exportStep ExportState.Ordered) ExportState.initial
      [.prepare true, .start, .resolve true false, .cancelJob true, .deliver, .write true,
        .resume false, .taskAwaited, .writeZip .complete, .check true],
      state.row = some ⟨true, .failed, 0⟩ ∧ state.build = some (.returned false) := by
    decide +kernel
  obtain ⟨state, hExec, hRow, hBuild⟩ := hEnd
  have hRun := Run.of_exec_checked hExec
  obtain ⟨hArchive, hCompletions⟩ := (archive_iff_done hRun _ hRow).1 rfl
  exact ⟨state, _, hRun, hRow, rfl, hBuild, hArchive, hCompletions⟩

/-- The cancel fails the row between the thread's look at it and the rename: the task and the thread
have ended, and the archive and its completion event are there. -/
theorem archive_under_failed_row :
    ∃ state job, Run ExportRuns ExportState.initial
        (wantedExport ++ [.cancelJob true, .deliver, .write true, .resume false, .taskAwaited,
          .rename true, .record true]) state ∧
      state.row = some job ∧ job.status = .failed ∧ state.task = .over ∧
      state.build = some (.returned true) ∧ state.archive = true ∧ state.completions = 1 := by
  have hSome : exec exportStep ExportState.initial
      (wantedExport ++ [.cancelJob true, .deliver, .write true, .resume false, .taskAwaited,
        .rename true, .record true]) =
      some ⟨some ⟨true, .failed, 0⟩, false, true, 1, false, some (.returned true), .over, false,
        false, 0⟩ := by decide +kernel
  exact ⟨_, _, Run.of_steps hSome, rfl, rfl, rfl, rfl, rfl, rfl⟩

end TimelapseManager.Render
