import TimelapseManager.Render.QueueSlots

/-!
# The failure events of render jobs

A job that fails is reported by a `render.failed` event, which is written in the transaction that
fails its row: by the task of the job, by a sweep of orphans, or by a cancel of an orphan that no
user asked for.  A job has at most one event (`failure_reported_once`) as long as a handler of
`_run_job` does not fail a row again which the `try` block has failed already (`FailsOnce`).
-/

namespace TimelapseManager.Render

open KeyedRows Runs

/-! ## What is written -/

/-- The terminal write reports a failure. -/
def Write.reports : Write → RenderJob → Bool
  | .recordResult success hasOutput, _ => !(success && hasOutput)
  | .markFailed, job => job.status ≠ .done
  | .markCancelled, _ => false
  | .markInterrupted withinGrace, job =>
    job.status ≠ .done ∧ ¬(withinGrace = true ∧ job.status = .encoding ∧ job.isExport = false ∧
      job.shutdownRequeues < maxShutdownRequeues)

namespace QueueState

variable (state : QueueState)

/-- `_flip_if_sync` with a reason: the event comes with the move. -/
def orphanEvents (id : ℕ) : List ℕ :=
  if (state.table.job? id).any fun job => job.status = .encoding then [id] else []

/-- The jobs that a `render.failed` event is written for by the step with a label. -/
def failureEvents : Label → List ℕ
  | .drainThread =>
    match state.drain with
    | .reclaimFailing (id :: _) => state.orphanEvents id
    | .sweepFailing (id :: _) => state.orphanEvents id
    | _ => []
  | .strayFlip =>
    match state.strayFlips with
    | id :: _ => state.orphanEvents id
    | [] => []
  | .callThread call =>
    match state.calls.get? call with
    | some ⟨id, false, .failingOrphan⟩ => state.orphanEvents id
    | _ => []
  | .write id true =>
    match (state.tasks.get? id).map JobTask.phase with
    | some (.settling write _ _) =>
      if (state.table.job? id).any write.reports then [id] else []
    | _ => []
  | _ => []

end QueueState

/-- The queue and the failure events of its run, latest first. -/
structure ReportedQueue where
  queue : QueueState
  failures : List ℕ

def reportedStep (capacity : Semaphore → ℕ) (state : ReportedQueue) (label : Label) :
    Option ReportedQueue :=
  (step capacity state.queue label).map fun queue =>
    ⟨queue, state.queue.failureEvents label ++ state.failures⟩

abbrev ReportedStep (capacity : Semaphore → ℕ) := Steps (reportedStep capacity)

def ReportedQueue.boot (capacity : Semaphore → ℕ) (table : JobTable) : ReportedQueue :=
  ⟨.boot capacity table, []⟩

/-! ## Handlers that find the row failed -/

/-- The row of the job is failed. -/
def QueueState.RowFailed (state : QueueState) (id : ℕ) : Prop :=
  ∃ job ∈ state.table.job? id, job.status = .failed

instance (state : QueueState) (id : ℕ) : Decidable (state.RowFailed id) :=
  inferInstanceAs (Decidable (∃ job ∈ state.table.job? id, _))

/-- A task whose row its `try` block has failed does not go on to a handler that fails it again. -/
def FailsOnce (state : QueueState) : Label → Prop
  | .run id outcome _ =>
    ∀ task ∈ state.tasks.get? id,
      task.phase.failsAgain outcome (id ∈ state.userCancels) = true → ¬state.RowFailed id
  | .deliver id _ =>
    ∀ task ∈ state.tasks.get? id,
      task.phase = .afterResult → id ∉ state.userCancels → ¬state.RowFailed id
  | _ => True

instance (state : QueueState) : ∀ label, Decidable (FailsOnce state label)
  | .run id outcome _ => by
      unfold FailsOnce
      infer_instance
  | .deliver id _ => by
      unfold FailsOnce
      infer_instance
  | .enqueue _ | .remove _ | .drainThread | .drainLoop | .drainError | .drainUnwind | .strayFlip
  | .strayClaim | .write .. | .cancelJob .. | .callLocked _ | .callThread _ | .callError _
  | .callReturns _ | .stop | .restart => isTrue trivial

/-- No handler is about to report the failure of a row that is failed. -/
def FreshReports (state : QueueState) : Prop :=
  ∀ id task, state.tasks.get? id = some task → task.phase.reporting = true → ¬state.RowFailed id

variable {capacity : Semaphore → ℕ}

section Fresh

variable {state after : QueueState} {label : Label} {id : ℕ} {task : JobTask}

theorem phase_before (hActs : Acts state label after) (hLabel : label.ofTask = false)
    (hTask : after.tasks.get? id = some task) :
    task.phase = .created ∨
      ∃ before, state.tasks.get? id = some before ∧ before.phase = task.phase := by
  cases hActs with
  | quiet _ hTasks | acquire semaphore hPositive _ hTasks | giveBack semaphore _ hTasks =>
    rw [hTasks] at hTask
    exact Or.inr ⟨task, hTask, rfl⟩
  | launch semaphore launched _ _ _ hTasks =>
    rw [hTasks] at hTask
    rcases Dict.of_get?_set hTask with ⟨-, rfl⟩ | ⟨-, hOld⟩
    · exact Or.inl rfl
    · exact Or.inr ⟨task, hOld, rfl⟩
  | progress moved before next _ _ _ _ _ _ _ hOfTask =>
    rw [hOfTask] at hLabel
    cases hLabel
  | finish finished before _ _ _ hTasks =>
    rw [hTasks] at hTask
    exact Or.inr ⟨task, (Dict.of_get?_erase hTask).2, rfl⟩
  | cancel _ _ hTasks =>
    rcases hTasks id with hSame | ⟨-, hCancelled⟩
    · exact Or.inr ⟨task, hSame ▸ hTask, rfl⟩
    · exact Or.inr (Consistent.phase_of_cancel (hCancelled ▸ hTask))
  | restart capacity hAfter =>
    rw [hAfter] at hTask
    cases hTask

theorem not_rowFailed_of_unwritten (h : Consistent state) (hTask : state.tasks.get? id = some task)
    (hUnwritten : task.phase.unwritten = true) : ¬state.RowFailed id := by
  rintro ⟨job, hJob, hFailed⟩
  have hEncoding := (h.rows id task job hTask hJob).unwritten hUnwritten
  rw [hFailed] at hEncoding
  cases hEncoding

theorem fresh_of_goOn {phase : TaskPhase} {again : Prop} (h : Consistent state)
    (hFresh : FreshReports state) (hTask : state.tasks.get? id = some task)
    (hContinues : Continues state.stopped task.phase phase again)
    (hSpares : again → ¬state.RowFailed id) (hReporting : phase.reporting = true) :
    ¬state.RowFailed id := by
  rcases hContinues.reporting hReporting with hOld | hUnwritten | hAgain
  · exact hFresh id task hTask hOld
  · exact not_rowFailed_of_unwritten h hTask hUnwritten
  · exact hSpares hAgain

theorem rowFailed_of_step (h : Consistent state) (hStep : step capacity state label = some after)
    (hTask : state.tasks.get? id = some task) (hLabel : label ≠ .write id true)
    (hAfter : after.RowFailed id) : state.RowFailed id := by
  obtain ⟨moved, hMoved, hFailed⟩ := hAfter
  have hWrites := (effects_of_step h hStep).writes
  obtain ⟨job, hJob, -⟩ := move_of_writes h hWrites (h.known id task hTask) hMoved
  refine ⟨job, hJob, ?_⟩
  by_contra hStatus
  have hFree := untracked_of_failed hWrites hJob hMoved hStatus hFailed hLabel
  rw [hTask] at hFree
  cases hFree

theorem fresh_of_step (h : Consistent state) (hFresh : FreshReports state)
    (hSpares : FailsOnce state label) (hStep : step capacity state label = some after) :
    FreshReports after := by
  intro id next hNext hReporting hAfter
  -- A task that was in the same phase before, and did not write now.
  have hOld : ∀ {before}, state.tasks.get? id = some before → before.phase = next.phase →
      label ≠ .write id true → False := by
    intro before hBefore hPhase hLabel
    have hFailed := rowFailed_of_step h hStep hBefore hLabel hAfter
    exact hFresh id before hBefore (hPhase ▸ hReporting) hFailed
  by_cases hOfTask : label.ofTask = false
  · have hLabel : label ≠ .write id true := by
      rintro rfl
      cases hOfTask
    have hActs := (effects_of_step h hStep).acts
    rcases phase_before hActs hOfTask hNext with hCreated | ⟨before, hBefore, hPhase⟩
    · rw [hCreated] at hReporting
      cases hReporting
    · exact hOld hBefore hPhase hLabel
  have hBefore : ∀ {task}, state.tasks.get? id = some task → label ≠ .write id true →
      state.RowFailed id :=
    fun hTask hLabel => rowFailed_of_step h hStep hTask hLabel hAfter
  -- What is left are the steps of one task, which is the job's own or another's.
  cases moves_of_step hStep with
  | @run other task _ _ _ hTask _ hRun =>
    rcases h.runTask_cases hTask hRun with ⟨phase, rfl, -, hContinues⟩ | ⟨-, rfl⟩
    · rcases Dict.of_get?_set hNext with ⟨rfl, rfl⟩ | ⟨-, hGet⟩
      · exact fresh_of_goOn h hFresh hTask hContinues (hSpares task hTask) hReporting
          (hBefore hTask nofun)
      · exact hOld hGet rfl nofun
    · exact hOld (Dict.of_get?_erase hNext).2 rfl nofun
  | @deliver other task _ _ hTask _ hDeliver =>
    obtain ⟨phase, rfl, -, hContinues⟩ := h.deliver_cases hTask hDeliver
    rcases Dict.of_get?_set hNext with ⟨rfl, rfl⟩ | ⟨-, hGet⟩
    · exact fresh_of_goOn h hFresh hTask hContinues
        (fun hAgain => hSpares task hTask hAgain.1 hAgain.2) hReporting (hBefore hTask nofun)
    · exact hOld hGet rfl nofun
  | write hTask hPhase =>
    next other task write inBody cancelled landed =>
      rcases Dict.of_get?_set hNext with ⟨rfl, rfl⟩ | ⟨hId, hGet⟩
      · -- It reports again only because the write did not land.
        have hNot : landed = false := by
          cases landed with
          | false => rfl
          | true => simp [TaskPhase.reporting] at hReporting
        refine hFresh id task hTask ?_ (hBefore hTask (by simp [hNot]))
        rw [hPhase]
        simpa [TaskPhase.reporting, hNot] using hReporting
      · exact hOld hGet rfl (by simp [Ne.symm hId])
  | _ => exact absurd rfl hOfTask

end Fresh

/-! ## At most one event -/

section Once

variable {state after : QueueState} {label : Label} {id : ℕ}

/-- The events of a step are none, or one that comes with the failure of an `encoding` row. -/
def Reports (state after : QueueState) (events : List ℕ) : Prop :=
  events = [] ∨ ∃ id job, events = [id] ∧ state.table.job? id = some job ∧
    job.status = .encoding ∧ after.table.job? id = some { job with status := .failed }

theorem reports_orphan (hTable : after.table = state.table.update id (RenderJob.flipIf .encoding)) :
    Reports state after (state.orphanEvents id) := by
  unfold QueueState.orphanEvents
  cases hJob : state.table.job? id with
  | none => exact Or.inl (by simp)
  | some job =>
    by_cases hEncoding : job.status = .encoding
    · refine Or.inr ⟨id, job, by simp [hEncoding], hJob, hEncoding, ?_⟩
      rw [hTable, JobTable.job?_update, if_pos rfl, hJob]
      simp [RenderJob.flipIf, hEncoding]
    · exact Or.inl (by simp [hEncoding])

theorem Write.apply_of_reports {write : Write} {job : RenderJob}
    (hReports : write.reports job = true) : write.apply job = { job with status := .failed } := by
  cases write with
  | recordResult success hasOutput =>
    have hNot : (success && hasOutput) = false := by
      simpa only [Write.reports, Bool.not_eq_true'] using hReports
    simp [Write.apply, RenderJob.recordResult, hNot]
  | markFailed =>
    have hDone : job.status ≠ .done := by simpa [Write.reports] using hReports
    simp [Write.apply, RenderJob.markFailed, hDone]
  | markCancelled => cases hReports
  | markInterrupted withinGrace =>
    obtain ⟨hDone, hKept⟩ := of_decide_eq_true hReports
    change RenderJob.markInterrupted withinGrace job = _
    unfold RenderJob.markInterrupted
    rw [if_neg hDone, if_neg hKept]

theorem encoding_of_reports (h : Consistent state) (hFresh : FreshReports state) {task : JobTask}
    {write : Write} {inBody cancelled : Bool} {job : RenderJob}
    (hTask : state.tasks.get? id = some task)
    (hPhase : task.phase = .settling write inBody cancelled) (hJob : state.table.job? id = some job)
    (hReports : write.reports job = true) : job.status = .encoding := by
  have hFits := h.rows id task job hTask hJob
  have hReporting := hFresh id task hTask
  rw [hPhase] at hFits hReporting
  cases inBody with
  | true => exact hFits.unwritten rfl
  | false =>
    have hCancelled : write ≠ .markCancelled := by
      rintro rfl
      cases hReports
    cases hStatus : job.status with
    | encoding => rfl
    | failed =>
      exact absurd ⟨job, hJob, hStatus⟩ (hReporting (by simp [TaskPhase.reporting, hCancelled]))
    | pending => cases (hFits.pending hStatus).1
    | done =>
      have hProper := h.proper id task hTask
      rw [hPhase] at hProper
      cases write with
      | recordResult => cases hProper
      | markFailed | markInterrupted => simp [Write.reports, hStatus] at hReports
      | markCancelled => exact absurd rfl hCancelled

theorem reports_of_step (h : Consistent state) (hFresh : FreshReports state)
    (hStep : step capacity state label = some after) :
    Reports state after (state.failureEvents label) := by
  cases moves_of_step hStep with
  | drainThread hThread =>
    unfold QueueState.failureEvents
    unfold QueueState.drainThread at hThread
    dsimp only
    -- The startup sweep and the live one fail a row each.
    split
    case h_1 hDrain | h_2 hDrain =>
      rw [hDrain] at hThread
      cases hThread
      exact reports_orphan rfl
    case h_3 => exact Or.inl rfl
  | strayFlip hStrays =>
    unfold QueueState.failureEvents
    simp only [hStrays]
    exact reports_orphan rfl
  | callThread hCall hThread =>
    unfold QueueState.failureEvents
    dsimp only
    split
    next id hFailing =>
      rw [hCall] at hFailing
      cases hFailing
      cases hThread
      exact reports_orphan rfl
    next => exact Or.inl rfl
  | write hTask hPhase =>
    next id task write inBody cancelled landed =>
      cases landed with
      | false => exact Or.inl rfl
      | true =>
        unfold QueueState.failureEvents
        simp only [hTask, Option.map_some, hPhase]
        cases hJob : state.table.job? id with
        | none => exact Or.inl (by simp)
        | some job =>
          by_cases hReports : write.reports job = true
          · -- A write that reports finds the row encoding and fails it.
            refine Or.inr ⟨id, job, by simp [hReports], hJob,
              encoding_of_reports h hFresh hTask hPhase hJob hReports, ?_⟩
            change (state.table.update id write.apply).job? id = _
            rw [JobTable.job?_update, if_pos rfl, hJob, Option.map_some,
              Write.apply_of_reports hReports]
          · exact Or.inl (by simp [hReports])
  | _ => exact Or.inl rfl

end Once

/-- A job has been reported at most once, and only if its row is failed. -/
structure ReportedQueue.Once (state : ReportedQueue) : Prop where
  consistent : Consistent state.queue
  fresh : FreshReports state.queue
  known : ∀ id ∈ state.failures, id ≤ state.queue.table.lastId
  failed : ∀ id ∈ state.failures, ∀ job, state.queue.table.job? id = some job → job.status = .failed
  nodup : state.failures.Nodup

section Runs

variable {capacity : Semaphore → ℕ} {state after : ReportedQueue} {label : Label}

theorem ReportedQueue.Once.boot (table : JobTable) : (ReportedQueue.boot capacity table).Once where
  consistent := Consistent.boot capacity table
  fresh := by
    intro id task hTask
    cases hTask
  known := by simp [ReportedQueue.boot]
  failed := by simp [ReportedQueue.boot]
  nodup := List.nodup_nil

theorem ReportedQueue.Once.step (hOnce : state.Once)
    (hStep : Guarded (ReportedStep capacity) (fun before => FailsOnce before.queue) state label
      after) : after.Once := by
  obtain ⟨hStep, hSpares⟩ := hStep
  obtain ⟨queue, hQueue, rfl⟩ := Option.map_eq_some_iff.mp hStep
  have hLast := lastId_le_of_writes (effects_of_step hOnce.consistent hQueue).writes
  have hKnown : ∀ id ∈ state.failures, id ≤ queue.table.lastId :=
    fun id hMem => Nat.le_trans (hOnce.known id hMem) hLast
  have hFailed : ∀ id ∈ state.failures, ∀ job, queue.table.job? id = some job →
      job.status = .failed := by
    intro id hMem moved hMoved
    obtain ⟨job, hJob, hMove⟩ := move_of_writes hOnce.consistent
      (effects_of_step hOnce.consistent hQueue).writes (hOnce.known id hMem) hMoved
    have hFailed := hOnce.failed id hMem job hJob
    rw [hMove.eq_of_settled (Or.inr hFailed)]
    exact hFailed
  have hConsistent := consistent_of_step hOnce.consistent hQueue
  have hFresh := fresh_of_step hOnce.consistent hOnce.fresh hSpares hQueue
  rcases reports_of_step hOnce.consistent hOnce.fresh hQueue with
    hNone | ⟨id, job, hOne, hJob, hEncoding, hAfter⟩
  · rw [hNone, List.nil_append]
    exact ⟨hConsistent, hFresh, hKnown, hFailed, hOnce.nodup⟩
  · rw [hOne, List.singleton_append]
    have hNew : id ∉ state.failures := by
      intro hMem
      have hStatus := hOnce.failed id hMem job hJob
      rw [hEncoding] at hStatus
      cases hStatus
    refine ⟨hConsistent, hFresh, ?_, ?_, List.nodup_cons.mpr ⟨hNew, hOnce.nodup⟩⟩
    · refine List.forall_mem_cons.mpr ⟨?_, hKnown⟩
      exact Nat.le_trans (JobTable.le_of_job? hJob) hLast
    · refine List.forall_mem_cons.mpr ⟨fun moved hMoved => ?_, hFailed⟩
      have hMoved : queue.table.job? id = some moved := hMoved
      rw [hAfter] at hMoved
      cases hMoved
      rfl

end Runs

/-- Over every interleaving in which no handler fails a row again, a job has at most one
`render.failed` event, and none while its row is pending, `encoding` or done. -/
theorem failure_reported_once {capacity : Semaphore → ℕ} {table : JobTable} {labels : List Label}
    {state : ReportedQueue}
    (hRun : Run (Guarded (ReportedStep capacity) fun before => FailsOnce before.queue)
      (ReportedQueue.boot capacity table) labels state) (id : ℕ) :
    state.failures.count id ≤ 1 ∧
      ∀ job, state.queue.table.job? id = some job → job.status ≠ .failed →
        state.failures.count id = 0 := by
  have hOnce := hRun.invariant ReportedQueue.Once (fun _ _ _ hStart hStep => hStart.step hStep)
    (ReportedQueue.Once.boot table)
  refine ⟨List.nodup_iff_count_le_one.mp hOnce.nodup id, ?_⟩
  intro job hJob hStatus
  apply List.count_eq_zero_of_not_mem
  intro hMem
  exact hStatus (hOnce.failed id hMem job hJob)

/-- A render is launched, and its encoder returns a failure. -/
def failedRender : List Label :=
  launchFirst ++ [.run 1 .refused false, .run 1 (.returns false false) false]

/-- The failure is written and reported, and the task ends. -/
theorem failure_reported_once_settled :
    ∃ state, Run (Guarded (ReportedStep oneSlot) fun before => FailsOnce before.queue)
        (ReportedQueue.boot oneSlot noJobs)
        (failedRender ++ [.write 1 true, .run 1 .refused false]) state ∧
      state.failures = [1] ∧ state.failures.count 1 ≤ 1 := by
  refine Run.exists_of_checked (P := fun state => state.failures = [1]) (by decide +kernel) ?_
  exact fun state hRun hFailures => ⟨hFailures, (failure_reported_once hRun 1).1⟩

/-- The service stops while the failure is being written: the handler of the cancellation fails the
row again, as a render that the stop has interrupted. -/
theorem failure_reported_twice :
    ∃ state, Run (ReportedStep oneSlot) (ReportedQueue.boot oneSlot noJobs)
        (failedRender ++ [.stop, .deliver 1 true, .write 1 true, .run 1 .refused true,
          .write 1 true]) state ∧ state.failures.count 1 = 2 :=
  Run.exists_of_exec (by decide +kernel)

end TimelapseManager.Render
