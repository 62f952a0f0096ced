import TimelapseManager.Render.QueueSteps

/-!
# The life of a job row

`Move` are the moves of the row of one job.  Every transaction of the queue makes one of them
(`move_of_writes`), so what the moves keep, every run keeps (`rowAlways_of_run`), restarts
included.  With it:

* a row that is done or failed stays as it is;
* a row goes back to pending at most once;
* a job that was cancelled while pending gets no task any more (`Buried`).
-/

namespace TimelapseManager.Render

open KeyedRows Runs

/-- The moves of a row, in a queue that is stopping or not, by the step with a label. -/
inductive Move (stopped : Bool) (label : Label) : RenderJob → RenderJob → Prop
  | stay (job : RenderJob) : Move stopped label job job
  | claim (job : RenderJob) (hPending : job.status = .pending) :
      Move stopped label job { job with status := .encoding }
  | finish (job : RenderJob) (hEncoding : job.status = .encoding) :
      Move stopped label job { job with status := .done }
  | fail (job : RenderJob) (hEncoding : job.status = .encoding) :
      Move stopped label job { job with status := .failed }
  | requeue (job : RenderJob) (hEncoding : job.status = .encoding) (hStopped : stopped = true)
      (hFirst : job.shutdownRequeues = 0) :
      Move stopped label job { job with status := .pending, shutdownRequeues := 1 }
  | cancel (job : RenderJob) (hPending : job.status = .pending)
      (hCall : ∃ call, label = .callThread call) :
      Move stopped label job { job with status := .failed }

variable {stopped : Bool}

section Rows

variable {state : QueueState} {label : Label} {table : JobTable} {id : ℕ} {job moved : RenderJob}

/-! ## One step -/

/-- What a step writes into the row of a job. -/
inductive RowWrite (state : QueueState) (label : Label) (id : ℕ) : RenderJob → RenderJob → Prop
  | kept (job : RenderJob) : RowWrite state label id job job
  | orphan (job : RenderJob) (hFree : state.tasks.get? id = none) :
      RowWrite state label id job (job.flipIf .encoding)
  | cancel (job : RenderJob) (hFree : state.tasks.get? id = none)
      (hCall : ∃ call, label = .callThread call) :
      RowWrite state label id job (job.flipIf .pending)
  | claim (job : RenderJob) : RowWrite state label id job job.claim
  | settle (job : RenderJob) {task : JobTask} {write : Write} {inBody cancelled : Bool}
      (hLabel : label = .write id true) (hTask : state.tasks.get? id = some task)
      (hPhase : task.phase = .settling write inBody cancelled) :
      RowWrite state label id job (write.apply job)

theorem rowWrite_of_update {other : ℕ} {change : RenderJob → RenderJob}
    (hChange : ∀ job, id = other → RowWrite state label id job (change job))
    (hAfter : (state.table.update other change).job? id = some moved) :
    ∃ job, state.table.job? id = some job ∧ RowWrite state label id job moved := by
  rw [JobTable.job?_update] at hAfter
  split at hAfter
  next hId =>
    obtain ⟨job, hJob, rfl⟩ := Option.map_eq_some_iff.mp hAfter
    exact ⟨job, hJob, hChange job hId⟩
  next => exact ⟨moved, hAfter, .kept moved⟩

theorem Writes.row (hWrites : Writes state label table) (hAfter : table.job? id = some moved) :
    (∃ job, state.table.job? id = some job ∧ RowWrite state label id job moved) ∨
      (state.table.lastId < id ∧ moved.status = .pending ∧ moved.shutdownRequeues = 0) := by
  cases hWrites with
  | nothing => exact Or.inl ⟨moved, hAfter, .kept moved⟩
  | enqueue isExport =>
    rw [JobTable.job?_enqueue] at hAfter
    split at hAfter
    next hId =>
      cases hAfter
      exact Or.inr ⟨by omega, rfl, rfl⟩
    next => exact Or.inl ⟨moved, hAfter, .kept moved⟩
  | remove other =>
    rw [JobTable.job?_remove] at hAfter
    split at hAfter
    next => cases hAfter
    next => exact Or.inl ⟨moved, hAfter, .kept moved⟩
  | orphan _ other hFree =>
    exact Or.inl (rowWrite_of_update (fun job hId => .orphan job (hId ▸ hFree)) hAfter)
  | cancel call other hFree =>
    exact Or.inl (rowWrite_of_update (fun job hId => .cancel job (hId ▸ hFree) ⟨call, rfl⟩) hAfter)
  | claim =>
    exact Or.inl (rowWrite_of_update (fun job _ => .claim job) hAfter)
  | settle other task write inBody cancelled hTask hPhase =>
    refine Or.inl (rowWrite_of_update ?_ hAfter)
    rintro job rfl
    exact .settle job rfl hTask hPhase

theorem move_of_flip (job : RenderJob) : Move stopped label job (job.flipIf .encoding) := by
  unfold RenderJob.flipIf
  split
  next hEncoding => exact .fail job hEncoding
  next => exact .stay job

theorem move_of_settle (h : Consistent state) {task : JobTask} {write : Write}
    {inBody cancelled : Bool} (hTask : state.tasks.get? id = some task)
    (hPhase : task.phase = .settling write inBody cancelled)
    (hJob : state.table.job? id = some job) : Move state.stopped label job (write.apply job) := by
  have hFits := h.rows id task job hTask hJob
  have hProper := h.proper id task hTask
  rw [hPhase] at hFits hProper
  have hResult : (∃ success hasOutput, write = .recordResult success hasOutput) →
      job.status = .encoding := by
    rintro ⟨success, hasOutput, rfl⟩
    exact hFits.unwritten hProper
  rcases Write.apply_cases write job with
    ⟨-, hApply⟩ | ⟨hDone, hApply⟩ | ⟨success, hasOutput, hWrite, hApply⟩ |
      ⟨withinGrace, rfl, hEncoding, hFirst, hApply⟩
  · rw [hApply]
    exact .stay job
  · rw [hApply]
    cases hStatus : job.status with
    | encoding => exact .fail job hStatus
    | failed =>
      have hSame : ({ job with status := .failed } : RenderJob) = job := by rw [← hStatus]
      rw [hSame]
      exact .stay job
    | pending =>
      obtain ⟨hRequeued, -⟩ := hFits.pending hStatus
      cases hRequeued
    | done =>
      have hEncoding := hResult (hDone hStatus)
      rw [hStatus] at hEncoding
      cases hEncoding
  · rw [hApply]
    exact .finish job (hResult ⟨success, hasOutput, hWrite⟩)
  · have hZero : job.shutdownRequeues = 0 := Nat.lt_one_iff.mp hFirst
    rw [hApply, hZero]
    exact .requeue job hEncoding hProper.2 hZero

theorem move_of_writes (h : Consistent state) (hWrites : Writes state label table)
    (hLe : id ≤ state.table.lastId) (hAfter : table.job? id = some moved) :
    ∃ job, state.table.job? id = some job ∧ Move state.stopped label job moved := by
  rcases hWrites.row hAfter with ⟨job, hJob, hRow⟩ | ⟨hNew, -⟩
  · refine ⟨job, hJob, ?_⟩
    cases hRow with
    | kept => exact .stay _
    | orphan => exact move_of_flip job
    | cancel _ hCall =>
      unfold RenderJob.flipIf
      split
      next hPending => exact .cancel job hPending hCall
      next => exact .stay job
    | claim =>
      unfold RenderJob.claim
      split
      next hStatus => exact .claim job hStatus
      next => exact .stay job
    | settle _ hTask hPhase => exact move_of_settle h hTask hPhase hJob
  · omega

theorem Writes.row_of_some (hWrites : Writes state label table)
    (hBefore : state.table.job? id = some job) (hAfter : table.job? id = some moved) :
    RowWrite state label id job moved := by
  rcases hWrites.row hAfter with ⟨found, hFound, hRow⟩ | ⟨hNew, -⟩
  · rw [hBefore] at hFound
    cases hFound
    exact hRow
  · have hLe := JobTable.le_of_job? hBefore
    omega

theorem untracked_of_failed (hWrites : Writes state label table)
    (hBefore : state.table.job? id = some job) (hAfter : table.job? id = some moved)
    (hStatus : job.status ≠ .failed) (hFailed : moved.status = .failed)
    (hLabel : label ≠ .write id true) : state.tasks.get? id = none := by
  cases hWrites.row_of_some hBefore hAfter with
  | kept => exact absurd hFailed hStatus
  | orphan hFree | cancel hFree => exact hFree
  | claim =>
    unfold RenderJob.claim at hFailed
    split at hFailed
    next => cases hFailed
    next => exact absurd hFailed hStatus
  | settle hWrite => exact absurd hWrite hLabel

theorem lastId_le_of_writes (hWrites : Writes state label table) :
    state.table.lastId ≤ table.lastId := by
  cases hWrites with
  | enqueue isExport => exact Nat.le_succ _
  | remove | nothing | orphan | cancel | claim | settle => exact Nat.le_refl _

end Rows

/-! ## Runs -/

/-- The row of a job is of a kind, as long as it is there.  Its id is not given to another. -/
structure RowAlways (kind : RenderJob → Prop) (id : ℕ) (state : QueueState) : Prop where
  known : id ≤ state.table.lastId
  row : ∀ job, state.table.job? id = some job → kind job

section Runs

variable {capacity : Semaphore → ℕ} {state after : QueueState} {label : Label}
  {labels : List Label} {id : ℕ} {job moved : RenderJob} {kind : RenderJob → Prop}

theorem rowAlways_of_step
    (hKind : ∀ {stopped label job moved}, kind job → Move stopped label job moved → kind moved)
    (h : Consistent state) (hRow : RowAlways kind id state)
    (hStep : step capacity state label = some after) : RowAlways kind id after := by
  have hWrites := (effects_of_step h hStep).writes
  refine ⟨Nat.le_trans hRow.known (lastId_le_of_writes hWrites), ?_⟩
  intro moved hMoved
  obtain ⟨job, hJob, hMove⟩ := move_of_writes h hWrites hRow.known hMoved
  exact hKind (hRow.row job hJob) hMove

theorem rowAlways_of_run
    (hKind : ∀ {stopped label job moved}, kind job → Move stopped label job moved → kind moved)
    (h : Consistent state) (hRow : RowAlways kind id state)
    (hRun : Run (QueueStep capacity) state labels after) : RowAlways kind id after := by
  have hBoth := hRun.invariant (fun reached => Consistent reached ∧ RowAlways kind id reached)
    (fun _ _ _ hInv hStep =>
      ⟨consistent_of_step hInv.1 hStep, rowAlways_of_step hKind hInv.1 hInv.2 hStep⟩)
    ⟨h, hRow⟩
  exact hBoth.2

theorem Move.eq_of_settled (hMove : Move stopped label job moved)
    (hSettled : job.status = .done ∨ job.status = .failed) : moved = job := by
  cases hMove with
  | stay => rfl
  | claim hPending => simp [hPending] at hSettled
  | finish hEncoding | fail hEncoding | requeue hEncoding => simp [hEncoding] at hSettled
  | cancel hPending => simp [hPending] at hSettled

theorem Move.requeued (hMove : Move stopped label job moved)
    (hRequeued : 1 ≤ job.shutdownRequeues) : 1 ≤ moved.shutdownRequeues := by
  cases hMove with
  | stay | claim | finish | fail => exact hRequeued
  | requeue => exact Nat.le_refl 1
  | cancel => exact hRequeued

theorem Move.of_requeue (hMove : Move stopped label job moved) (hEncoding : job.status = .encoding)
    (hPending : moved.status = .pending) :
    job.shutdownRequeues = 0 ∧ moved.shutdownRequeues = 1 := by
  cases hMove with
  | stay =>
    rw [hEncoding] at hPending
    cases hPending
  | claim | finish | fail => cases hPending
  | requeue _ _ hFirst => exact ⟨hFirst, rfl⟩
  | cancel => cases hPending

/-- A failed job without a task, which is not being launched. -/
structure Buried (id : ℕ) (state : QueueState) : Prop where
  failed : RowAlways (fun job => job.status = .failed) id state
  untracked : state.tasks.get? id = none
  unclaimed : ∀ semaphore, state.drain ≠ .claimed semaphore (some id)

theorem buried_of_step (h : Consistent state) (hBuried : Buried id state)
    (hStep : step capacity state label = some after) : Buried id after := by
  refine ⟨?_, ?_, ?_⟩
  · refine rowAlways_of_step ?_ h hBuried.failed hStep
    intro stopped label job moved hFailed hMove
    rw [hMove.eq_of_settled (Or.inr hFailed)]
    exact hFailed
  · exact (effects_of_step h hStep).acts.untracked hBuried.untracked hBuried.unclaimed
  · intro semaphore hClaimed
    rcases (effects_of_step h hStep).claims hClaimed with hBefore | ⟨job, hJob, hPending⟩
    · exact hBuried.unclaimed semaphore hBefore
    · have hFailed := hBuried.failed.row job hJob
      rw [hPending] at hFailed
      cases hFailed

theorem buried_of_cancel (h : Consistent state) (hStep : step capacity state label = some after)
    (hJob : state.table.job? id = some job) (hMoved : after.table.job? id = some moved)
    (hPending : job.status = .pending) (hFailed : moved.status = .failed) : Buried id after := by
  have hWrites := (effects_of_step h hStep).writes
  have hActs := (effects_of_step h hStep).acts
  have hLe := JobTable.le_of_job? hJob
  obtain ⟨found, hFound, hMove⟩ := move_of_writes h hWrites hLe hMoved
  rw [hJob] at hFound
  cases hFound
  have hLabel : ∃ call, label = .callThread call := by
    cases hMove with
    | stay =>
      rw [hPending] at hFailed
      cases hFailed
    | claim => cases hFailed
    | finish hWas | fail hWas =>
      rw [hPending] at hWas
      cases hWas
    | requeue => cases hFailed
    | cancel _ hCall => exact hCall
  obtain ⟨call, rfl⟩ := hLabel
  have hUntracked : state.tasks.get? id = none :=
    untracked_of_failed hWrites hJob hMoved (by rw [hPending]; nofun) hFailed nofun
  -- The call has the lock, so the drain loop is not between a claim and its launch.
  have hUnclaimed : ∀ semaphore, state.drain ≠ .claimed semaphore (some id) := by
    intro semaphore hDrain
    have hLock := h.drainLock (by rw [hDrain]; rfl)
    obtain ⟨request, hCall, hThread⟩ := Option.bind_eq_some_iff.mp hStep
    rw [h.callLock _ request hCall (callThread_cases hThread).1] at hLock
    cases hLock
  refine ⟨⟨Nat.le_trans hLe (lastId_le_of_writes hWrites), ?_⟩, ?_, ?_⟩
  · intro found hAfter
    rw [hMoved] at hAfter
    cases hAfter
    exact hFailed
  · exact hActs.untracked hUntracked hUnclaimed
  · intro semaphore
    rw [hActs.drain_eq rfl nofun]
    exact hUnclaimed semaphore

end Runs

/-- The life of a job row, over every interleaving.  A new row is pending.  A row moves as
`Move` says or is deleted, and is failed by another than its own task only if it has none.
Done or failed, it never changes; it goes back to pending at most once; and after a cancel
that found it pending the job has no task any more. -/
theorem job_row_discipline {capacity : Semaphore → ℕ} {table : JobTable} {labels : List Label}
    {state after : QueueState} {label : Label}
    (hRun : Run (QueueStep capacity) (QueueState.boot capacity table) labels state)
    (hStep : QueueStep capacity state label after) (id : ℕ) :
    (state.table.job? id = none → ∀ moved, after.table.job? id = some moved →
      moved.status = .pending ∧ moved.shutdownRequeues = 0) ∧
    ∀ job, state.table.job? id = some job →
      (∀ moved, after.table.job? id = some moved →
        Move state.stopped label job moved ∧
        (job.status ≠ .failed → moved.status = .failed → label ≠ .write id true →
          state.tasks.get? id = none)) ∧
      ∀ laterLabels later, Run (QueueStep capacity) after laterLabels later →
        (job.status = .done ∨ job.status = .failed →
          ∀ found, later.table.job? id = some found → found = job) ∧
        ∀ moved, after.table.job? id = some moved →
          (job.status = .encoding → moved.status = .pending →
            ∀ nextLabel next, QueueStep capacity later nextLabel next →
              ∀ found again, later.table.job? id = some found →
                next.table.job? id = some again →
                ¬ (found.status = .encoding ∧ again.status = .pending)) ∧
          (job.status = .pending → moved.status = .failed → later.tasks.get? id = none) := by
  have h := consistent_of_run hRun
  have hAfter := consistent_of_step h hStep
  have hWrites := (effects_of_step h hStep).writes
  constructor
  · intro hNone moved hMoved
    rcases hWrites.row hMoved with ⟨job, hJob, -⟩ | ⟨-, hNew⟩
    · rw [hNone] at hJob
      cases hJob
    · exact hNew
  intro job hJob
  have hLe := JobTable.le_of_job? hJob
  have hMove : ∀ {moved}, after.table.job? id = some moved →
      Move state.stopped label job moved := by
    intro moved hMoved
    obtain ⟨found, hFound, hMove⟩ := move_of_writes h hWrites hLe hMoved
    rw [hJob] at hFound
    cases hFound
    exact hMove
  have hKnown : id ≤ after.table.lastId := Nat.le_trans hLe (lastId_le_of_writes hWrites)
  refine ⟨?_, ?_⟩
  · intro moved hMoved
    exact ⟨hMove hMoved, untracked_of_failed hWrites hJob hMoved⟩
  intro laterLabels later hLater
  refine ⟨?_, ?_⟩
  · intro hSettled
    have hRow : RowAlways (fun found => found = job) id after :=
      ⟨hKnown, fun moved hMoved => (hMove hMoved).eq_of_settled hSettled⟩
    refine (rowAlways_of_run ?_ hAfter hRow hLater).row
    rintro stopped other found moved rfl hNext
    exact hNext.eq_of_settled hSettled
  intro moved hMoved
  refine ⟨?_, ?_⟩
  · rintro hEncoding hPending nextLabel next hNext found again hFound hAgain ⟨hWas, hIs⟩
    -- The count of requeues is one from here on, and a requeue needs it to be zero.
    have hRow : RowAlways (fun found => 1 ≤ found.shutdownRequeues) id after := by
      refine ⟨hKnown, ?_⟩
      intro other hOther
      rw [hMoved] at hOther
      cases hOther
      exact Nat.le_of_eq ((hMove hMoved).of_requeue hEncoding hPending).2.symm
    have hReached := rowAlways_of_run (fun hKind hMove => hMove.requeued hKind) hAfter hRow hLater
    have hConsistent : Consistent later := consistent_of_run
      ((hRun.append (Run.cons hStep (Run.nil after))).append hLater)
    obtain ⟨before, hBefore, hLast⟩ := move_of_writes hConsistent
      (effects_of_step hConsistent hNext).writes hReached.known hAgain
    rw [hFound] at hBefore
    cases hBefore
    have hZero := (hLast.of_requeue hWas hIs).1
    have hOne := hReached.row found hFound
    omega
  · intro hPending hFailed
    have hBuried := buried_of_cancel h hStep hJob hMoved hPending hFailed
    have hBoth := hLater.invariant (fun reached => Consistent reached ∧ Buried id reached)
      (fun _ _ _ hInv hStep =>
        ⟨consistent_of_step hInv.1 hStep, buried_of_step hInv.1 hInv.2 hStep⟩)
      ⟨hAfter, hBuried⟩
    exact hBoth.2.untracked

/-- One slot of each kind. -/
def oneSlot : Semaphore → ℕ := fun _ => 1

def noJobs : JobTable where
  jobs := Dict.empty
  lastId := 0
  idsLe := fun _ _ => rfl

/-- A job is queued and cancelled before the drain loop gets to it. -/
theorem job_row_discipline_cancelled :
    ∃ state after,
      Run (QueueStep oneSlot) (QueueState.boot oneSlot noJobs)
        [.enqueue false, .cancelJob 0 1 true, .callLocked 0, .callThread 0] state ∧
      QueueStep oneSlot state (.callThread 0) after ∧
      state.table.job? 1 = some ⟨false, .pending, 0⟩ ∧
      after.table.job? 1 = some ⟨false, .failed, 0⟩ ∧
      ∀ laterLabels later, Run (QueueStep oneSlot) after laterLabels later →
        later.tasks.get? 1 = none := by
  have hReached : ∃ state after,
      Run (QueueStep oneSlot) (QueueState.boot oneSlot noJobs)
        [.enqueue false, .cancelJob 0 1 true, .callLocked 0, .callThread 0] state ∧
      QueueStep oneSlot state (.callThread 0) after ∧
      state.table.job? 1 = some ⟨false, .pending, 0⟩ ∧
      after.table.job? 1 = some ⟨false, .failed, 0⟩ :=
    ⟨_, _, Run.cons rfl (Run.cons rfl (Run.cons rfl (Run.cons rfl (Run.nil _)))), rfl, rfl, rfl⟩
  obtain ⟨state, after, hRun, hStep, hJob, hMoved⟩ := hReached
  refine ⟨state, after, hRun, hStep, hJob, hMoved, ?_⟩
  intro laterLabels later hLater
  have hLife := (job_row_discipline hRun hStep 1).2 _ hJob
  exact ((hLife.2 laterLabels later hLater).2 _ hMoved).2 rfl rfl

end TimelapseManager.Render
