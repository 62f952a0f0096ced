import TimelapseManager.Lib.Dict
import TimelapseManager.Lib.Runs

/-!
# The render queue

`render/queue.py`, `RenderQueue`: a drain loop sweeps orphans, claims pending jobs and starts
a task for each; the task renders, settles its row and gives its slot back; `cancel_job`,
`stop` and a restart interfere at any time.

* A step of the event loop runs from one `await` to the next.  What runs in a worker thread is a
  step of its own, one per transaction, and goes on when the coroutine that waits for it is
  cancelled.
* `task.cancel()` only asks; the `CancelledError` arrives with the next step of the task.  A task
  that has not started then ends without running any of its body.
* `_job_tasks` and `_job_semaphores` have the same keys and are one dictionary here.  The other
  dictionaries of the queue only serve the waiting for a zip thread and the readiness probe, and
  are left out, as are the events.
* A caller of `cancel_job` waits for it to return, and `start` returns before `stop` is called.
-/

namespace TimelapseManager.Render

open KeyedRows

/-! ## Job rows -/

inductive JobStatus
  | pending
  | encoding
  | done
  | failed
  deriving DecidableEq, Repr

/-- The columns of a `render_job` row that the queue reads. -/
structure RenderJob where
  isExport : Bool
  status : JobStatus
  shutdownRequeues : ℕ
  deriving DecidableEq, Repr

def maxShutdownRequeues : ℕ := 1

namespace RenderJob

/-- The conditional `UPDATE` of `_flip_if_sync`. -/
def flipIf (expected : JobStatus) (job : RenderJob) : RenderJob :=
  if job.status = expected then { job with status := .failed } else job

/-- `_record_result_sync`. -/
def recordResult (success hasOutput : Bool) (job : RenderJob) : RenderJob :=
  { job with status := if success && hasOutput then .done else .failed }

/-- `_mark_failed_sync` and `_mark_cancelled_sync`, which differ in their events only. -/
def markFailed (job : RenderJob) : RenderJob :=
  if job.status = .done then job else { job with status := .failed }

/-- `_mark_interrupted_by_shutdown_sync`. -/
def markInterrupted (withinGrace : Bool) (job : RenderJob) : RenderJob :=
  if job.status = .done then job
  else if withinGrace = true ∧ job.status = .encoding ∧ job.isExport = false ∧
      job.shutdownRequeues < maxShutdownRequeues then
    { job with status := .pending, shutdownRequeues := job.shutdownRequeues + 1 }
  else { job with status := .failed }

/-- The conditional `UPDATE` of `_claim_oldest_pending`. -/
def claim (job : RenderJob) : RenderJob :=
  if job.status = .pending then { job with status := .encoding } else job

end RenderJob

/-- The `render_job` table.  Ids are never used again. -/
structure JobTable where
  jobs : Dict ℕ RenderJob
  lastId : ℕ
  idsLe : ∀ id, lastId < id → jobs.get? id = none

namespace JobTable

variable (table : JobTable)

def job? (id : ℕ) : Option RenderJob :=
  table.jobs.get? id

/-- A transaction on one row. -/
def update (id : ℕ) (change : RenderJob → RenderJob) : JobTable where
  jobs := table.jobs.modify id change
  lastId := table.lastId
  idsLe := by
    intro other hLt
    rw [Dict.get?_modify]
    split
    · rw [table.idsLe other hLt]
      rfl
    · exact table.idsLe other hLt

/-- A new job: `trigger_render`, an export, or the scheduler. -/
def enqueue (isExport : Bool) : JobTable where
  jobs := table.jobs.set (table.lastId + 1) ⟨isExport, .pending, 0⟩
  lastId := table.lastId + 1
  idsLe := by
    intro other hLt
    rw [Dict.get?_set_of_ne (by omega)]
    exact table.idsLe other (by omega)

/-- A row is deleted, with its project or by itself. -/
def remove (id : ℕ) : JobTable where
  jobs := table.jobs.erase id
  lastId := table.lastId
  idsLe := by
    intro other hLt
    rw [Dict.get?_erase]
    split
    · rfl
    · exact table.idsLe other hLt

/-- `_encoding_rows_sync`. -/
def encodingIds : List ℕ :=
  (table.jobs.rows.filter fun row => row.2.status = .encoding).map Prod.fst

/-- The candidate of `_claim_oldest_pending`. -/
def oldestPending (exports : Bool) : Option ℕ :=
  ((table.jobs.rows.filter fun row =>
    row.2.status = .pending ∧ row.2.isExport = exports).map Prod.fst).min?

/-- `_claim_oldest_pending`. -/
def claimOldestPending (exports : Bool) : JobTable × Option ℕ :=
  match table.oldestPending exports with
  | none => (table, none)
  | some id => (table.update id RenderJob.claim, some id)

end JobTable

/-! ## The state of the queue -/

/-- `_semaphore` and `_export_semaphore`. -/
inductive Semaphore
  | render
  | exports
  deriving DecidableEq, Repr

/-- Which family of jobs is claimed against a semaphore. -/
def Semaphore.family : Semaphore → Bool
  | .render => false
  | .exports => true

/-- A terminal write of a task. -/
inductive Write
  | recordResult (success hasOutput : Bool)
  | markFailed
  | markCancelled
  | markInterrupted (withinGrace : Bool)
  deriving DecidableEq, Repr

def Write.apply : Write → RenderJob → RenderJob
  | .recordResult success hasOutput => RenderJob.recordResult success hasOutput
  | .markFailed => RenderJob.markFailed
  | .markCancelled => RenderJob.markFailed
  | .markInterrupted withinGrace => RenderJob.markInterrupted withinGrace

/-- After a recorded success the post-render actions run. -/
def Write.goesOn : Write → Bool
  | .recordResult success _ => success
  | _ => false

/-- Where a task of `_run_job` is.  `inBody` tells a write of the `try` block, after which a
cancellation still reaches its handler, from a write of a handler. -/
inductive TaskPhase
  | created
  | working
  | settling (write : Write) (inBody cancelled : Bool)
  | settled (write : Write) (inBody cancelled landed : Bool)
  | backingOff (write : Write) (inBody cancelled : Bool)
  | afterResult
  | neverRan
  deriving DecidableEq, Repr

structure JobTask where
  semaphore : Semaphore
  phase : TaskPhase
  cancelRequested : Bool
  deriving DecidableEq, Repr

/-- `task.cancel()`, which does nothing to a task that is over. -/
def JobTask.cancel (task : JobTask) : JobTask :=
  if task.phase = .neverRan then task else { task with cancelRequested := true }

/-- Where the drain loop is, and before it the startup sweep. -/
inductive DrainPhase
  | reclaiming
  | reclaimFailing (ids : List ℕ)
  | idle
  | sweepReading
  | sweepRead (ids : List ℕ)
  | sweepFailing (ids : List ℕ)
  | launching (semaphore : Semaphore)
  | slotTaken (semaphore : Semaphore)
  | claiming (semaphore : Semaphore)
  | claimed (semaphore : Semaphore) (id : Option ℕ)
  | ended
  deriving DecidableEq, Repr

/-- The startup sweep is not over. -/
def DrainPhase.starting : DrainPhase → Bool
  | .reclaiming => true
  | .reclaimFailing _ => true
  | _ => false

/-- Where a call of `cancel_job` is. -/
inductive CallPhase
  | waiting
  | untracked
  | flippingPending
  | failingOrphan
  | returning
  | awaiting
  deriving DecidableEq, Repr

structure CancelCall where
  job : ℕ
  userRequested : Bool
  phase : CallPhase
  deriving DecidableEq, Repr

/-- Who holds `_claim_lock`. -/
inductive Holder
  | drain
  | call (call : ℕ)
  deriving DecidableEq, Repr

/-- The database and the process.  `strayFlips` and `strayClaim` are what the threads of a
cancelled drain loop still do. -/
structure QueueState where
  table : JobTable
  free : Semaphore → ℕ
  tasks : Dict ℕ JobTask
  userCancels : List ℕ
  lock : Option Holder
  drain : DrainPhase
  drainCancelled : Bool
  strayFlips : List ℕ
  strayClaim : Option Semaphore
  calls : Dict ℕ CancelCall
  stopped : Bool

/-- A new process over a table. -/
def QueueState.boot (capacity : Semaphore → ℕ) (table : JobTable) : QueueState where
  table := table
  free := capacity
  tasks := Dict.empty
  userCancels := []
  lock := none
  drain := .reclaiming
  drainCancelled := false
  strayFlips := []
  strayClaim := none
  calls := Dict.empty
  stopped := false

/-- How the work of a task ends. -/
inductive Outcome
  | returns (success hasOutput : Bool)
  | refused
  | raises
  deriving DecidableEq, Repr

inductive Label
  | enqueue (isExport : Bool)
  | remove (id : ℕ)
  | drainThread
  | drainLoop
  | drainError
  | drainUnwind
  | strayFlip
  | strayClaim
  | run (id : ℕ) (outcome : Outcome) (withinGrace : Bool)
  | deliver (id : ℕ) (withinGrace : Bool)
  | write (id : ℕ) (landed : Bool)
  | cancelJob (call id : ℕ) (userRequested : Bool)
  | callLocked (call : ℕ)
  | callThread (call : ℕ)
  | callError (call : ℕ)
  | callReturns (call : ℕ)
  | stop
  | restart
  deriving DecidableEq, Repr

/-! ## Steps -/

namespace QueueState

variable (state : QueueState)

/-- `semaphore.release()`. -/
def release (semaphore : Semaphore) : QueueState :=
  { state with free := Function.update state.free semaphore (state.free semaphore + 1) }

/-! ### The drain loop -/

/-- Where `_launch_for` returns to. -/
def afterLaunch : Semaphore → DrainPhase
  | .render => .launching .exports
  | .exports => .idle

/-- A transaction of the thread the drain loop waits for. -/
def drainThread : Option QueueState :=
  match state.drain with
  | .reclaiming => some { state with drain := .reclaimFailing state.table.encodingIds }
  | .reclaimFailing (id :: ids) =>
    some { state with
      table := state.table.update id (RenderJob.flipIf .encoding)
      drain := .reclaimFailing ids }
  | .sweepReading => some { state with drain := .sweepRead state.table.encodingIds }
  | .sweepFailing (id :: ids) =>
    some { state with
      table := state.table.update id (RenderJob.flipIf .encoding)
      drain := .sweepFailing ids }
  | .claiming semaphore =>
    let (table, id) := state.table.claimOldestPending semaphore.family
    some { state with table := table, drain := .claimed semaphore id }
  | _ => none

/-- A step of `start`, `_sweep_orphans` or `_launch_for` on the event loop. -/
def drainLoop : Option QueueState :=
  match state.drain with
  | .reclaimFailing [] => some { state with drain := .idle }
  | .idle =>
    if state.lock = none then some { state with lock := some .drain, drain := .sweepReading }
    else none
  | .sweepRead ids =>
    some { state with
      lock := none
      drain := .sweepFailing (ids.filter fun id => state.tasks.get? id = none) }
  | .sweepFailing [] => some { state with drain := .launching .render }
  | .launching semaphore =>
    if 0 < state.free semaphore then
      some { state with
        free := Function.update state.free semaphore (state.free semaphore - 1)
        drain := .slotTaken semaphore }
    else some { state with drain := afterLaunch semaphore }
  | .slotTaken semaphore =>
    if state.lock = none then
      some { state with lock := some .drain, drain := .claiming semaphore }
    else none
  | .claimed semaphore none =>
    some ({ state with lock := none, drain := afterLaunch semaphore }.release semaphore)
  | .claimed semaphore (some id) =>
    some { state with
      lock := none
      tasks := state.tasks.set id ⟨semaphore, .created, false⟩
      drain := .launching semaphore }
  | _ => none

/-- A thread of the drain loop raised: the cycle ends, and `finally` clauses run. -/
def drainError : Option QueueState :=
  match state.drain with
  | .reclaiming => some { state with drain := .idle }
  | .reclaimFailing _ => some { state with drain := .idle }
  | .sweepReading => some { state with lock := none, drain := .idle }
  | .sweepFailing _ => some { state with drain := .idle }
  | .claiming semaphore => some ({ state with lock := none, drain := .idle }.release semaphore)
  | _ => none

/-- The `CancelledError` of `stop` reaches the drain loop.  Its thread goes on. -/
def drainUnwind : Option QueueState :=
  match state.drain with
  | .sweepReading => some { state with lock := none, drain := .ended }
  | .sweepRead _ => some { state with lock := none, drain := .ended }
  | .sweepFailing ids => some { state with drain := .ended, strayFlips := ids }
  | .slotTaken semaphore => some ({ state with drain := .ended }.release semaphore)
  | .claiming semaphore =>
    some ({ state with
      lock := none
      drain := .ended
      strayClaim := some semaphore }.release semaphore)
  | .claimed semaphore _ =>
    some ({ state with lock := none, drain := .ended }.release semaphore)
  | .ended => none
  | _ => some { state with drain := .ended }

/-! ### The tasks -/

/-- The handler a cancellation of `_run_job` reaches. -/
def handlerWrite (id : ℕ) (withinGrace : Bool) : Write :=
  if id ∈ state.userCancels then .markCancelled
  else if state.stopped then .markInterrupted withinGrace
  else .markFailed

variable (id : ℕ) (task : JobTask)

/-- A task goes on in another phase. -/
def goOn (phase : TaskPhase) : QueueState :=
  { state with tasks := state.tasks.set id { task with phase := phase } }

/-- `_finish`. -/
def finish : QueueState :=
  { state with tasks := state.tasks.erase id }.release task.semaphore

/-- A step of `_run_job` on the event loop, without a cancellation. -/
def runTask (outcome : Outcome) (withinGrace : Bool) : Option QueueState :=
  match task.phase with
  | .created => some (state.goOn id task .working)
  | .working =>
    match outcome with
    | .returns success hasOutput =>
      some (state.goOn id task (.settling (.recordResult success hasOutput) true false))
    | .refused => some (state.goOn id task (.settling .markFailed true false))
    | .raises => some (state.goOn id task (.settling .markFailed false false))
  | .settled write inBody cancelled landed =>
    if landed = false ∧ state.stopped = false then
      -- `_settle` tries again, after a while.
      some (state.goOn id task (.backingOff write inBody cancelled))
    else if cancelled = true ∧ inBody = true then
      some (state.goOn id task (.settling (state.handlerWrite id withinGrace) false false))
    else if cancelled = false ∧ inBody = true ∧ write.goesOn = true then
      some (state.goOn id task .afterResult)
    else some (state.finish id task)
  | .backingOff write inBody cancelled =>
    some (state.goOn id task (.settling write inBody cancelled))
  | .afterResult =>
    match outcome with
    | .raises => some (state.goOn id task (.settling .markFailed false false))
    | _ => some (state.finish id task)
  | .settling _ _ _ => none
  | .neverRan => none

/-- A `CancelledError` reaches a task.  `_settle` holds it back, and a coroutine that has not
started is not started for it. -/
def deliver (withinGrace : Bool) : Option QueueState :=
  let heard := { task with cancelRequested := false }
  match task.phase with
  | .created => some (state.goOn id heard .neverRan)
  | .working =>
    some (state.goOn id heard (.settling (state.handlerWrite id withinGrace) false false))
  | .settling write inBody _ => some (state.goOn id heard (.settling write inBody true))
  | .settled write inBody _ landed => some (state.goOn id heard (.settled write inBody true landed))
  | .backingOff write inBody _ => some (state.goOn id heard (.settling write inBody true))
  | .afterResult =>
    some (state.goOn id heard (.settling (state.handlerWrite id withinGrace) false false))
  | .neverRan => none

/-- The thread of a terminal write, with its retries. -/
def writeThread (landed : Bool) : Option QueueState :=
  match task.phase with
  | .settling write inBody cancelled =>
    let after := state.goOn id task (.settled write inBody cancelled landed)
    some (if landed then { after with table := state.table.update id write.apply } else after)
  | _ => none

/-! ### `cancel_job` -/

variable (call : ℕ) (request : CancelCall)

/-- The call goes on in another phase. -/
def callOn (phase : CallPhase) : QueueState :=
  { state with calls := state.calls.set call { request with phase := phase } }

/-- The task of the job is cancelled, and its end awaited. -/
def cancelTask : QueueState :=
  { state with
    tasks := state.tasks.modify request.job JobTask.cancel
    userCancels :=
      if request.userRequested then request.job :: state.userCancels else state.userCancels
    calls := state.calls.set call { request with phase := .awaiting } }

/-- `cancel_job` up to its first wait. -/
def cancelJob : QueueState :=
  match state.tasks.get? request.job with
  | some _ => state.cancelTask call request
  | none => state.callOn call request .waiting

/-- The call has the claim lock and looks again. -/
def callLocked : Option QueueState :=
  if request.phase = .waiting ∧ state.lock = none then
    match state.tasks.get? request.job with
    | some _ => some (state.cancelTask call request)
    | none => some { state.callOn call request .untracked with lock := some (.call call) }
  else none

/-- A transaction of `_cancel_untracked_sync`. -/
def callThread : Option QueueState :=
  match request.phase with
  | .untracked =>
    match (state.table.job? request.job).map RenderJob.status with
    | some .pending => some (state.callOn call request .flippingPending)
    | some .encoding => some (state.callOn call request .failingOrphan)
    | _ => some (state.callOn call request .returning)
  | .flippingPending =>
    some { state.callOn call request .returning with
      table := state.table.update request.job (RenderJob.flipIf .pending) }
  | .failingOrphan =>
    some { state.callOn call request .returning with
      table := state.table.update request.job (RenderJob.flipIf .encoding) }
  | _ => none

/-- The thread raised: so does the call. -/
def callError : Option QueueState :=
  match request.phase with
  | .untracked => some { state with calls := state.calls.erase call, lock := none }
  | .flippingPending => some { state with calls := state.calls.erase call, lock := none }
  | .failingOrphan => some { state with calls := state.calls.erase call, lock := none }
  | _ => none

/-- The task of a job is over. -/
def TaskOver (id : ℕ) : Prop :=
  ∀ task ∈ state.tasks.get? id, task.phase = .neverRan

instance (id : ℕ) : Decidable (state.TaskOver id) :=
  inferInstanceAs (Decidable (∀ task ∈ state.tasks.get? id, _))

/-- The call returns. -/
def callReturns : Option QueueState :=
  match request.phase with
  | .returning => some { state with calls := state.calls.erase call, lock := none }
  | .awaiting =>
    if state.TaskOver request.job then
      some { state with
        calls := state.calls.erase call
        userCancels := state.userCancels.filter fun id => id ≠ request.job }
    else none
  | _ => none

/-! ### `stop` -/

/-- `stop` cancels the drain loop and every task. -/
def stop : QueueState :=
  { state with
    stopped := true
    drainCancelled := true
    tasks := state.tasks.mapValues JobTask.cancel }

end QueueState

/-- One step of the queue. -/
def step (capacity : Semaphore → ℕ) (state : QueueState) : Label → Option QueueState
  | .enqueue isExport => some { state with table := state.table.enqueue isExport }
  | .remove id => some { state with table := state.table.remove id }
  | .drainThread => state.drainThread
  | .drainLoop => if state.drainCancelled then none else state.drainLoop
  | .drainError => if state.drainCancelled then none else state.drainError
  | .drainUnwind => if state.drainCancelled then state.drainUnwind else none
  | .strayFlip =>
    match state.strayFlips with
    | [] => none
    | id :: ids =>
      some { state with
        table := state.table.update id (RenderJob.flipIf .encoding)
        strayFlips := ids }
  | .strayClaim =>
    state.strayClaim.map fun semaphore => { state with
      table := (state.table.claimOldestPending semaphore.family).1
      strayClaim := none }
  | .run id outcome withinGrace =>
    (state.tasks.get? id).bind fun task =>
      if task.cancelRequested then none else state.runTask id task outcome withinGrace
  | .deliver id withinGrace =>
    (state.tasks.get? id).bind fun task =>
      if task.cancelRequested then state.deliver id task withinGrace else none
  | .write id landed => (state.tasks.get? id).bind fun task => state.writeThread id task landed
  | .cancelJob call id userRequested =>
    if state.calls.get? call = none then
      some (state.cancelJob call ⟨id, userRequested, .waiting⟩)
    else none
  | .callLocked call => (state.calls.get? call).bind (state.callLocked call)
  | .callThread call => (state.calls.get? call).bind (state.callThread call)
  | .callError call => (state.calls.get? call).bind (state.callError call)
  | .callReturns call => (state.calls.get? call).bind (state.callReturns call)
  | .stop => if state.stopped || state.drain.starting then none else some state.stop
  | .restart => some (QueueState.boot capacity state.table)

/-- The steps of the queue as a relation. -/
abbrev QueueStep (capacity : Semaphore → ℕ) := Runs.Steps (step capacity)

end TimelapseManager.Render
