import TimelapseManager.Render.Queue

/-!
# What the render queue keeps

`Consistent` says who holds the claim lock, for which jobs there can be a task, and what the
row of a job with a task can be.  One lemma says what each kind of change needs to keep it;
the steps of the queue are put together from these.  `Moves` says what a step is by its label.

The core of it is the claim lock: a claimed row gets its task before the lock is given back,
so whoever finds an `encoding` row without a task while holding the lock may fail it.
-/

namespace TimelapseManager.Render

open KeyedRows Runs

/-! ## The steps by label -/

/-- What a step is: the function its label stands for, with what the guards let through. -/
inductive Moves (capacity : Semaphore → ℕ) (state : QueueState) : Label → QueueState → Prop
  | enqueue (isExport : Bool) :
      Moves capacity state (.enqueue isExport) { state with table := state.table.enqueue isExport }
  | remove (id : ℕ) :
      Moves capacity state (.remove id) { state with table := state.table.remove id }
  | drainThread {after : QueueState} (hThread : state.drainThread = some after) :
      Moves capacity state .drainThread after
  | drainLoop {after : QueueState} (hCancelled : state.drainCancelled = false)
      (hLoop : state.drainLoop = some after) : Moves capacity state .drainLoop after
  | drainError {after : QueueState} (hCancelled : state.drainCancelled = false)
      (hError : state.drainError = some after) : Moves capacity state .drainError after
  | drainUnwind {after : QueueState} (hCancelled : state.drainCancelled = true)
      (hUnwind : state.drainUnwind = some after) : Moves capacity state .drainUnwind after
  | strayFlip {id : ℕ} {ids : List ℕ} (hStrays : state.strayFlips = id :: ids) :
      Moves capacity state .strayFlip
        { state with
          table := state.table.update id (RenderJob.flipIf .encoding)
          strayFlips := ids }
  | strayClaim {semaphore : Semaphore} (hStray : state.strayClaim = some semaphore) :
      Moves capacity state .strayClaim
        { state with
          table := (state.table.claimOldestPending semaphore.family).1
          strayClaim := none }
  | run {id : ℕ} {task : JobTask} {outcome : Outcome} {withinGrace : Bool} {after : QueueState}
      (hTask : state.tasks.get? id = some task) (hCancel : task.cancelRequested = false)
      (hRun : state.runTask id task outcome withinGrace = some after) :
      Moves capacity state (.run id outcome withinGrace) after
  | deliver {id : ℕ} {task : JobTask} {withinGrace : Bool} {after : QueueState}
      (hTask : state.tasks.get? id = some task) (hCancel : task.cancelRequested = true)
      (hDeliver : state.deliver id task withinGrace = some after) :
      Moves capacity state (.deliver id withinGrace) after
  | write {id : ℕ} {task : JobTask} {write : Write} {inBody cancelled landed : Bool}
      (hTask : state.tasks.get? id = some task)
      (hPhase : task.phase = .settling write inBody cancelled) :
      Moves capacity state (.write id landed)
        { state with
          table := if landed then state.table.update id write.apply else state.table
          tasks :=
            state.tasks.set id { task with phase := .settled write inBody cancelled landed } }
  | cancelJob {call id : ℕ} {userRequested : Bool} (hNew : state.calls.get? call = none) :
      Moves capacity state (.cancelJob call id userRequested)
        (state.cancelJob call ⟨id, userRequested, .waiting⟩)
  | callLocked {call : ℕ} {request : CancelCall} {after : QueueState}
      (hCall : state.calls.get? call = some request)
      (hLocked : state.callLocked call request = some after) :
      Moves capacity state (.callLocked call) after
  | callThread {call : ℕ} {request : CancelCall} {after : QueueState}
      (hCall : state.calls.get? call = some request)
      (hThread : state.callThread call request = some after) :
      Moves capacity state (.callThread call) after
  | callError {call : ℕ} {request : CancelCall} {after : QueueState}
      (hCall : state.calls.get? call = some request)
      (hError : state.callError call request = some after) :
      Moves capacity state (.callError call) after
  | callReturns {call : ℕ} {request : CancelCall} {after : QueueState}
      (hCall : state.calls.get? call = some request)
      (hReturns : state.callReturns call request = some after) :
      Moves capacity state (.callReturns call) after
  | stop (hRunning : state.stopped = false) (hStarted : state.drain.starting = false) :
      Moves capacity state .stop state.stop
  | restart : Moves capacity state .restart (QueueState.boot capacity state.table)

theorem moves_of_step {capacity : Semaphore → ℕ} {state after : QueueState} {label : Label}
    (hStep : step capacity state label = some after) : Moves capacity state label after := by
  cases label with rw [step] at hStep
  | enqueue isExport =>
    cases hStep
    exact .enqueue isExport
  | remove id =>
    cases hStep
    exact .remove id
  | drainThread => exact .drainThread hStep
  | drainLoop =>
    obtain ⟨hCancelled, hLoop⟩ := Option.ite_none_left_eq_some.mp hStep
    exact .drainLoop (Bool.eq_false_iff.mpr hCancelled) hLoop
  | drainError =>
    obtain ⟨hCancelled, hError⟩ := Option.ite_none_left_eq_some.mp hStep
    exact .drainError (Bool.eq_false_iff.mpr hCancelled) hError
  | drainUnwind =>
    obtain ⟨hCancelled, hUnwind⟩ := Option.ite_none_right_eq_some.mp hStep
    exact .drainUnwind hCancelled hUnwind
  | strayFlip =>
    split at hStep
    next => cases hStep
    next hStrays =>
      cases hStep
      exact .strayFlip hStrays
  | strayClaim =>
    obtain ⟨semaphore, hStray, rfl⟩ := Option.map_eq_some_iff.mp hStep
    exact .strayClaim hStray
  | run =>
    obtain ⟨task, hTask, hStep⟩ := Option.bind_eq_some_iff.mp hStep
    obtain ⟨hCancel, hRun⟩ := Option.ite_none_left_eq_some.mp hStep
    exact .run hTask (Bool.eq_false_iff.mpr hCancel) hRun
  | deliver =>
    obtain ⟨task, hTask, hStep⟩ := Option.bind_eq_some_iff.mp hStep
    obtain ⟨hCancel, hDeliver⟩ := Option.ite_none_right_eq_some.mp hStep
    exact .deliver hTask hCancel hDeliver
  | write id landed =>
    obtain ⟨task, hTask, hWrite⟩ := Option.bind_eq_some_iff.mp hStep
    unfold QueueState.writeThread at hWrite
    split at hWrite
    next hPhase =>
      have hMoves := @Moves.write capacity state id task _ _ _ landed hTask hPhase
      cases landed with cases hWrite
      | false | true => exact hMoves
    next => cases hWrite
  | cancelJob =>
    obtain ⟨hNew, rfl⟩ := of_guard hStep
    exact .cancelJob hNew
  | callLocked call =>
    obtain ⟨request, hCall, hLocked⟩ := Option.bind_eq_some_iff.mp hStep
    exact .callLocked hCall hLocked
  | callThread call =>
    obtain ⟨request, hCall, hThread⟩ := Option.bind_eq_some_iff.mp hStep
    exact .callThread hCall hThread
  | callError call =>
    obtain ⟨request, hCall, hError⟩ := Option.bind_eq_some_iff.mp hStep
    exact .callError hCall hError
  | callReturns call =>
    obtain ⟨request, hCall, hReturns⟩ := Option.bind_eq_some_iff.mp hStep
    exact .callReturns hCall hReturns
  | stop =>
    obtain ⟨hGuard, hAfter⟩ := Option.ite_none_left_eq_some.mp hStep
    cases hAfter
    obtain ⟨hRunning, hStarted⟩ := Bool.or_eq_false_iff.mp (Bool.eq_false_iff.mpr hGuard)
    exact .stop hRunning hStarted
  | restart =>
    cases hStep
    exact .restart

/-! ## The table -/

variable {job : RenderJob}

namespace JobTable

variable {table : JobTable} {id other : ℕ} {change : RenderJob → RenderJob}

theorem job?_update :
    (table.update id change).job? other =
      if other = id then (table.job? other).map change else table.job? other :=
  Dict.get?_modify

theorem job?_update_of_ne (hNe : other ≠ id) :
    (table.update id change).job? other = table.job? other := by
  rw [job?_update, if_neg hNe]

theorem job?_enqueue {isExport : Bool} :
    (table.enqueue isExport).job? other =
      if other = table.lastId + 1 then some ⟨isExport, .pending, 0⟩ else table.job? other :=
  Dict.get?_set

theorem job?_remove :
    (table.remove id).job? other = if other = id then none else table.job? other :=
  Dict.get?_erase

theorem le_of_job? (hJob : table.job? id = some job) : id ≤ table.lastId := by
  by_contra hLt
  rw [JobTable.job?, table.idsLe id (by omega)] at hJob
  cases hJob

theorem claimOldestPending_cases (table : JobTable) (exports : Bool) :
    table.claimOldestPending exports = (table, none) ∨
      ∃ id job, table.claimOldestPending exports = (table.update id RenderJob.claim, some id) ∧
        table.job? id = some job ∧ job.status = .pending := by
  unfold claimOldestPending
  cases hOldest : table.oldestPending exports with
  | none => exact Or.inl rfl
  | some id =>
    obtain ⟨row, hRow, rfl⟩ := List.mem_map.mp (List.min?_mem hOldest)
    obtain ⟨hRows, hKind⟩ := List.mem_filter.mp hRow
    exact Or.inr ⟨_, row.2, rfl, Dict.get?_eq_some_iff.mpr hRows, (of_decide_eq_true hKind).1⟩

end JobTable

/-! ## The terminal writes -/

namespace Write

theorem apply_cases (write : Write) (job : RenderJob) :
    (job.status = .done ∧ write.apply job = job) ∨
      ((job.status = .done → ∃ success hasOutput, write = .recordResult success hasOutput) ∧
        write.apply job = { job with status := .failed }) ∨
      (∃ success hasOutput, write = .recordResult success hasOutput ∧
        write.apply job = { job with status := .done }) ∨
      ∃ withinGrace, write = .markInterrupted withinGrace ∧ job.status = .encoding ∧
        job.shutdownRequeues < maxShutdownRequeues ∧
        write.apply job =
          { job with status := .pending, shutdownRequeues := job.shutdownRequeues + 1 } := by
  have hMark : (job.status = .done ∧ job.markFailed = job) ∨
      (job.status ≠ .done ∧ job.markFailed = { job with status := .failed }) := by
    unfold RenderJob.markFailed
    split
    next hDone => exact Or.inl ⟨hDone, rfl⟩
    next hDone => exact Or.inr ⟨hDone, rfl⟩
  cases write with
  | recordResult success hasOutput =>
    change _ ∨ (_ ∧ job.recordResult success hasOutput = _) ∨
      (∃ _ _, _ ∧ job.recordResult success hasOutput = _) ∨ _
    unfold RenderJob.recordResult
    split
    next => exact Or.inr (Or.inr (Or.inl ⟨success, hasOutput, rfl, rfl⟩))
    next => exact Or.inr (Or.inl ⟨fun _ => ⟨success, hasOutput, rfl⟩, rfl⟩)
  | markFailed | markCancelled =>
    exact hMark.imp_right fun hFailed =>
      Or.inl ⟨fun hDone => absurd hDone hFailed.1, hFailed.2⟩
  | markInterrupted withinGrace =>
    change (_ ∧ job.markInterrupted withinGrace = _) ∨
      (_ ∧ job.markInterrupted withinGrace = _) ∨ _ ∨
      ∃ _, _ ∧ _ ∧ _ ∧ job.markInterrupted withinGrace = _
    unfold RenderJob.markInterrupted
    split
    next hDone => exact Or.inl ⟨hDone, rfl⟩
    next hDone =>
      split
      next hGrace =>
        obtain ⟨-, hEncoding, -, hFirst⟩ := hGrace
        exact Or.inr (Or.inr (Or.inr ⟨withinGrace, rfl, hEncoding, hFirst, rfl⟩))
      next => exact Or.inr (Or.inl ⟨fun hSame => absurd hSame hDone, rfl⟩)

theorem apply_ne_encoding (write : Write) (job : RenderJob) :
    (write.apply job).status ≠ .encoding := by
  rcases apply_cases write job with
    ⟨hDone, hApply⟩ | ⟨-, hApply⟩ | ⟨_, _, -, hApply⟩ | ⟨_, -, -, -, hApply⟩
  · rw [hApply, hDone]
    nofun
  · rw [hApply]
    nofun
  · rw [hApply]
    nofun
  · rw [hApply]
    nofun

theorem apply_pending {write : Write} (hPending : (write.apply job).status = .pending) :
    ∃ withinGrace, write = .markInterrupted withinGrace := by
  rcases apply_cases write job with
    ⟨hDone, hApply⟩ | ⟨-, hApply⟩ | ⟨_, _, -, hApply⟩ | ⟨withinGrace, hWrite, -⟩
  · rw [hApply, hDone] at hPending
    cases hPending
  · rw [hApply] at hPending
    cases hPending
  · rw [hApply] at hPending
    cases hPending
  · exact ⟨withinGrace, hWrite⟩

end Write

/-! ## The invariant -/

/-- The phases in which the drain loop has the claim lock. -/
def DrainPhase.holdsLock : DrainPhase → Bool
  | .sweepReading => true
  | .sweepRead _ => true
  | .claiming _ => true
  | .claimed _ _ => true
  | _ => false

/-- The slot the drain loop has taken and not yet given to a task. -/
def DrainPhase.slot? : DrainPhase → Option Semaphore
  | .slotTaken semaphore => some semaphore
  | .claiming semaphore => some semaphore
  | .claimed semaphore _ => some semaphore
  | _ => none

/-- The rows the thread of the drain loop is about to fail. -/
def DrainPhase.flips : DrainPhase → List ℕ
  | .reclaimFailing ids => ids
  | .sweepFailing ids => ids
  | _ => []

def CallPhase.holdsLock : CallPhase → Bool
  | .untracked => true
  | .flippingPending => true
  | .failingOrphan => true
  | .returning => true
  | _ => false

namespace TaskPhase

/-- Nothing has been written about the outcome: the result may still be recorded. -/
def unwritten : TaskPhase → Bool
  | .created => true
  | .working => true
  | .neverRan => true
  | .settling _ inBody _ => inBody
  | .settled _ inBody _ landed => inBody && !landed
  | .backingOff _ inBody _ => inBody
  | .afterResult => false

/-- The last write about the outcome has landed, unless the queue is stopping. -/
def written : TaskPhase → Bool
  | .settled _ _ _ landed => landed
  | .afterResult => true
  | _ => false

/-- The job may have gone back to the queue. -/
def requeued : TaskPhase → Bool
  | .settled (.markInterrupted _) _ _ landed => landed
  | _ => false

/-- A result is recorded in the body only, a shutdown in a handler only and after `stop`. -/
def Proper (stopped : Bool) : TaskPhase → Prop
  | .settling write inBody _ => ProperWrite write inBody
  | .settled write inBody _ _ => ProperWrite write inBody
  | .backingOff write inBody _ => ProperWrite write inBody
  | _ => True
where
  ProperWrite : Write → Bool → Prop
    | .recordResult _ _, inBody => inBody = true
    | .markInterrupted _, inBody => inBody = false ∧ stopped = true
    | _, _ => True

theorem Proper.stopped {stopped : Bool} {phase : TaskPhase} (hProper : phase.Proper stopped) :
    phase.Proper true := by
  have hWrite : ∀ {write inBody}, Proper.ProperWrite stopped write inBody →
      Proper.ProperWrite true write inBody := by
    intro write inBody hBefore
    cases write with
    | recordResult => exact hBefore
    | markFailed | markCancelled => exact trivial
    | markInterrupted withinGrace => exact ⟨hBefore.1, rfl⟩
  cases phase with
  | settling | settled | backingOff => exact hWrite hProper
  | created | working | afterResult | neverRan => exact trivial

/-- The task leaves the `try` block of `_run_job` after its terminal write has landed, by a
cancellation that is not a user's or by an error of the post-render actions. -/
def failsAgain (outcome : Outcome) (user : Bool) : TaskPhase → Bool
  | .settled _ inBody cancelled landed => inBody && cancelled && landed && !user
  | .afterResult => outcome = .raises
  | _ => false

/-- A handler is about to report a failure. -/
def reporting : TaskPhase → Bool
  | .settling write inBody _ => !inBody && write ≠ .markCancelled
  | .settled write inBody _ landed => !inBody && !landed && write ≠ .markCancelled
  | .backingOff write inBody _ => !inBody && write ≠ .markCancelled
  | _ => false

end TaskPhase

/-! ## The steps by function -/

/-- What holds of the phase a step takes a task to.  A handler reports a failure because it was
about to, because nothing was written, or in a case of its own. -/
structure Continues (stopped : Bool) (before phase : TaskPhase) (again : Prop) : Prop where
  started : phase ≠ .created
  proper : phase.Proper stopped
  unwritten : phase.unwritten = true → before.unwritten = true
  written : stopped = false → phase.written = true → before.written = true
  requeued : before.requeued = true → phase.requeued = true
  reporting : phase.reporting = true →
    before.reporting = true ∨ before.unwritten = true ∨ again

/-- The drain loop gives up what it has: the claim lock, a slot. -/
structure GivesUp (state : QueueState) (lock : Option Holder) (free : Semaphore → ℕ) : Prop where
  lock : lock = state.lock ∨ state.drain.holdsLock = true
  slot : (state.drain.slot? = none ∧ free = state.free) ∨
    ∃ semaphore, state.drain.slot? = some semaphore ∧
      free = Function.update state.free semaphore (state.free semaphore + 1)

section Functions

variable {state after : QueueState} {id call : ℕ} {task : JobTask} {request : CancelCall}

theorem GivesUp.keep (hSlot : state.drain.slot? = none) : GivesUp state state.lock state.free :=
  ⟨Or.inl rfl, Or.inl ⟨hSlot, rfl⟩⟩

theorem drainError_cases (hStep : state.drainError = some after) :
    ∃ lock free, GivesUp state lock free ∧
      after = { state with lock := lock, free := free, drain := .idle } := by
  unfold QueueState.drainError at hStep
  split at hStep
  case h_1 hDrain | h_2 hDrain | h_4 hDrain =>
    cases hStep
    exact ⟨_, _, .keep (by rw [hDrain]; rfl), rfl⟩
  next hDrain =>
    cases hStep
    exact ⟨_, _, ⟨Or.inr (by rw [hDrain]; rfl), Or.inl ⟨by rw [hDrain]; rfl, rfl⟩⟩, rfl⟩
  next semaphore hDrain =>
    cases hStep
    exact ⟨_, _, ⟨Or.inr (by rw [hDrain]; rfl), Or.inr ⟨semaphore, by rw [hDrain]; rfl, rfl⟩⟩,
      rfl⟩
  next => cases hStep

theorem drainUnwind_cases (hStep : state.drainUnwind = some after) :
    ∃ lock free strayFlips strayClaim, GivesUp state lock free ∧
      (strayFlips = state.strayFlips ∨ strayFlips = state.drain.flips) ∧
      after = { state with
        lock := lock
        free := free
        drain := .ended
        strayFlips := strayFlips
        strayClaim := strayClaim } := by
  unfold QueueState.drainUnwind at hStep
  split at hStep
  case h_1 hDrain | h_2 hDrain =>
    cases hStep
    exact ⟨_, _, _, _, ⟨Or.inr (by rw [hDrain]; rfl), Or.inl ⟨by rw [hDrain]; rfl, rfl⟩⟩,
      Or.inl rfl, rfl⟩
  next hDrain =>
    cases hStep
    exact ⟨_, _, _, _, .keep (by rw [hDrain]; rfl), Or.inr (by rw [hDrain]; rfl), rfl⟩
  next semaphore hDrain =>
    cases hStep
    exact ⟨_, _, _, _, ⟨Or.inl rfl, Or.inr ⟨semaphore, by rw [hDrain]; rfl, rfl⟩⟩, Or.inl rfl,
      rfl⟩
  case h_5 semaphore hDrain | h_6 semaphore _ hDrain =>
    cases hStep
    exact ⟨_, _, _, _, ⟨Or.inr (by rw [hDrain]; rfl),
      Or.inr ⟨semaphore, by rw [hDrain]; rfl, rfl⟩⟩, Or.inl rfl, rfl⟩
  next => cases hStep
  next hReading hRead hFailing hTaken hClaiming hClaimed hEnded =>
    cases hStep
    refine ⟨_, _, _, _, .keep ?_, Or.inl rfl, rfl⟩
    cases hDrain : state.drain with
    | slotTaken semaphore => exact absurd hDrain (hTaken semaphore)
    | claiming semaphore => exact absurd hDrain (hClaiming semaphore)
    | claimed semaphore id => exact absurd hDrain (hClaimed semaphore id)
    | reclaiming | reclaimFailing | idle | sweepReading | sweepRead | sweepFailing | launching
    | ended => rfl

theorem callLocked_cases (hStep : state.callLocked call request = some after) :
    after = state.cancelTask call request ∨
      (state.lock = none ∧ state.tasks.get? request.job = none ∧
        after = { state.callOn call request .untracked with lock := some (.call call) }) := by
  unfold QueueState.callLocked at hStep
  split at hStep
  next hWaiting =>
    split at hStep
    next =>
      cases hStep
      exact Or.inl rfl
    next hFree =>
      cases hStep
      exact Or.inr ⟨hWaiting.2, hFree, rfl⟩
  next => cases hStep

theorem callThread_cases (hStep : state.callThread call request = some after) :
    request.phase.holdsLock = true ∧
      ((∃ phase, after = state.callOn call request phase) ∨
        ∃ status, (status = .pending ∨ status = .encoding) ∧
          after = { state.callOn call request .returning with
            table := state.table.update request.job (RenderJob.flipIf status) }) := by
  unfold QueueState.callThread at hStep
  split at hStep
  next hPhase =>
    refine ⟨by rw [hPhase]; rfl, Or.inl ?_⟩
    split at hStep
    all_goals
      cases hStep
      exact ⟨_, rfl⟩
  next hPhase =>
    cases hStep
    exact ⟨by rw [hPhase]; rfl, Or.inr ⟨_, Or.inl rfl, rfl⟩⟩
  next hPhase =>
    cases hStep
    exact ⟨by rw [hPhase]; rfl, Or.inr ⟨_, Or.inr rfl, rfl⟩⟩
  next => cases hStep

theorem callError_cases (hStep : state.callError call request = some after) :
    request.phase.holdsLock = true ∧
      after = { state with calls := state.calls.erase call, lock := none } := by
  unfold QueueState.callError at hStep
  split at hStep
  case h_1 hPhase | h_2 hPhase | h_3 hPhase =>
    cases hStep
    exact ⟨by rw [hPhase]; rfl, rfl⟩
  next => cases hStep

theorem callReturns_cases (hStep : state.callReturns call request = some after) :
    (request.phase.holdsLock = true ∧
        after = { state with calls := state.calls.erase call, lock := none }) ∨
      after = { state with
        calls := state.calls.erase call
        userCancels := state.userCancels.filter fun id => id ≠ request.job } := by
  unfold QueueState.callReturns at hStep
  split at hStep
  next hPhase =>
    cases hStep
    exact Or.inl ⟨by rw [hPhase]; rfl, rfl⟩
  next =>
    split at hStep
    next =>
      cases hStep
      exact Or.inr rfl
    next => cases hStep
  next => cases hStep

end Functions

/-! ## Consistent states -/

/-- What the row of a job with a task can be. -/
structure RowFits (stopped : Bool) (phase : TaskPhase) (job : RenderJob) : Prop where
  unwritten : phase.unwritten = true → job.status = .encoding
  written : stopped = false → phase.written = true → job.status ≠ .encoding
  pending : job.status = .pending → phase.requeued = true ∧ stopped = true

structure Consistent (state : QueueState) : Prop where
  drainLock : state.drain.holdsLock = true → state.lock = some .drain
  callLock : ∀ call request, state.calls.get? call = some request →
    request.phase.holdsLock = true → state.lock = some (.call call)
  cancelled : state.drainCancelled = state.stopped
  strays : state.stopped = false → state.strayFlips = [] ∧ state.strayClaim = none
  known : ∀ id task, state.tasks.get? id = some task → id ≤ state.table.lastId
  starting : state.drain.starting = true → ∀ id, state.tasks.get? id = none
  flips : ∀ id ∈ state.drain.flips, state.tasks.get? id = none
  strayFlips : ∀ id ∈ state.strayFlips, state.tasks.get? id = none
  untracked : ∀ call request, state.calls.get? call = some request →
    request.phase.holdsLock = true → state.tasks.get? request.job = none
  claimed : state.stopped = false → ∀ semaphore id, state.drain = .claimed semaphore (some id) →
    id ≤ state.table.lastId ∧ state.tasks.get? id = none ∧
      ∀ job, state.table.job? id = some job → job.status = .encoding
  proper : ∀ id task, state.tasks.get? id = some task → task.phase.Proper state.stopped
  rows : ∀ id task job, state.tasks.get? id = some task → state.table.job? id = some job →
    RowFits state.stopped task.phase job

theorem Consistent.boot (capacity : Semaphore → ℕ) (table : JobTable) :
    Consistent (QueueState.boot capacity table) where
  drainLock := by simp [QueueState.boot, DrainPhase.holdsLock]
  callLock := by simp [QueueState.boot]
  cancelled := rfl
  strays := fun _ => ⟨rfl, rfl⟩
  known := by simp [QueueState.boot]
  starting := by simp [QueueState.boot]
  flips := by simp [QueueState.boot, DrainPhase.flips]
  strayFlips := by simp [QueueState.boot]
  untracked := by simp [QueueState.boot]
  claimed := by simp [QueueState.boot]
  proper := by simp [QueueState.boot]
  rows := by simp [QueueState.boot]

namespace Consistent

variable {state : QueueState}

/-! ## Changes of one kind -/

theorem frame (h : Consistent state) (free : Semaphore → ℕ) (userCancels : List ℕ) :
    Consistent { state with free := free, userCancels := userCancels } :=
  ⟨h.drainLock, h.callLock, h.cancelled, h.strays, h.known, h.starting, h.flips, h.strayFlips,
    h.untracked, h.claimed, h.proper, h.rows⟩

theorem release (h : Consistent state) (semaphore : Semaphore) :
    Consistent (state.release semaphore) :=
  h.frame _ _

theorem moveTable (h : Consistent state) {table : JobTable}
    (hLast : state.table.lastId ≤ table.lastId)
    (hRows : ∀ id task job, state.tasks.get? id = some task → table.job? id = some job →
      RowFits state.stopped task.phase job) (hClaimed : state.stopped = false → ∀ semaphore id,
      state.drain = .claimed semaphore (some id) →
      ∀ job, table.job? id = some job → job.status = .encoding) :
    Consistent { state with table := table } := { h with
  known := fun id task hTask => Nat.le_trans (h.known id task hTask) hLast
  claimed := by
    intro hRunning semaphore id hDrain
    obtain ⟨hLe, hNone, -⟩ := h.claimed hRunning semaphore id hDrain
    exact ⟨Nat.le_trans hLe hLast, hNone, hClaimed hRunning semaphore id hDrain⟩
  rows := hRows }

variable {id : ℕ} {lock : Option Holder}

section

variable (h : Consistent state)
include h

theorem updateFree {change : RenderJob → RenderJob} (hFree : state.tasks.get? id = none)
    (hClaimed : state.stopped = false → ∀ semaphore, state.drain ≠ .claimed semaphore (some id)) :
    Consistent { state with table := state.table.update id change } := by
  refine h.moveTable (Nat.le_refl _) ?_ ?_
  · intro other task job hTask hJob
    have hNe : other ≠ id := by
      rintro rfl
      rw [hFree] at hTask
      cases hTask
    rw [JobTable.job?_update_of_ne hNe] at hJob
    exact h.rows other task job hTask hJob
  · intro hRunning semaphore other hDrain job hJob
    have hNe : other ≠ id := by
      rintro rfl
      exact hClaimed hRunning semaphore hDrain
    rw [JobTable.job?_update_of_ne hNe] at hJob
    exact (h.claimed hRunning semaphore other hDrain).2.2 job hJob

theorem enqueue (isExport : Bool) :
    Consistent { state with table := state.table.enqueue isExport } := by
  refine h.moveTable (Nat.le_succ _) ?_ ?_
  · intro id task job hTask hJob
    have hLe := h.known id task hTask
    rw [JobTable.job?_enqueue, if_neg (by omega)] at hJob
    exact h.rows id task job hTask hJob
  · intro hRunning semaphore id hDrain job hJob
    obtain ⟨hLe, -, hEncoding⟩ := h.claimed hRunning semaphore id hDrain
    rw [JobTable.job?_enqueue, if_neg (by omega)] at hJob
    exact hEncoding job hJob

theorem remove (id : ℕ) : Consistent { state with table := state.table.remove id } := by
  have hKeep : ∀ {other job}, (state.table.remove id).job? other = some job →
      state.table.job? other = some job := by
    intro other job hJob
    rw [JobTable.job?_remove] at hJob
    split at hJob
    · cases hJob
    · exact hJob
  refine h.moveTable (Nat.le_refl _) ?_ ?_
  · intro other task job hTask hJob
    exact h.rows other task job hTask (hKeep hJob)
  · intro hRunning semaphore other hDrain job hJob
    exact (h.claimed hRunning semaphore other hDrain).2.2 job (hKeep hJob)

theorem claimRow (hJob : state.table.job? id = some job) (hPending : job.status = .pending) :
    Consistent { state with table := state.table.update id RenderJob.claim } := by
  have hClaim : job.claim.status = .encoding := by
    rw [RenderJob.claim, if_pos hPending]
  refine h.moveTable (Nat.le_refl _) ?_ ?_
  · intro other task changed hTask hChanged
    by_cases hId : other = id
    · subst hId
      obtain ⟨hRequeued, hStopped⟩ := (h.rows other task job hTask hJob).pending hPending
      rw [JobTable.job?_update, if_pos rfl, hJob] at hChanged
      cases hChanged
      refine ⟨fun _ => hClaim, ?_, ?_⟩
      · intro hRunning
        rw [hStopped] at hRunning
        cases hRunning
      · intro hStill
        rw [hClaim] at hStill
        cases hStill
    · rw [JobTable.job?_update_of_ne hId] at hChanged
      exact h.rows other task changed hTask hChanged
  · intro hRunning semaphore other hDrain changed hChanged
    obtain ⟨-, -, hEncoding⟩ := h.claimed hRunning semaphore other hDrain
    by_cases hId : other = id
    · subst hId
      have hStill := hEncoding job hJob
      rw [hPending] at hStill
      cases hStill
    · rw [JobTable.job?_update_of_ne hId] at hChanged
      exact hEncoding changed hChanged

theorem moveDrain {drain : DrainPhase} (hDrainLock : drain.holdsLock = true → lock = some .drain)
    (hCallLock : ∀ call, state.lock = some (.call call) → lock = some (.call call))
    (hStarting : drain.starting = true → state.drain.starting = true)
    (hFlips : ∀ id ∈ drain.flips, state.tasks.get? id = none)
    (hClaimed : state.stopped = false → ∀ semaphore id, drain = .claimed semaphore (some id) →
      id ≤ state.table.lastId ∧ state.tasks.get? id = none ∧
        ∀ job, state.table.job? id = some job → job.status = .encoding) :
    Consistent { state with drain := drain, lock := lock } := { h with
  drainLock := hDrainLock
  callLock := fun call request hCall hHolds =>
    hCallLock call (h.callLock call request hCall hHolds)
  starting := fun hStart => h.starting (hStarting hStart)
  flips := hFlips
  claimed := hClaimed }

theorem setTasks {tasks : Dict ℕ JobTask} {table : JobTable}
    (hLast : table.lastId = state.table.lastId)
    (hNone : ∀ {id}, state.tasks.get? id = none →
      tasks.get? id = none ∧ table.job? id = state.table.job? id)
    (hTasks : ∀ id task, tasks.get? id = some task → id ≤ state.table.lastId ∧
      task.phase.Proper state.stopped ∧
      ∀ job, table.job? id = some job → RowFits state.stopped task.phase job) :
    Consistent { state with table := table, tasks := tasks } := { h with
  known := by
    rw [hLast]
    exact fun id task hTask => (hTasks id task hTask).1
  starting := fun hStart id => (hNone (h.starting hStart id)).1
  flips := fun id hMem => (hNone (h.flips id hMem)).1
  strayFlips := fun id hMem => (hNone (h.strayFlips id hMem)).1
  untracked := fun call request hCall hHolds => (hNone (h.untracked call request hCall hHolds)).1
  claimed := by
    intro hRunning semaphore id hDrain
    obtain ⟨hLe, hFree, hEncoding⟩ := h.claimed hRunning semaphore id hDrain
    obtain ⟨hStill, hJob⟩ := hNone hFree
    rw [hLast, hJob]
    exact ⟨hLe, hStill, hEncoding⟩
  proper := fun id task hTask => (hTasks id task hTask).2.1
  rows := fun id task job hTask => (hTasks id task hTask).2.2 job }

theorem setTask {task next : JobTask} {table : JobTable}
    (hTask : state.tasks.get? id = some task) (hLast : table.lastId = state.table.lastId)
    (hOther : ∀ other, other ≠ id → table.job? other = state.table.job? other)
    (hProper : next.phase.Proper state.stopped)
    (hRow : ∀ job, table.job? id = some job → RowFits state.stopped next.phase job) :
    Consistent { state with table := table, tasks := state.tasks.set id next } := by
  refine h.setTasks hLast ?_ ?_
  · intro other hNone
    have hNe : other ≠ id := by
      rintro rfl
      rw [hTask] at hNone
      cases hNone
    exact ⟨(Dict.get?_set_of_ne hNe).trans hNone, hOther other hNe⟩
  · intro other found hFound
    rcases Dict.of_get?_set hFound with ⟨rfl, rfl⟩ | ⟨hId, hOld⟩
    · exact ⟨h.known other task hTask, hProper, hRow⟩
    · rw [hOther other hId]
      exact ⟨h.known other found hOld, h.proper other found hOld,
        fun job => h.rows other found job hOld⟩

theorem goOn {task before : JobTask} {phase : TaskPhase} {again : Prop}
    (hTask : state.tasks.get? id = some before)
    (hContinues : Continues state.stopped before.phase phase again) :
    Consistent (state.goOn id task phase) := by
  refine h.setTask hTask rfl (fun _ _ => rfl) hContinues.proper ?_
  intro job hJob
  have hFits := h.rows id before job hTask hJob
  refine ⟨fun hPhase => hFits.unwritten (hContinues.unwritten hPhase),
    fun hRunning hPhase => hFits.written hRunning (hContinues.written hRunning hPhase), ?_⟩
  intro hPending
  obtain ⟨hPhase, hStopped⟩ := hFits.pending hPending
  exact ⟨hContinues.requeued hPhase, hStopped⟩

theorem moveTasks {tasks : Dict ℕ JobTask} (hTasks : ∀ id task, tasks.get? id = some task →
      ∃ before, state.tasks.get? id = some before ∧ before.phase = task.phase) :
    Consistent { state with tasks := tasks } := by
  refine h.setTasks rfl ?_ ?_
  · intro id hId
    refine ⟨?_, rfl⟩
    cases hTask : tasks.get? id with
    | none => rfl
    | some task =>
      obtain ⟨before, hBefore, -⟩ := hTasks id task hTask
      rw [hId] at hBefore
      cases hBefore
  · intro id task hTask
    obtain ⟨before, hBefore, hPhase⟩ := hTasks id task hTask
    rw [← hPhase]
    exact ⟨h.known id before hBefore, h.proper id before hBefore,
      fun job => h.rows id before job hBefore⟩

theorem finish (id : ℕ) (task : JobTask) : Consistent (state.finish id task) := by
  refine (h.moveTasks ?_).release _
  intro other found hFound
  exact ⟨found, (Dict.of_get?_erase hFound).2, rfl⟩

end

theorem cancel_phase (task : JobTask) : task.cancel.phase = task.phase := by
  unfold JobTask.cancel
  split
  · rfl
  · rfl

theorem phase_of_cancel {found : Option JobTask} {task : JobTask}
    (hTask : found.map JobTask.cancel = some task) :
    ∃ before, found = some before ∧ before.phase = task.phase := by
  obtain ⟨before, hBefore, rfl⟩ := Option.map_eq_some_iff.mp hTask
  exact ⟨before, hBefore, (cancel_phase before).symm⟩

theorem phase_of_cancelTask {job : ℕ} {task : JobTask}
    (hTask : (state.tasks.modify job JobTask.cancel).get? id = some task) :
    ∃ before, state.tasks.get? id = some before ∧ before.phase = task.phase := by
  rw [Dict.get?_modify] at hTask
  split at hTask
  next => exact phase_of_cancel hTask
  next => exact ⟨task, hTask, rfl⟩

section

variable (h : Consistent state)
include h

theorem setCall {call : ℕ} {request : CancelCall} (hHolds : request.phase.holdsLock = true →
      lock = some (.call call) ∧ state.tasks.get? request.job = none)
    (hDrain : state.drain.holdsLock = true → lock = some .drain)
    (hOthers : ∀ other, other ≠ call → state.lock = some (.call other) →
      lock = some (.call other)) :
    Consistent { state with calls := state.calls.set call request, lock := lock } := { h with
  drainLock := hDrain
  callLock := by
    intro other found hFound hHolding
    rcases Dict.of_get?_set hFound with ⟨rfl, rfl⟩ | ⟨hNe, hOld⟩
    · exact (hHolds hHolding).1
    · exact hOthers other hNe (h.callLock other found hOld hHolding)
  untracked := by
    intro other found hFound hHolding
    rcases Dict.of_get?_set hFound with ⟨-, rfl⟩ | ⟨-, hOld⟩
    · exact (hHolds hHolding).2
    · exact h.untracked other found hOld hHolding }

theorem eraseCall {call : ℕ} (hDrain : state.drain.holdsLock = true → lock = some .drain)
    (hOthers : ∀ other, other ≠ call → state.lock = some (.call other) →
      lock = some (.call other)) :
    Consistent { state with calls := state.calls.erase call, lock := lock } := { h with
  drainLock := hDrain
  callLock := by
    intro other found hFound hHolding
    obtain ⟨hNe, hOld⟩ := Dict.of_get?_erase hFound
    exact hOthers other hNe (h.callLock other found hOld hHolding)
  untracked := by
    intro other found hFound hHolding
    exact h.untracked other found (Dict.of_get?_erase hFound).2 hHolding }

theorem setStrays {strayFlips : List ℕ} {strayClaim : Option Semaphore}
    (hStopped : state.stopped = true) (hFree : ∀ id ∈ strayFlips, state.tasks.get? id = none) :
    Consistent { state with strayFlips := strayFlips, strayClaim := strayClaim } := { h with
  strays := fun hRunning => by
    rw [hStopped] at hRunning
    cases hRunning
  strayFlips := hFree }

theorem cancelTasks : Consistent { state with tasks := state.tasks.mapValues JobTask.cancel } := by
  refine h.moveTasks ?_
  intro id task hTask
  rw [Dict.get?_mapValues] at hTask
  exact phase_of_cancel hTask

theorem beginStop : Consistent { state with stopped := true, drainCancelled := true } := { h with
  cancelled := rfl
  strays := nofun
  claimed := nofun
  proper := fun id task hTask => (h.proper id task hTask).stopped
  rows := by
    intro id task job hTask hJob
    have hFits := h.rows id task job hTask hJob
    exact ⟨hFits.unwritten, nofun, fun hPending => ⟨(hFits.pending hPending).1, rfl⟩⟩ }

end

end Consistent

end TimelapseManager.Render
