import TimelapseManager.Render.QueueConsistent

/-!
# What a step of the render queue can do

One inversion of `step` (`effects_of_step`), from which the results about runs are derived.

* `Writes` lists the transactions on the job table, with what the writer has made sure of.
* `Acts` lists what happens to the slots and to the tasks of the process.
-/

namespace TimelapseManager.Render

open KeyedRows

/-! ## The writers -/

/-- What the step with a label may write in a state. -/
inductive Writes (state : QueueState) : Label → JobTable → Prop
  | nothing (label : Label) : Writes state label state.table
  | enqueue (isExport : Bool) : Writes state (.enqueue isExport) (state.table.enqueue isExport)
  | remove (id : ℕ) : Writes state (.remove id) (state.table.remove id)
  | orphan (label : Label) (id : ℕ) (hFree : state.tasks.get? id = none) :
      Writes state label (state.table.update id (RenderJob.flipIf .encoding))
  | cancel (call id : ℕ) (hFree : state.tasks.get? id = none)
      (hLock : state.lock = some (.call call)) :
      Writes state (.callThread call) (state.table.update id (RenderJob.flipIf .pending))
  | claim (label : Label) (id : ℕ) (job : RenderJob) (hJob : state.table.job? id = some job)
      (hPending : job.status = .pending) :
      Writes state label (state.table.update id RenderJob.claim)
  | settle (id : ℕ) (task : JobTask) (write : Write) (inBody cancelled : Bool)
      (hTask : state.tasks.get? id = some task)
      (hPhase : task.phase = .settling write inBody cancelled) :
      Writes state (.write id true) (state.table.update id write.apply)

/-! ## Slots and tasks -/

/-- The steps of the drain loop. -/
def Label.drains : Label → Bool
  | .drainThread => true
  | .drainLoop => true
  | .drainError => true
  | .drainUnwind => true
  | _ => false

/-- The steps of a task itself. -/
def Label.ofTask : Label → Bool
  | .run _ _ _ => true
  | .deliver _ _ => true
  | .write _ _ => true
  | _ => false

/-- The jobs whose tasks a step cancels. -/
def Cancels (state : QueueState) : Label → ℕ → Prop
  | .cancelJob _ id _, other => other = id
  | .callLocked call, other => ∃ request ∈ state.calls.get? call, other = request.job
  | .stop, _ => True
  | _, _ => False

/-- What the step with a label may do to slots and tasks. -/
inductive Acts (state : QueueState) (label : Label) (after : QueueState) : Prop
  | quiet (hFree : after.free = state.free) (hTasks : after.tasks = state.tasks)
      (hSlot : after.drain.slot? = state.drain.slot?)
      (hDrain : label.drains = false → after.drain = state.drain)
  | acquire (semaphore : Semaphore) (hPositive : 0 < state.free semaphore)
      (hFree : after.free = Function.update state.free semaphore (state.free semaphore - 1))
      (hTasks : after.tasks = state.tasks) (hNone : state.drain.slot? = none)
      (hSlot : after.drain.slot? = some semaphore) (hLabel : label.drains = true)
  | giveBack (semaphore : Semaphore)
      (hFree : after.free = Function.update state.free semaphore (state.free semaphore + 1))
      (hTasks : after.tasks = state.tasks) (hSome : state.drain.slot? = some semaphore)
      (hSlot : after.drain.slot? = none) (hLabel : label.drains = true)
  | launch (semaphore : Semaphore) (id : ℕ) (hDrain : state.drain = .claimed semaphore (some id))
      (hUntracked : state.tasks.get? id = none) (hFree : after.free = state.free)
      (hTasks : after.tasks = state.tasks.set id ⟨semaphore, .created, false⟩)
      (hSlot : after.drain.slot? = none) (hLabel : label.drains = true)
  | progress (id : ℕ) (task next : JobTask) (hTask : state.tasks.get? id = some task)
      (hSemaphore : next.semaphore = task.semaphore) (hStarted : next.phase ≠ .created)
      (hNever : next.phase = .neverRan → task.phase = .created ∧ task.cancelRequested = true)
      (hFree : after.free = state.free) (hTasks : after.tasks = state.tasks.set id next)
      (hDrain : after.drain = state.drain) (hLabel : label.ofTask = true)
  | finish (id : ℕ) (task : JobTask) (hTask : state.tasks.get? id = some task)
      (hWritten : state.stopped = false → task.phase.written = true)
      (hFree : after.free =
        Function.update state.free task.semaphore (state.free task.semaphore + 1))
      (hTasks : after.tasks = state.tasks.erase id) (hDrain : after.drain = state.drain)
      (hTable : after.table = state.table)
  | cancel (hFree : after.free = state.free)
      (hCount : ∀ kind : Semaphore → Bool, (after.tasks.count fun task => kind task.semaphore) =
        state.tasks.count fun task => kind task.semaphore)
      (hTasks : ∀ id, after.tasks.get? id = state.tasks.get? id ∨
        (Cancels state label id ∧ after.tasks.get? id = (state.tasks.get? id).map JobTask.cancel))
      (hDrain : after.drain = state.drain)
  | restart (capacity : Semaphore → ℕ) (hAfter : after = QueueState.boot capacity state.table)
      (hLabel : label = .restart)

variable {state after : QueueState} {label : Label} {id call : ℕ} {task : JobTask}
  {request : CancelCall} {semaphore : Semaphore} {capacity : Semaphore → ℕ}

/-- What a step does to the table, to the slots and the tasks; a job it claims was pending. -/
structure Effects (state : QueueState) (label : Label) (after : QueueState) : Prop where
  writes : Writes state label after.table
  acts : Acts state label after
  claims : ∀ {semaphore id}, after.drain = .claimed semaphore (some id) →
    state.drain = .claimed semaphore (some id) ∨
      ∃ job, state.table.job? id = some job ∧ job.status = .pending

/-! ## The drain loop -/

theorem effects_of_drainThread (h : Consistent state) (hStep : state.drainThread = some after) :
    Effects state .drainThread after := by
  unfold QueueState.drainThread at hStep
  split at hStep
  case h_1 hDrain | h_3 hDrain =>
    cases hStep
    exact ⟨.nothing _, .quiet rfl rfl (by rw [hDrain]; rfl) nofun, nofun⟩
  case h_2 id ids hDrain | h_4 id ids hDrain =>
    cases hStep
    exact ⟨.orphan _ id (h.flips id (by rw [hDrain]; exact List.mem_cons_self)),
      .quiet rfl rfl (by rw [hDrain]; rfl) nofun, nofun⟩
  next taken hDrain =>
    rcases state.table.claimOldestPending_cases taken.family with
      hNothing | ⟨found, job, hClaim, hJob, hPending⟩
    · rw [hNothing] at hStep
      cases hStep
      exact ⟨.nothing _, .quiet rfl rfl (by rw [hDrain]; rfl) nofun, nofun⟩
    · rw [hClaim] at hStep
      cases hStep
      refine ⟨.claim _ found job hJob hPending, .quiet rfl rfl (by rw [hDrain]; rfl) nofun, ?_⟩
      rintro _ _ ⟨⟩
      exact Or.inr ⟨job, hJob, hPending⟩
  next => cases hStep

theorem afterLaunch_free (taken : Semaphore) :
    (QueueState.afterLaunch taken).slot? = none ∧
      ∀ semaphore id, QueueState.afterLaunch taken ≠ .claimed semaphore (some id) := by
  cases taken with
  | render | exports => exact ⟨rfl, fun _ _ => nofun⟩

theorem effects_of_drainLoop (h : Consistent state) (hRunning : state.stopped = false)
    (hStep : state.drainLoop = some after) : Effects state .drainLoop after := by
  unfold QueueState.drainLoop at hStep
  split at hStep
  case h_1 hDrain | h_3 _ hDrain | h_4 hDrain =>
    cases hStep
    exact ⟨.nothing _, .quiet rfl rfl (by rw [hDrain]; rfl) nofun, nofun⟩
  -- It waits for the lock.
  case h_2 hDrain | h_6 _ hDrain =>
    split at hStep
    next =>
      cases hStep
      exact ⟨.nothing _, .quiet rfl rfl (by rw [hDrain]; rfl) nofun, nofun⟩
    next => cases hStep
  next taken hDrain =>
    split at hStep
    next hPositive =>
      cases hStep
      exact ⟨.nothing _, .acquire taken hPositive rfl rfl (by rw [hDrain]; rfl) rfl rfl, nofun⟩
    next =>
      cases hStep
      exact ⟨.nothing _, .quiet rfl rfl (by rw [hDrain, (afterLaunch_free taken).1]; rfl) nofun,
        fun hClaimed => absurd hClaimed ((afterLaunch_free taken).2 _ _)⟩
  next taken hDrain =>
    cases hStep
    exact ⟨.nothing _,
      .giveBack taken rfl rfl (by rw [hDrain]; rfl) (afterLaunch_free taken).1 rfl,
      fun hClaimed => absurd hClaimed ((afterLaunch_free taken).2 _ _)⟩
  next taken launched hDrain =>
    cases hStep
    exact ⟨.nothing _, .launch taken launched hDrain
      (h.claimed hRunning taken launched hDrain).2.1 rfl rfl rfl rfl, nofun⟩
  next => cases hStep

theorem acts_of_givesUp {lock : Option Holder} (hGives : GivesUp state lock after.free)
    (hTasks : after.tasks = state.tasks) (hSlot : after.drain.slot? = none)
    (hLabel : label.drains = true) : Acts state label after := by
  rcases hGives.slot with ⟨hNone, hFree⟩ | ⟨semaphore, hSome, hFree⟩
  · refine .quiet hFree hTasks (hSlot.trans hNone.symm) ?_
    intro hNot
    rw [hLabel] at hNot
    cases hNot
  · exact .giveBack semaphore hFree hTasks hSome hSlot hLabel

/-! ## Every step -/

theorem cancel_semaphore (task : JobTask) : task.cancel.semaphore = task.semaphore := by
  unfold JobTask.cancel
  split
  · rfl
  · rfl

theorem acts_of_cancelTask (hCancels : Cancels state label request.job) :
    Acts state label (state.cancelTask call request) := by
  refine .cancel rfl ?_ ?_ rfl
  · intro kind
    exact Dict.count_modify fun task => by rw [cancel_semaphore]
  · intro id
    by_cases hId : id = request.job
    · subst hId
      exact Or.inr ⟨hCancels, Dict.get?_modify_self⟩
    · exact Or.inl (Dict.get?_modify_of_ne hId)

theorem effects_of_step (h : Consistent state) (hStep : step capacity state label = some after) :
    Effects state label after := by
  cases moves_of_step hStep with
  | enqueue isExport => exact ⟨.enqueue isExport, .quiet rfl rfl rfl (fun _ => rfl), Or.inl⟩
  | remove id => exact ⟨.remove id, .quiet rfl rfl rfl (fun _ => rfl), Or.inl⟩
  | drainThread hThread => exact effects_of_drainThread h hThread
  | drainLoop hCancelled hLoop =>
    rw [h.cancelled] at hCancelled
    exact effects_of_drainLoop h hCancelled hLoop
  | drainError _ hError =>
    obtain ⟨lock, free, hGives, rfl⟩ := drainError_cases hError
    exact ⟨.nothing _, acts_of_givesUp hGives rfl rfl rfl, nofun⟩
  | drainUnwind _ hUnwind =>
    obtain ⟨lock, free, strayFlips, strayClaim, hGives, -, rfl⟩ := drainUnwind_cases hUnwind
    exact ⟨.nothing _, acts_of_givesUp hGives rfl rfl rfl, nofun⟩
  | strayFlip hStrays =>
    exact ⟨.orphan _ _ (h.strayFlips _ (by rw [hStrays]; exact List.mem_cons_self)),
      .quiet rfl rfl rfl (fun _ => rfl), Or.inl⟩
  | @strayClaim semaphore =>
    refine ⟨?_, .quiet rfl rfl rfl (fun _ => rfl), Or.inl⟩
    rcases state.table.claimOldestPending_cases semaphore.family with
      hNothing | ⟨id, job, hClaim, hJob, hPending⟩
    · rw [hNothing]
      exact .nothing _
    · rw [hClaim]
      exact .claim _ id job hJob hPending
  | @run id task _ _ _ hTask _ hRun =>
    rcases h.runTask_cases hTask hRun with ⟨phase, rfl, hNever, hContinues⟩ | ⟨hWritten, rfl⟩
    · exact ⟨.nothing _, .progress id task { task with phase := phase } hTask rfl
        hContinues.started (fun hPhase => absurd hPhase hNever) rfl rfl rfl rfl, Or.inl⟩
    · exact ⟨.nothing _, .finish id task hTask hWritten rfl rfl rfl rfl, Or.inl⟩
  | @deliver id task _ _ hTask hCancel hDeliver =>
    obtain ⟨phase, rfl, hNever, hContinues⟩ := h.deliver_cases hTask hDeliver
    exact ⟨.nothing _, .progress id task { task with phase := phase, cancelRequested := false }
      hTask rfl hContinues.started (fun hPhase => ⟨hNever hPhase, hCancel⟩) rfl rfl rfl rfl, Or.inl⟩
  | @write id task write inBody cancelled landed hTask hPhase =>
    refine ⟨?_, .progress id task { task with phase := .settled write inBody cancelled landed }
      hTask rfl nofun nofun rfl rfl rfl rfl, Or.inl⟩
    cases landed with
    | false => exact .nothing _
    | true => exact .settle id task write inBody cancelled hTask hPhase
  | cancelJob =>
    unfold QueueState.cancelJob
    split
    · exact ⟨.nothing _, acts_of_cancelTask rfl, Or.inl⟩
    · exact ⟨.nothing _, .quiet rfl rfl rfl (fun _ => rfl), Or.inl⟩
  | @callLocked call request _ hCall hLocked =>
    rcases callLocked_cases hLocked with rfl | ⟨-, -, rfl⟩
    · exact ⟨.nothing _, acts_of_cancelTask ⟨request, hCall, rfl⟩, Or.inl⟩
    · exact ⟨.nothing _, .quiet rfl rfl rfl (fun _ => rfl), Or.inl⟩
  | callThread hCall hThread =>
    obtain ⟨hHolds, ⟨phase, rfl⟩ | ⟨status, hStatus, rfl⟩⟩ := callThread_cases hThread
    · exact ⟨.nothing _, .quiet rfl rfl rfl (fun _ => rfl), Or.inl⟩
    · refine ⟨?_, .quiet rfl rfl rfl (fun _ => rfl), Or.inl⟩
      have hFree := h.untracked _ _ hCall hHolds
      rcases hStatus with rfl | rfl
      · exact .cancel _ _ hFree (h.callLock _ _ hCall hHolds)
      · exact .orphan _ _ hFree
  | callError _ hError =>
    obtain ⟨-, rfl⟩ := callError_cases hError
    exact ⟨.nothing _, .quiet rfl rfl rfl (fun _ => rfl), Or.inl⟩
  | callReturns _ hReturns =>
    rcases callReturns_cases hReturns with ⟨-, rfl⟩ | rfl
    · exact ⟨.nothing _, .quiet rfl rfl rfl (fun _ => rfl), Or.inl⟩
    · exact ⟨.nothing _, .quiet rfl rfl rfl (fun _ => rfl), Or.inl⟩
  | stop =>
    refine ⟨.nothing _, .cancel rfl ?_ ?_ rfl, Or.inl⟩
    · intro kind
      exact Dict.count_mapValues fun task => by rw [cancel_semaphore]
    · intro id
      exact Or.inr ⟨trivial, Dict.get?_mapValues⟩
  | restart => exact ⟨.nothing _, .restart capacity rfl rfl, nofun⟩

/-- A job without a task gets one only when it is launched. -/
theorem Acts.untracked (hActs : Acts state label after) (hFree : state.tasks.get? id = none)
    (hUnclaimed : ∀ semaphore, state.drain ≠ .claimed semaphore (some id)) :
    after.tasks.get? id = none := by
  cases hActs with
  | quiet _ hTasks | acquire semaphore hPositive _ hTasks | giveBack semaphore _ hTasks =>
    rw [hTasks, hFree]
  | launch semaphore launched hDrain _ _ hTasks =>
    rw [hTasks, Dict.get?_set, hFree, if_neg]
    rintro rfl
    exact hUnclaimed semaphore hDrain
  | progress moved before next hBefore _ _ _ _ hTasks =>
    rw [hTasks, Dict.get?_set, hFree, if_neg]
    rintro rfl
    rw [hFree] at hBefore
    cases hBefore
  | finish finished before _ _ _ hTasks =>
    rw [hTasks, Dict.get?_erase, hFree, ite_self]
  | cancel _ _ hTasks =>
    rcases hTasks id with hSame | ⟨-, hCancelled⟩
    · rw [hSame, hFree]
    · rw [hCancelled, hFree]
      rfl
  | restart capacity hAfter =>
    rw [hAfter]
    rfl

theorem Acts.drain_eq (hActs : Acts state label after) (hLabel : label.drains = false)
    (hRestart : label ≠ .restart) : after.drain = state.drain := by
  cases hActs with
  | quiet _ _ _ hDrain => exact hDrain hLabel
  | acquire semaphore hPositive hFree hTasks hNone hSlot hDrains
  | giveBack semaphore hFree hTasks hSome hSlot hDrains
  | launch semaphore launched _ _ _ _ _ hDrains =>
    rw [hDrains] at hLabel
    cases hLabel
  | progress moved before next _ _ _ _ _ _ hDrain => exact hDrain
  | finish finished before hBefore hWritten hFree hTasks hDrain
  | cancel _ _ _ hDrain => exact hDrain
  | restart capacity _ hSame => exact absurd hSame hRestart

end TimelapseManager.Render
