import TimelapseManager.Render.QueueInvariant

/-!
# Every step keeps the render queue consistent

One lemma per function of the step, then `consistent_of_step` and `consistent_of_run`: the
states the queue reaches are `Consistent`, with no condition on the interleaving.
-/

namespace TimelapseManager.Render

open KeyedRows Runs

namespace Consistent

variable {state after : QueueState}

/-! ## The drain loop -/

theorem noCall (h : Consistent state) (hHolds : state.drain.holdsLock = true) {lock : Option Holder}
    (call : ℕ) (hCall : state.lock = some (.call call)) : lock = some (.call call) := by
  rw [h.drainLock hHolds] at hCall
  cases hCall

theorem keepsCalls (h : Consistent state) {lock : Option Holder} {free : Semaphore → ℕ}
    (hGives : GivesUp state lock free) (call : ℕ) (hCall : state.lock = some (.call call)) :
    lock = some (.call call) := by
  rcases hGives.lock with rfl | hHolds
  · exact hCall
  · exact h.noCall hHolds call hCall

theorem leave (h : Consistent state) {drain : DrainPhase} {lock : Option Holder}
    (hLock : drain.holdsLock = false)
    (hCallLock : ∀ call, state.lock = some (.call call) → lock = some (.call call))
    (hStarting : drain.starting = false) (hFlips : drain.flips = []) :
    Consistent { state with drain := drain, lock := lock } := by
  refine h.moveDrain ?_ hCallLock ?_ ?_ ?_
  · intro hHolds
    rw [hLock] at hHolds
    cases hHolds
  · intro hStart
    rw [hStarting] at hStart
    cases hStart
  · intro id hId
    rw [hFlips] at hId
    cases hId
  · rintro - semaphore id rfl
    cases hLock

variable {id call : ℕ} {task : JobTask} {request : CancelCall}

theorem flipHead (h : Consistent state) {ids : List ℕ} {drain : DrainPhase}
    (hFlips : state.drain.flips = id :: ids) (hRest : drain.flips = ids)
    (hStarting : drain.starting = true → state.drain.starting = true)
    (hLock : drain.holdsLock = false) :
    Consistent { state with
      table := state.table.update id (RenderJob.flipIf .encoding)
      drain := drain } := by
  have hFree : ∀ other ∈ id :: ids, state.tasks.get? other = none := by
    rw [← hFlips]
    exact h.flips
  have hUpdated : Consistent
      { state with table := state.table.update id (RenderJob.flipIf .encoding) } := by
    refine h.updateFree (hFree id List.mem_cons_self) ?_
    intro _ semaphore hClaimed
    rw [hClaimed] at hFlips
    cases hFlips
  refine hUpdated.moveDrain ?_ (fun _ hCall => hCall) hStarting ?_ ?_
  · intro hHolds
    rw [hLock] at hHolds
    cases hHolds
  · intro other hOther
    rw [hRest] at hOther
    exact hFree other (List.mem_cons_of_mem _ hOther)
  · rintro - semaphore other rfl
    cases hLock

theorem drainThread (h : Consistent state) (hStep : state.drainThread = some after) :
    Consistent after := by
  unfold QueueState.drainThread at hStep
  split at hStep
  next hDrain =>
    cases hStep
    refine h.moveDrain nofun (fun _ hCall => hCall) ?_ ?_ nofun
    · rw [hDrain]
      exact id
    · intro id _
      exact h.starting (by rw [hDrain]; rfl) id
  next id ids hDrain =>
    cases hStep
    exact h.flipHead (by rw [hDrain]; rfl) rfl (fun _ => by rw [hDrain]; rfl) rfl
  next hDrain =>
    cases hStep
    refine h.moveDrain ?_ (fun _ hCall => hCall) nofun nofun nofun
    intro _
    exact h.drainLock (by rw [hDrain]; rfl)
  next id ids hDrain =>
    cases hStep
    exact h.flipHead (by rw [hDrain]; rfl) rfl nofun rfl
  next semaphore hDrain =>
    have hLock := h.drainLock (by rw [hDrain]; rfl)
    rcases state.table.claimOldestPending_cases semaphore.family with
      hNothing | ⟨id, job, hClaim, hJob, hPending⟩
    · rw [hNothing] at hStep
      cases hStep
      exact h.moveDrain (fun _ => hLock) (fun _ hCall => hCall) nofun nofun nofun
    · rw [hClaim] at hStep
      cases hStep
      refine (h.claimRow hJob hPending).moveDrain (fun _ => hLock) (fun _ hCall => hCall)
        nofun nofun ?_
      rintro hRunning _ _ ⟨rfl, rfl⟩
      have hLe : id ≤ state.table.lastId := JobTable.le_of_job? hJob
      refine ⟨hLe, ?_, ?_⟩
      · cases hTask : state.tasks.get? id with
        | none => rfl
        | some task =>
          -- A task whose row is pending is one of a queue that stops.
          obtain ⟨-, hStopped⟩ := (h.rows id task job hTask hJob).pending hPending
          rw [show state.stopped = false from hRunning] at hStopped
          cases hStopped
      · intro changed hChanged
        rw [JobTable.job?_update, if_pos rfl, hJob] at hChanged
        cases hChanged
        rw [RenderJob.claim, if_pos hPending]
  next => cases hStep

theorem launch (h : Consistent state) {semaphore : Semaphore} (hRunning : state.stopped = false)
    (hDrain : state.drain = .claimed semaphore (some id)) :
    Consistent { state with
      lock := none
      tasks := state.tasks.set id ⟨semaphore, .created, false⟩
      drain := .launching semaphore } := by
  have hHolds : state.drain.holdsLock = true := by
    rw [hDrain]
    rfl
  obtain ⟨hLe, -, hEncoding⟩ := h.claimed hRunning semaphore id hDrain
  have hNoCall : ∀ {call request}, state.calls.get? call = some request →
      request.phase.holdsLock = true → False := by
    intro call request hCall hHolding
    have hLock := h.callLock call request hCall hHolding
    rw [h.drainLock hHolds] at hLock
    cases hLock
  refine ⟨nofun, ?_, h.cancelled, h.strays, ?_, nofun, nofun, ?_, ?_, nofun, ?_, ?_⟩
  · intro call request hCall hHolding
    exact (hNoCall hCall hHolding).elim
  · exact Dict.forall_set hLe h.known
  · intro other hMem
    have hNil := (h.strays hRunning).1
    rw [hNil] at hMem
    cases hMem
  · intro call request hCall hHolding
    exact (hNoCall hCall hHolding).elim
  · exact Dict.forall_set trivial h.proper
  · intro other found job hFound hJob
    rcases Dict.of_get?_set hFound with ⟨rfl, rfl⟩ | ⟨-, hOld⟩
    · have hStatus := hEncoding job hJob
      refine ⟨fun _ => hStatus, nofun, ?_⟩
      intro hPending
      rw [hStatus] at hPending
      cases hPending
    · exact h.rows other found job hOld hJob

theorem afterLaunch_plain (semaphore : Semaphore) :
    (QueueState.afterLaunch semaphore).holdsLock = false ∧
      (QueueState.afterLaunch semaphore).starting = false ∧
      (QueueState.afterLaunch semaphore).flips = [] := by
  cases semaphore with
  | render | exports => exact ⟨rfl, rfl, rfl⟩

theorem drainLoop (h : Consistent state) (hRunning : state.stopped = false)
    (hStep : state.drainLoop = some after) : Consistent after := by
  have hKeep : ∀ call, state.lock = some (.call call) → state.lock = some (.call call) :=
    fun _ hCall => hCall
  unfold QueueState.drainLoop at hStep
  split at hStep
  case h_1 | h_4 =>
    cases hStep
    exact h.leave rfl hKeep rfl rfl
  case h_2 | h_6 =>
    split at hStep
    next hLock =>
      cases hStep
      refine h.moveDrain (fun _ => rfl) ?_ nofun nofun nofun
      intro call hCall
      rw [hLock] at hCall
      cases hCall
    next => cases hStep
  next ids hDrain =>
    cases hStep
    refine h.moveDrain nofun (h.noCall (by rw [hDrain]; rfl)) nofun ?_ nofun
    intro id hId
    exact of_decide_eq_true (List.mem_filter.mp hId).2
  next semaphore hDrain =>
    split at hStep
    next =>
      cases hStep
      have hLeft : Consistent { state with drain := .slotTaken semaphore } :=
        h.leave rfl hKeep rfl rfl
      exact hLeft.frame _ _
    next =>
      cases hStep
      obtain ⟨hHolds, hStarting, hFlips⟩ := afterLaunch_plain semaphore
      exact h.leave hHolds hKeep hStarting hFlips
  next semaphore hDrain =>
    cases hStep
    obtain ⟨hHolds, hStarting, hFlips⟩ := afterLaunch_plain semaphore
    exact (h.leave hHolds (h.noCall (by rw [hDrain]; rfl)) hStarting hFlips).release semaphore
  next semaphore id hDrain =>
    cases hStep
    exact h.launch hRunning hDrain
  next => cases hStep

theorem drainError (h : Consistent state) (hStep : state.drainError = some after) :
    Consistent after := by
  obtain ⟨lock, free, hGives, rfl⟩ := drainError_cases hStep
  exact (h.leave rfl (h.keepsCalls hGives) rfl rfl).frame _ _

theorem drainUnwind (h : Consistent state) (hStopped : state.stopped = true)
    (hStep : state.drainUnwind = some after) : Consistent after := by
  obtain ⟨lock, free, strayFlips, strayClaim, hGives, hStrays, rfl⟩ := drainUnwind_cases hStep
  have hFree : ∀ id ∈ strayFlips, state.tasks.get? id = none := by
    rcases hStrays with rfl | rfl
    · exact h.strayFlips
    · exact h.flips
  exact ((h.setStrays hStopped hFree).leave rfl (h.keepsCalls hGives) rfl rfl).frame _ _

/-! ## The tasks -/

theorem handlerWrite_proper (state : QueueState) (id : ℕ) (withinGrace cancelled : Bool) :
    (TaskPhase.settling (state.handlerWrite id withinGrace) false cancelled).Proper
      state.stopped := by
  unfold QueueState.handlerWrite
  split
  · exact trivial
  · split
    next hStopped => exact ⟨rfl, hStopped⟩
    next => exact trivial

theorem not_requeued_of_inBody {stopped cancelled landed : Bool} {write : Write}
    (hProper : (TaskPhase.settled write true cancelled landed).Proper stopped) :
    (TaskPhase.settled write true cancelled landed).requeued = false := by
  cases write with
  | markInterrupted withinGrace => cases hProper.1
  | recordResult | markFailed | markCancelled => rfl

theorem reporting_handlerWrite {withinGrace : Bool} (hReporting : (TaskPhase.settling
      (state.handlerWrite id withinGrace) false false).reporting = true) :
    id ∉ state.userCancels := by
  intro hUser
  rw [QueueState.handlerWrite, if_pos hUser] at hReporting
  cases hReporting

theorem runTask_cases (h : Consistent state) {outcome : Outcome} {withinGrace : Bool}
    (hTask : state.tasks.get? id = some task)
    (hStep : state.runTask id task outcome withinGrace = some after) :
    (∃ phase, after = state.goOn id task phase ∧ phase ≠ .neverRan ∧
      Continues state.stopped task.phase phase
        (task.phase.failsAgain outcome (id ∈ state.userCancels) = true)) ∨
      ((state.stopped = false → task.phase.written = true) ∧ after = state.finish id task) := by
  have hProper := h.proper id task hTask
  unfold QueueState.runTask at hStep
  split at hStep
  next hPhase =>
    cases hStep
    rw [hPhase]
    exact Or.inl ⟨_, rfl, nofun, nofun, trivial, fun _ => rfl, nofun, nofun, nofun⟩
  -- The render or export is over, in one of three ways.
  next hPhase =>
    rw [hPhase]
    split at hStep
    case h_1 =>
      cases hStep
      exact Or.inl ⟨_, rfl, nofun, nofun, rfl, fun _ => rfl, nofun, nofun, nofun⟩
    case h_2 | h_3 =>
      cases hStep
      exact Or.inl ⟨_, rfl, nofun, nofun, trivial, fun _ => rfl, nofun, nofun,
        fun _ => Or.inr (Or.inl rfl)⟩
  next write inBody cancelled landed hPhase =>
    rw [hPhase] at hProper ⊢
    -- A terminal write is over: it is made again if it did not land, left to the handler if it
    -- raised, and otherwise the task goes on.
    split at hStep
    next hAgain =>
      obtain ⟨rfl, -⟩ := hAgain
      cases hStep
      refine Or.inl ⟨_, rfl, nofun, nofun, hProper, ?_, nofun, ?_, ?_⟩
      · simp [TaskPhase.unwritten]
      · cases write with
        | recordResult | markFailed | markCancelled | markInterrupted => nofun
      · intro hReporting
        exact Or.inl (by simpa [TaskPhase.reporting] using hReporting)
    next hLanded =>
      split at hStep
      next hHandler =>
        obtain ⟨rfl, rfl⟩ := hHandler
        cases hStep
        refine Or.inl ⟨_, rfl, nofun, nofun, handlerWrite_proper state id withinGrace false, nofun,
          nofun, ?_, ?_⟩
        · intro hRequeued
          rw [not_requeued_of_inBody hProper] at hRequeued
          cases hRequeued
        · intro hReporting
          right
          cases landed with
          | false => exact Or.inl rfl
          | true => exact Or.inr (by simp [TaskPhase.failsAgain, reporting_handlerWrite hReporting])
      next =>
        have hWritten : state.stopped = false → landed = true := by
          intro hRunning
          by_contra hNot
          exact hLanded ⟨Bool.eq_false_iff.mpr hNot, hRunning⟩
        split at hStep
        next hGoesOn =>
          obtain ⟨-, rfl, -⟩ := hGoesOn
          cases hStep
          refine Or.inl ⟨_, rfl, nofun, nofun, trivial, nofun, fun hRunning _ => hWritten hRunning,
            ?_, nofun⟩
          intro hRequeued
          rw [not_requeued_of_inBody hProper] at hRequeued
          cases hRequeued
        next =>
          cases hStep
          exact Or.inr ⟨hWritten, rfl⟩
  next hPhase =>
    cases hStep
    rw [hPhase] at hProper ⊢
    exact Or.inl ⟨_, rfl, nofun, nofun, hProper, fun h => h, nofun, nofun, Or.inl⟩
  next hPhase =>
    rw [hPhase]
    split at hStep
    next =>
      cases hStep
      exact Or.inl ⟨_, rfl, nofun, nofun, trivial, nofun, nofun, nofun,
        fun _ => Or.inr (Or.inr rfl)⟩
    next =>
      cases hStep
      exact Or.inr ⟨fun _ => rfl, rfl⟩
  next => cases hStep
  next => cases hStep

theorem deliver_cases (h : Consistent state) {withinGrace : Bool}
    (hTask : state.tasks.get? id = some task)
    (hStep : state.deliver id task withinGrace = some after) :
    ∃ phase, after = state.goOn id { task with cancelRequested := false } phase ∧
      (phase = .neverRan → task.phase = .created) ∧
      Continues state.stopped task.phase phase
        (task.phase = .afterResult ∧ id ∉ state.userCancels) := by
  have hProper := h.proper id task hTask
  have hHandler := handlerWrite_proper state id withinGrace false
  unfold QueueState.deliver at hStep
  split at hStep
  next hPhase =>
    cases hStep
    rw [hPhase]
    exact ⟨_, rfl, fun _ => rfl, nofun, trivial, fun _ => rfl, nofun, nofun, nofun⟩
  case h_2 hPhase =>
    cases hStep
    rw [hPhase]
    exact ⟨_, rfl, nofun, nofun, hHandler, nofun, nofun, nofun, fun _ => Or.inr (Or.inl rfl)⟩
  case h_3 hPhase | h_5 hPhase =>
    cases hStep
    rw [hPhase] at hProper ⊢
    exact ⟨_, rfl, nofun, nofun, hProper, fun h => h, nofun, nofun, Or.inl⟩
  next write _ _ _ hPhase =>
    cases hStep
    rw [hPhase] at hProper ⊢
    refine ⟨_, rfl, nofun, nofun, hProper, fun h => h, fun _ h => h, ?_, Or.inl⟩
    cases write with
    | recordResult | markFailed | markCancelled | markInterrupted => exact fun h => h
  next hPhase =>
    cases hStep
    rw [hPhase]
    exact ⟨_, rfl, nofun, nofun, hHandler, nofun, nofun, nofun,
      fun hReporting => Or.inr (Or.inr ⟨rfl, reporting_handlerWrite hReporting⟩)⟩
  next => cases hStep

theorem write (h : Consistent state) {write : Write} {inBody cancelled : Bool} (landed : Bool)
    (hTask : state.tasks.get? id = some task)
    (hPhase : task.phase = .settling write inBody cancelled) :
    Consistent { state with
      table := if landed then state.table.update id write.apply else state.table
      tasks := state.tasks.set id { task with phase := .settled write inBody cancelled landed } } := by
  have hProper := h.proper id task hTask
  rw [hPhase] at hProper
  cases landed with
  | false =>
    have hContinues : Continues state.stopped task.phase
        (.settled write inBody cancelled false) False := by
      rw [hPhase]
      exact ⟨nofun, hProper, by simp [TaskPhase.unwritten], nofun, nofun,
        fun hReporting => Or.inl (by simpa [TaskPhase.reporting] using hReporting)⟩
    exact h.goOn hTask hContinues
  | true =>
    refine h.setTask hTask rfl (fun _ hNe => JobTable.job?_update_of_ne hNe) hProper ?_
    intro changed hChanged
    rw [if_pos rfl, JobTable.job?_update, if_pos rfl, Option.map_eq_some_iff] at hChanged
    obtain ⟨job, -, rfl⟩ := hChanged
    refine ⟨by simp [TaskPhase.unwritten], fun _ _ => Write.apply_ne_encoding write job, ?_⟩
    intro hPending
    obtain ⟨withinGrace, rfl⟩ := Write.apply_pending hPending
    exact ⟨rfl, hProper.2⟩

/-! ## `cancel_job` and `stop` -/

section

variable (h : Consistent state)
include h

theorem cancelTask (call : ℕ) (request : CancelCall) :
    Consistent (state.cancelTask call request) := by
  have hTasks : Consistent
      { state with tasks := state.tasks.modify request.job JobTask.cancel } :=
    h.moveTasks fun _ _ hTask => phase_of_cancelTask hTask
  have hCall : Consistent
      { state with
        tasks := state.tasks.modify request.job JobTask.cancel
        calls := state.calls.set call { request with phase := .awaiting } } :=
    hTasks.setCall nofun h.drainLock (fun _ _ hOther => hOther)
  exact hCall.frame _ _

theorem cancelJob (call : ℕ) (request : CancelCall) :
    Consistent (state.cancelJob call request) := by
  unfold QueueState.cancelJob
  split
  · exact h.cancelTask call request
  · exact h.setCall nofun h.drainLock (fun _ _ hOther => hOther)

theorem callLocked (hStep : state.callLocked call request = some after) : Consistent after := by
  rcases callLocked_cases hStep with rfl | ⟨hUnlocked, hFree, rfl⟩
  · exact h.cancelTask call request
  · refine h.setCall (fun _ => ⟨rfl, hFree⟩) ?_ ?_
    · intro hHolds
      have hLock := h.drainLock hHolds
      rw [hUnlocked] at hLock
      cases hLock
    · intro other _ hLock
      rw [hUnlocked] at hLock
      cases hLock

theorem callOn {phase : CallPhase}
    (hCall : state.calls.get? call = some request) (hHolds : request.phase.holdsLock = true) :
    Consistent (state.callOn call request phase) :=
  h.setCall (fun _ => ⟨h.callLock call request hCall hHolds, h.untracked call request hCall hHolds⟩)
    h.drainLock (fun _ _ hOther => hOther)

theorem callThread (hCall : state.calls.get? call = some request)
    (hStep : state.callThread call request = some after) : Consistent after := by
  obtain ⟨hHolds, ⟨phase, rfl⟩ | ⟨status, -, rfl⟩⟩ := callThread_cases hStep
  · exact h.callOn hCall hHolds
  · refine (h.callOn hCall hHolds).updateFree (h.untracked call request hCall hHolds) ?_
    intro _ semaphore hDrain
    -- A claimed job is launched under the lock, which the call has.
    have hLock := h.drainLock (by rw [show state.drain = _ from hDrain]; rfl)
    rw [h.callLock call request hCall hHolds] at hLock
    cases hLock

theorem returnLock (hCall : state.calls.get? call = some request)
    (hHolds : request.phase.holdsLock = true) :
    Consistent { state with calls := state.calls.erase call, lock := none } := by
  have hLock := h.callLock call request hCall hHolds
  refine h.eraseCall ?_ ?_
  · intro hDrain
    rw [h.drainLock hDrain] at hLock
    cases hLock
  · intro other hNe hOther
    rw [hLock] at hOther
    cases hOther
    exact absurd rfl hNe

theorem callReturns (hCall : state.calls.get? call = some request)
    (hStep : state.callReturns call request = some after) : Consistent after := by
  rcases callReturns_cases hStep with ⟨hHolds, rfl⟩ | rfl
  · exact h.returnLock hCall hHolds
  · have hErased : Consistent { state with calls := state.calls.erase call } :=
      h.eraseCall h.drainLock (fun _ _ hOther => hOther)
    exact hErased.frame _ _

theorem strayFlip {ids : List ℕ} (hStrays : state.strayFlips = id :: ids) :
    Consistent { state with
      table := state.table.update id (RenderJob.flipIf .encoding)
      strayFlips := ids } := by
  have hStopped : state.stopped = true := by
    by_contra hRunning
    have hNil := (h.strays (Bool.eq_false_iff.mpr hRunning)).1
    rw [hStrays] at hNil
    cases hNil
  have hFree : ∀ other ∈ id :: ids, state.tasks.get? other = none := by
    intro other hOther
    exact h.strayFlips other (by rw [hStrays]; exact hOther)
  have hUpdated : Consistent
      { state with table := state.table.update id (RenderJob.flipIf .encoding) } := by
    refine h.updateFree (hFree id List.mem_cons_self) ?_
    intro hRunning
    rw [hStopped] at hRunning
    cases hRunning
  exact hUpdated.setStrays hStopped (List.forall_mem_cons.mp hFree).2

theorem strayClaim {semaphore : Semaphore} (hStray : state.strayClaim = some semaphore) :
    Consistent { state with
      table := (state.table.claimOldestPending semaphore.family).1
      strayClaim := none } := by
  have hStopped : state.stopped = true := by
    by_contra hRunning
    have hNone := (h.strays (Bool.eq_false_iff.mpr hRunning)).2
    rw [hStray] at hNone
    cases hNone
  rcases state.table.claimOldestPending_cases semaphore.family with
    hNothing | ⟨id, job, hClaim, hJob, hPending⟩
  · rw [hNothing]
    exact h.setStrays hStopped h.strayFlips
  · rw [hClaim]
    exact (h.claimRow hJob hPending).setStrays hStopped h.strayFlips

end

end Consistent

/-! ## Every step and every run -/

theorem consistent_of_step {capacity : Semaphore → ℕ} {state after : QueueState} {label : Label}
    (h : Consistent state) (hStep : step capacity state label = some after) : Consistent after := by
  cases moves_of_step hStep with
  | enqueue isExport => exact h.enqueue isExport
  | remove id => exact h.remove id
  | drainThread hThread => exact h.drainThread hThread
  | drainLoop hCancelled hLoop =>
    -- The drain task is cancelled by a stop only.
    rw [h.cancelled] at hCancelled
    exact h.drainLoop hCancelled hLoop
  | drainError _ hError => exact h.drainError hError
  | drainUnwind hCancelled hUnwind =>
    rw [h.cancelled] at hCancelled
    exact h.drainUnwind hCancelled hUnwind
  | strayFlip hStrays => exact h.strayFlip hStrays
  | strayClaim hStray => exact h.strayClaim hStray
  | run hTask _ hRun =>
    rcases h.runTask_cases hTask hRun with ⟨phase, rfl, -, hContinues⟩ | ⟨-, rfl⟩
    · exact h.goOn hTask hContinues
    · exact h.finish _ _
  | deliver hTask _ hDeliver =>
    obtain ⟨phase, rfl, -, hContinues⟩ := h.deliver_cases hTask hDeliver
    exact h.goOn hTask hContinues
  | write hTask hPhase => exact h.write _ hTask hPhase
  | cancelJob => exact h.cancelJob _ _
  | callLocked _ hLocked => exact h.callLocked hLocked
  | callThread hCall hThread => exact h.callThread hCall hThread
  | callError hCall hError =>
    obtain ⟨hHolds, rfl⟩ := callError_cases hError
    exact h.returnLock hCall hHolds
  | callReturns hCall hReturns => exact h.callReturns hCall hReturns
  | stop => exact h.cancelTasks.beginStop
  | restart => exact Consistent.boot capacity state.table

theorem consistent_of_run {capacity : Semaphore → ℕ} {table : JobTable} {labels : List Label}
    {state : QueueState}
    (hRun : Run (QueueStep capacity) (QueueState.boot capacity table) labels state) :
    Consistent state :=
  hRun.invariant Consistent (fun _ _ _ hInv hStep => consistent_of_step hInv hStep)
    (Consistent.boot capacity table)

end TimelapseManager.Render
