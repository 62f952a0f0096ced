import TimelapseManager.Render.QueueSweep

/-!
# Slots, live tasks and stranded rows

Every slot is free, with the drain loop or with a task of the map, in every state
(`slots_of_acts`).  What the source adds, that a task which is over is not in the map, needs a
condition: asyncio never runs the body of a task that is cancelled before its first step, so
its `finally` does not run either.  `SparesUnstarted` asks that no such task is cancelled.
-/

namespace TimelapseManager.Render

open KeyedRows Runs

/-! ## Slots -/

/-- The tasks that hold a slot of a semaphore. -/
def QueueState.holders (state : QueueState) (semaphore : Semaphore) : ℕ :=
  state.tasks.count fun task => task.semaphore = semaphore

/-- The slots the drain loop has in its hands. -/
def QueueState.inHand (state : QueueState) (semaphore : Semaphore) : ℕ :=
  if state.drain.slot? = some semaphore then 1 else 0

/-- Every slot is somewhere, and in one place only. -/
def SlotsKept (capacity : Semaphore → ℕ) (state : QueueState) : Prop :=
  ∀ semaphore,
    state.free semaphore + state.inHand semaphore + state.holders semaphore = capacity semaphore

theorem slotsKept_boot (capacity : Semaphore → ℕ) (table : JobTable) :
    SlotsKept capacity (QueueState.boot capacity table) :=
  fun _ => rfl

section Steps

variable {capacity : Semaphore → ℕ} {state after : QueueState} {label : Label} {id : ℕ}
  {semaphore taken : Semaphore}

theorem inHand_of_none (hNone : state.drain.slot? = none) : state.inHand semaphore = 0 := by
  rw [QueueState.inHand, hNone, if_neg nofun]

theorem inHand_of_some (hSome : state.drain.slot? = some taken) :
    state.inHand semaphore = if semaphore = taken then 1 else 0 := by
  rw [QueueState.inHand, hSome]
  simp only [Option.some.injEq, eq_comm]

theorem slots_of_acts (hSlots : SlotsKept capacity state) (hActs : Acts state label after)
    (hRestart : label ≠ .restart) : SlotsKept capacity after := by
  intro semaphore
  have hBefore := hSlots semaphore
  have hHolders : after.tasks = state.tasks →
      after.holders semaphore = state.holders semaphore := by
    intro hTasks
    rw [QueueState.holders, hTasks, QueueState.holders]
  cases hActs with
  | quiet hFree hTasks hSlot =>
    unfold QueueState.inHand QueueState.holders at hBefore ⊢
    rw [hFree, hTasks, hSlot]
    exact hBefore
  -- A slot goes from the semaphore to the hand of the drain loop, from there to a task or back, and
  -- from a task that ends back to the semaphore.
  | acquire taken hPositive hFree hTasks hNone hSlot hLabel =>
    rw [inHand_of_none hNone] at hBefore
    rw [hFree, hHolders hTasks, inHand_of_some hSlot, Function.update_apply]
    split
    next hSame =>
      subst hSame
      omega
    next => exact hBefore
  | giveBack taken hFree hTasks hSome hSlot hLabel =>
    rw [inHand_of_some hSome] at hBefore
    rw [hFree, hHolders hTasks, inHand_of_none hSlot, Function.update_apply]
    split_ifs at hBefore ⊢ with hSame
    · subst hSame
      omega
    · exact hBefore
  | launch taken launched hDrain hUntracked hFree hTasks hSlot hLabel =>
    have hHand : state.inHand semaphore = if semaphore = taken then 1 else 0 :=
      inHand_of_some (by rw [hDrain]; rfl)
    unfold QueueState.holders at hBefore ⊢
    rw [hFree, inHand_of_none hSlot, hTasks, Dict.count_set hUntracked]
    simp only [eq_comm (a := taken), decide_eq_true_eq]
    omega
  | progress moved task next hTask hSemaphore hStarted hNever hFree hTasks hDrain =>
    unfold QueueState.inHand QueueState.holders at hBefore ⊢
    rw [hFree, hTasks, hDrain, Dict.count_replace hTask (by rw [hSemaphore])]
    exact hBefore
  | finish finished task hTask hWritten hFree hTasks hDrain hTable =>
    have hHolders : after.holders semaphore + (if semaphore = task.semaphore then 1 else 0) =
        state.holders semaphore := by
      unfold QueueState.holders
      rw [hTasks, ← Dict.count_erase hTask]
      congr 1
      simp [eq_comm]
    have hHand : after.inHand semaphore = state.inHand semaphore := by
      rw [QueueState.inHand, hDrain, QueueState.inHand]
    rw [hFree, hHand, Function.update_apply]
    split_ifs at hHolders ⊢ with hSame
    · subst hSame
      omega
    · omega
  | cancel hFree hCount hTasks hDrain =>
    unfold QueueState.inHand QueueState.holders at hBefore ⊢
    rw [hFree, hDrain, hCount fun other => other = semaphore]
    exact hBefore
  | restart fresh hAfter hLabel => exact absurd hLabel hRestart

/-! ## Tasks -/

/-- No task is cancelled before its first step. -/
def SparesUnstarted (state : QueueState) (label : Label) : Prop :=
  ∀ id task, Cancels state label id → state.tasks.get? id = some task → task.phase ≠ .created

/-- The tasks of the map are alive, and those that wait for their first step will take it. -/
structure TasksAlive (state : QueueState) : Prop where
  alive : ∀ id task, state.tasks.get? id = some task → task.phase ≠ .neverRan
  starts : ∀ id task, state.tasks.get? id = some task → task.phase = .created →
    task.cancelRequested = false

theorem tasksAlive_boot (capacity : Semaphore → ℕ) (table : JobTable) :
    TasksAlive (QueueState.boot capacity table) :=
  ⟨nofun, nofun⟩

theorem tasksAlive_of_acts (hAlive : TasksAlive state) (hActs : Acts state label after)
    (hSpares : SparesUnstarted state label) : TasksAlive after := by
  suffices hBoth : ∀ id task, after.tasks.get? id = some task → task.phase ≠ .neverRan ∧
      (task.phase = .created → task.cancelRequested = false) by
    exact ⟨fun id task hTask => (hBoth id task hTask).1,
      fun id task hTask => (hBoth id task hTask).2⟩
  intro id task hTask
  have hOld : state.tasks.get? id = some task → task.phase ≠ .neverRan ∧
      (task.phase = .created → task.cancelRequested = false) :=
    fun hGet => ⟨hAlive.alive id task hGet, hAlive.starts id task hGet⟩
  cases hActs with
  | quiet hFree hTasks | acquire taken hPositive hFree hTasks | giveBack taken hFree hTasks =>
    exact hOld (hTasks ▸ hTask)
  | launch taken launched _ _ _ hTasks =>
    rw [hTasks] at hTask
    rcases Dict.of_get?_set hTask with ⟨-, rfl⟩ | ⟨-, hGet⟩
    · exact ⟨nofun, fun _ => rfl⟩
    · exact hOld hGet
  | progress moved before next hBefore _ hStarted hNever _ hTasks =>
    rw [hTasks] at hTask
    rcases Dict.of_get?_set hTask with ⟨-, rfl⟩ | ⟨-, hGet⟩
    · refine ⟨?_, fun hCreated => absurd hCreated hStarted⟩
      intro hOver
      -- A task ends without running only if it is cancelled before its first step.
      obtain ⟨hCreated, hRequested⟩ := hNever hOver
      rw [hAlive.starts moved before hBefore hCreated] at hRequested
      cases hRequested
    · exact hOld hGet
  | finish finished before _ _ _ hTasks =>
    rw [hTasks] at hTask
    exact hOld (Dict.of_get?_erase hTask).2
  | cancel _ _ hTasks =>
    rcases hTasks id with hKept | ⟨hCancels, hCancelled⟩
    · exact hOld (hKept ▸ hTask)
    · rw [hCancelled] at hTask
      obtain ⟨before, hBefore, rfl⟩ := Option.map_eq_some_iff.mp hTask
      rw [Consistent.cancel_phase]
      exact ⟨hAlive.alive id before hBefore,
        fun hCreated => absurd hCreated (hSpares id before hCancels hBefore)⟩
  | restart fresh hAfter =>
    rw [hAfter] at hTask
    cases hTask

theorem settled_of_leaving (h : Consistent state) (hActs : Acts state label after) {task : JobTask}
    {job : RenderJob} (hTask : state.tasks.get? id = some task) (hGone : after.tasks.get? id = none)
    (hRestart : label ≠ .restart) (hRunning : state.stopped = false)
    (hJob : after.table.job? id = some job) : job.status ≠ .encoding := by
  have hStays : after.tasks.get? id ≠ state.tasks.get? id := by
    intro hSame
    rw [hGone, hTask] at hSame
    cases hSame
  cases hActs with
  | quiet _ hTasks | acquire _ _ _ hTasks | giveBack _ _ hTasks =>
    exact absurd (by rw [hTasks]) hStays
  | launch taken launched hDrain hUntracked hFree hTasks
  | progress moved before next _ _ _ _ _ hTasks =>
    rw [hTasks, Dict.get?_set] at hGone hStays
    split at hGone
    next => cases hGone
    next hNe => exact absurd (if_neg hNe) hStays
  | finish finished before hBefore hWritten _ hTasks _ hTable =>
    rw [hTasks, Dict.get?_erase] at hStays
    by_cases hId : id = finished
    · subst hId
      rw [hTable] at hJob
      exact (h.rows id before job hBefore hJob).written hRunning (hWritten hRunning)
    · exact absurd (if_neg hId) hStays
  | cancel _ _ hTasks =>
    rcases hTasks id with hKept | ⟨-, hCancelled⟩
    · exact absurd hKept hStays
    · rw [hGone, hTask] at hCancelled
      cases hCancelled
  | restart fresh _ hLabel => exact absurd hLabel hRestart

end Steps

/-! ## Runs -/

/-- Over every interleaving in which no task is cancelled before its first step: every slot is
free, with the drain loop or with one task; every task of the map is alive; a task that leaves
it while the queue runs has settled its row; and an `encoding` row that has no task, and is
not being launched, is failed or gone after the next sweep. -/
theorem slots_and_rows_settled {capacity : Semaphore → ℕ} {table : JobTable}
    {labels : List Label} {state : QueueState}
    (hRun : Run (Guarded (QueueStep capacity) SparesUnstarted) (QueueState.boot capacity table)
      labels state) :
    SlotsKept capacity state ∧
    (∀ id task, state.tasks.get? id = some task → task.phase ≠ .neverRan) ∧
    (∀ label after id task job, QueueStep capacity state label after →
      state.tasks.get? id = some task → after.tasks.get? id = none → label ≠ .restart →
      state.stopped = false → after.table.job? id = some job → job.status ≠ .encoding) ∧
    ∀ id job, state.table.job? id = some job → job.status = .encoding →
      state.tasks.get? id = none → (∀ semaphore, state.drain ≠ .claimed semaphore (some id)) →
      ∀ before begun sweep ended, Run (QueueStep capacity) state before begun →
        begun.drain = .sweepReading →
        Run (Guarded (QueueStep capacity) fun _ label => label.interrupts = false)
          begun sweep ended →
        ended.drain = .launching .render →
        ∀ found, ended.table.job? id = some found → found.status = .failed := by
  have hInvariant := hRun.invariant
    (fun reached => Consistent reached ∧ SlotsKept capacity reached ∧ TasksAlive reached) (by
      rintro start label stop ⟨hStart, hSlots, hAlive⟩ ⟨hStep, hSpares⟩
      have hActs := (effects_of_step hStart hStep).acts
      refine ⟨consistent_of_step hStart hStep, ?_, tasksAlive_of_acts hAlive hActs hSpares⟩
      by_cases hRestart : label = .restart
      · subst hRestart
        cases hStep
        exact slotsKept_boot capacity start.table
      · exact slots_of_acts hSlots hActs hRestart)
    ⟨Consistent.boot capacity table, slotsKept_boot capacity table, tasksAlive_boot capacity table⟩
  obtain ⟨h, hSlots, hAlive⟩ := hInvariant
  refine ⟨hSlots, hAlive.alive, ?_, ?_⟩
  · intro label after id task job hStep hTask hGone hRestart hRunning hJob
    exact settled_of_leaving h (effects_of_step h hStep).acts hTask hGone hRestart hRunning hJob
  · intro id job hJob hEncoding hFree hSpares before begun sweep ended hBefore hBegins hSweep
      hEnds found hFound
    have hOrphan : Stranded (DrainPhase.Spares id) id state := by
      refine ⟨JobTable.le_of_job? hJob, ?_⟩
      intro other hOther
      rw [hJob] at hOther
      cases hOther
      exact Or.inr ⟨hEncoding, hFree, hSpares⟩
    have hBegun : Consistent begun := consistent_of_run (hRun.of_guarded.append hBefore)
    exact swept_of_run hBegun (stranded_of_run h hOrphan hBefore) hBegins hSweep hEnds hFound

/-- A job is launched. -/
def launchFirst : List Label :=
  [.enqueue false, .drainThread, .drainLoop, .drainLoop, .drainThread, .drainLoop, .drainLoop,
    .drainLoop, .drainLoop, .drainThread, .drainLoop]

/-- The slot of the launched job is with its task. -/
theorem slots_and_rows_settled_launched :
    ∃ state, Run (Guarded (QueueStep oneSlot) SparesUnstarted) (QueueState.boot oneSlot noJobs)
        launchFirst state ∧
      state.tasks.get? 1 = some ⟨.render, .created, false⟩ ∧ SlotsKept oneSlot state := by
  have hReached : ∃ state, exec (step oneSlot) (QueueState.boot oneSlot noJobs) launchFirst =
      some state ∧ state.tasks.get? 1 = some ⟨.render, .created, false⟩ := ⟨_, rfl, rfl⟩
  obtain ⟨state, hExec, hTask⟩ := hReached
  have hSpares : ∀ label ∈ launchFirst, ∀ state, SparesUnstarted state label := by
    intro label hLabel state id task hCancels
    simp only [launchFirst, List.mem_cons, List.not_mem_nil, or_false] at hLabel
    rcases hLabel with rfl | rfl | rfl | rfl | rfl | rfl | rfl | rfl | rfl | rfl | rfl
    all_goals exact hCancels.elim
  have hRun := Run.of_exec hSpares hExec
  exact ⟨state, hRun, hTask, (slots_and_rows_settled hRun).1⟩

/-- The job is cancelled right after its launch, and the drain loop goes on to its next sweep
and past it: the task is over and in the map, the slot is lost and the row `encoding`. -/
theorem cancelled_unstarted_leaks :
    ∃ state, Run (QueueStep oneSlot) (QueueState.boot oneSlot noJobs)
        (launchFirst ++ [.cancelJob 0 1 true, .deliver 1 false, .callReturns 0] ++
          [.drainLoop, .drainLoop, .drainLoop, .drainThread, .drainLoop, .drainLoop,
            .drainThread, .drainLoop, .drainLoop]) state ∧
      state.drain = .launching .render ∧ state.stopped = false ∧ state.calls.rows = [] ∧
      state.tasks.get? 1 = some ⟨.render, .neverRan, false⟩ ∧ state.free .render = 0 ∧
      state.table.job? 1 = some ⟨false, .encoding, 0⟩ :=
  Run.exists_of_exec (by decide +kernel)

end TimelapseManager.Render
