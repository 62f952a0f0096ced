import TimelapseManager.Render.QueueStatus

/-!
# A sweep settles stranded rows

A row that is `encoding` without a task, and not about to get one, is an orphan.  It stays
without a task until it is failed (`stranded_of_run`), and a sweep that begins while it is one
and comes to its end fails it (`swept_of_run`).
-/

namespace TimelapseManager.Render

open KeyedRows Runs

/-- The job is failed or deleted, or it is an orphan and the drain loop is in a phase of a
kind. -/
structure Stranded (kind : DrainPhase → Prop) (id : ℕ) (state : QueueState) : Prop where
  known : id ≤ state.table.lastId
  row : ∀ job, state.table.job? id = some job → job.status = .failed ∨
    (job.status = .encoding ∧ state.tasks.get? id = none ∧ kind state.drain)

/-- The drain loop is not between the claim of the job and its launch. -/
def DrainPhase.Spares (id : ℕ) (drain : DrainPhase) : Prop :=
  ∀ semaphore, drain ≠ .claimed semaphore (some id)

/-- The drain loop is in a sweep that will fail the job. -/
def DrainPhase.Sweeps (id : ℕ) : DrainPhase → Prop
  | .sweepReading => True
  | .sweepRead ids => id ∈ ids
  | .sweepFailing ids => id ∈ ids
  | _ => False

section Steps

variable {capacity : Semaphore → ℕ} {state after : QueueState} {label : Label} {id : ℕ}
  {table : JobTable} {job moved : RenderJob} {kind : DrainPhase → Prop}

theorem orphan_move (hWrites : Writes state label table) (hFree : state.tasks.get? id = none)
    (hJob : state.table.job? id = some job) (hEncoding : job.status = .encoding)
    (hMoved : table.job? id = some moved) : moved = job ∨ moved.status = .failed := by
  cases hWrites.row_of_some hJob hMoved with
  | kept => exact Or.inl rfl
  | orphan =>
    rw [RenderJob.flipIf, if_pos hEncoding]
    exact Or.inr rfl
  | cancel =>
    rw [RenderJob.flipIf, if_neg (by rw [hEncoding]; nofun)]
    exact Or.inl rfl
  | claim =>
    rw [RenderJob.claim, if_neg (by rw [hEncoding]; nofun)]
    exact Or.inl rfl
  | settle _ hTask =>
    rw [hFree] at hTask
    cases hTask

theorem stranded_of_step (h : Consistent state) (hStranded : Stranded kind id state)
    (hStep : step capacity state label = some after)
    (hSpares : kind state.drain → state.drain.Spares id)
    (hKind : ∀ job, kind state.drain → state.tasks.get? id = none →
      state.table.job? id = some job → after.table.job? id = some job → job.status = .encoding →
      kind after.drain) : Stranded kind id after := by
  have hWrites := (effects_of_step h hStep).writes
  refine ⟨Nat.le_trans hStranded.known (lastId_le_of_writes hWrites), ?_⟩
  intro moved hMoved
  obtain ⟨job, hJob, hMove⟩ := move_of_writes h hWrites hStranded.known hMoved
  rcases hStranded.row job hJob with hFailed | ⟨hEncoding, hFree, hPhase⟩
  · left
    rw [hMove.eq_of_settled (Or.inr hFailed)]
    exact hFailed
  · rcases orphan_move hWrites hFree hJob hEncoding hMoved with rfl | hFailed
    · exact Or.inr ⟨hEncoding, (effects_of_step h hStep).acts.untracked hFree (hSpares hPhase),
        hKind moved hPhase hFree hJob hMoved hEncoding⟩
    · exact Or.inl hFailed

theorem stranded_of_run {labels : List Label} (h : Consistent state)
    (hStranded : Stranded (DrainPhase.Spares id) id state)
    (hRun : Run (QueueStep capacity) state labels after) :
    Stranded (DrainPhase.Spares id) id after := by
  have hBoth := hRun.invariant
    (fun reached => Consistent reached ∧ Stranded (DrainPhase.Spares id) id reached) (by
      rintro start label stop ⟨hStart, hBefore⟩ hStep
      refine ⟨consistent_of_step hStart hStep,
        stranded_of_step hStart hBefore hStep (fun hSpares => hSpares) ?_⟩
      intro job hSpares _ hJob _ hEncoding semaphore hClaimed
      rcases (effects_of_step hStart hStep).claims hClaimed with hWas | ⟨found, hFound, hPending⟩
      · exact hSpares semaphore hWas
      · rw [hJob] at hFound
        cases hFound
        rw [hEncoding] at hPending
        cases hPending) ⟨h, hStranded⟩
  exact hBoth.2

/-! ## The sweep -/

theorem sweeps_of_drainThread (hSweeps : state.drain.Sweeps id)
    (hStep : state.drainThread = some after) (hJob : state.table.job? id = some job)
    (hStays : after.table.job? id = some job) (hEncoding : job.status = .encoding) :
    after.drain.Sweeps id := by
  unfold QueueState.drainThread at hStep
  split at hStep
  case h_1 hDrain | h_2 hDrain | h_5 hDrain =>
    rw [hDrain] at hSweeps
    exact hSweeps.elim
  next hDrain =>
    cases hStep
    refine List.mem_map.mpr ⟨(id, job), List.mem_filter.mpr ⟨?_, ?_⟩, rfl⟩
    · exact Dict.get?_eq_some_iff.mp hJob
    · exact decide_eq_true hEncoding
  next other ids hDrain =>
    cases hStep
    rw [hDrain] at hSweeps
    rcases List.mem_cons.mp hSweeps with rfl | hRest
    · -- The row of the job was the one that was just failed.
      rw [JobTable.job?_update, if_pos rfl, hJob, Option.map_some, RenderJob.flipIf,
        if_pos hEncoding] at hStays
      have hStatus := congrArg RenderJob.status (Option.some.inj hStays)
      rw [hEncoding] at hStatus
      cases hStatus
    · exact hRest
  next => cases hStep

theorem sweeps_of_drainLoop (hSweeps : state.drain.Sweeps id) (hFree : state.tasks.get? id = none)
    (hStep : state.drainLoop = some after) : after.drain.Sweeps id := by
  unfold QueueState.drainLoop at hStep
  split at hStep
  case h_1 hDrain | h_2 hDrain | h_5 hDrain | h_6 hDrain | h_7 hDrain | h_8 hDrain =>
    rw [hDrain] at hSweeps
    exact hSweeps.elim
  next ids hDrain =>
    cases hStep
    rw [hDrain] at hSweeps
    exact List.mem_filter.mpr ⟨hSweeps, decide_eq_true hFree⟩
  next hDrain =>
    rw [hDrain] at hSweeps
    cases hSweeps
  next => cases hStep

/-- What keeps a sweep from its end: an error, the cancellation of the drain loop, a restart. -/
def Label.interrupts : Label → Bool
  | .drainError => true
  | .drainUnwind => true
  | .restart => true
  | _ => false

theorem swept_of_step (h : Consistent state) (hStranded : Stranded (DrainPhase.Sweeps id) id state)
    (hStep : step capacity state label = some after) (hLabel : label.interrupts = false) :
    Stranded (DrainPhase.Sweeps id) id after := by
  refine stranded_of_step h hStranded hStep ?_ ?_
  · rintro hSweeps semaphore hDrain
    rw [hDrain] at hSweeps
    exact hSweeps
  · intro job hSweeps hFree hJob hStays hEncoding
    have hOther : label.drains = false → label ≠ .restart → after.drain.Sweeps id := by
      intro hDrains hRestart
      rw [(effects_of_step h hStep).acts.drain_eq hDrains hRestart]
      exact hSweeps
    cases moves_of_step hStep with cases hLabel
    | drainThread hThread => exact sweeps_of_drainThread hSweeps hThread hJob hStays hEncoding
    | drainLoop _ hLoop => exact sweeps_of_drainLoop hSweeps hFree hLoop
    | _ => exact hOther rfl nofun

theorem swept_of_run {labels : List Label} (h : Consistent state)
    (hStranded : Stranded (DrainPhase.Spares id) id state) (hBegins : state.drain = .sweepReading)
    (hRun : Run (Guarded (QueueStep capacity) fun _ label => label.interrupts = false)
      state labels after) (hEnds : after.drain = .launching .render)
    (hJob : after.table.job? id = some job) : job.status = .failed := by
  have hSweeping : Stranded (DrainPhase.Sweeps id) id state := by
    refine ⟨hStranded.known, ?_⟩
    intro found hFound
    refine (hStranded.row found hFound).imp_right ?_
    rintro ⟨hEncoding, hFree, -⟩
    rw [hBegins]
    exact ⟨hEncoding, hFree, trivial⟩
  have hBoth := hRun.invariant
    (fun reached => Consistent reached ∧ Stranded (DrainPhase.Sweeps id) id reached)
    (fun _ _ _ hInv hStep => ⟨consistent_of_step hInv.1 hStep.1,
      swept_of_step hInv.1 hInv.2 hStep.1 hStep.2⟩)
    ⟨h, hSweeping⟩
  rcases hBoth.2.row job hJob with hFailed | ⟨-, -, hSweeps⟩
  · exact hFailed
  · rw [hEnds] at hSweeps
    exact hSweeps.elim

end Steps

end TimelapseManager.Render
