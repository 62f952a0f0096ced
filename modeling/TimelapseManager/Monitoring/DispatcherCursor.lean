import TimelapseManager.Monitoring.DispatcherAdvances

/-!
# At-least-once delivery across restarts

Over any number of starts, stops and crashes of the dispatcher the persisted cursor stays below
every pending event and never moves back, and an event that is not finished and not too old is
dispatched once the poll loop has launched enough batches.  Pending events are events above the
floor: `start_without_cursor_skips_events` shows what a start that has no cursor to resume from
does to the ones below.
-/

namespace TimelapseManager.Monitoring

open Runs

variable {catchupMaxAge : ℤ} {state next : DispatcherState} {step : DispatcherStep}

variable {dispatcher : Dispatcher} {event : Event} {mark : ℕ} {table : EventTable}

theorem launch_inv {batch : List PolledEvent} (hInv : DispatcherInv state)
    (hAt : state.phase = .running dispatcher (.polled batch)) :
    DispatcherInv (state.launch dispatcher batch) := by
  have hPhase := hInv.phase
  rw [hAt] at hPhase
  obtain ⟨hNonempty, hPrefix, -⟩ := hPhase
  have hLife : state.phase.life = some dispatcher := by rw [hAt]; rfl
  have hPending : ∀ id, (state.launch dispatcher batch).Pending id → state.Pending id :=
    fun _ hAfter => launch_pending hPrefix hLife hAfter
  constructor
  · intro row hRow
    exact (hInv.cursor row hRow).mono rfl hPending
  · intro marks hMem
    exact (hInv.lateWrites marks hMem).mono rfl hPending
  · intro launched hLaunched
    cases hLaunched
    exact launch_life hPrefix (hInv.life dispatcher hLife) hNonempty
  · exact trivial

theorem dispatcherInv_step (hInv : DispatcherInv state)
    (hStep : dispatcherStep catchupMaxAge state step = some next) : DispatcherInv next := by
  cases dispatcherStep_turns hInv hStep with
  | log event hNewer => exact log_inv hNewer hInv
  | launch dispatcher batch hAt => exact launch_inv hInv hAt
  | other step next _ _ hAdvances => exact hAdvances.inv

/-! ## The cursor never moves back -/

theorem cursor_step_le {row : CursorRow} (hInv : DispatcherInv state)
    (hStep : dispatcherStep catchupMaxAge state step = some next) (hRow : state.cursor = some row) :
    ∃ later, next.cursor = some later ∧ row.lastEventId ≤ later.lastEventId := by
  cases dispatcherStep_turns hInv hStep with
  | log | launch => exact ⟨row, hRow, le_refl _⟩
  | other step next _ _ hAdvances => exact hAdvances.cursor row hRow

theorem cursor_run_le {steps : List DispatcherStep} {last : DispatcherState}
    (hRun : Run (DispatcherRuns catchupMaxAge) state steps last) (hInv : DispatcherInv state)
    {row : CursorRow} (hRow : state.cursor = some row) :
    ∃ later, last.cursor = some later ∧ row.lastEventId ≤ later.lastEventId := by
  induction hRun generalizing row with
  | nil state => exact ⟨row, hRow, le_refl _⟩
  | cons hHead _ ih =>
    obtain ⟨middle, hMiddle, hLe⟩ := cursor_step_le hInv hHead hRow
    obtain ⟨later, hLater, hLe'⟩ := ih (dispatcherInv_step hInv hHead) hMiddle
    exact ⟨later, hLater, le_trans hLe hLe'⟩

/-! ## Every unfinished event is dispatched -/

/-- How many events the dispatcher has yet to read up to and including this one. -/
def waiting (table : EventTable) (mark : ℕ) (event : Event) : ℕ :=
  (table.rows.filter fun other => mark < other.id ∧ other.id ≤ event.id).length

theorem waiting_pos (hMem : event ∈ table.rows) (hUnread : mark < event.id) :
    0 < waiting table mark event :=
  List.length_pos_of_mem (List.mem_filter.mpr ⟨hMem, by simp [hUnread]⟩)

theorem waiting_lt {last : Event} (hMem : last ∈ table.rows) (hUnread : mark < last.id)
    (hBefore : last.id < event.id) : waiting table last.id event < waiting table mark event := by
  by_contra hNot
  have hSublist : List.Sublist
      (table.rows.filter fun other => last.id < other.id ∧ other.id ≤ event.id)
      (table.rows.filter fun other => mark < other.id ∧ other.id ≤ event.id) := by
    apply List.monotone_filter_right
    intro other hOther
    simp only [decide_eq_true_eq] at hOther ⊢
    omega
  have hSame := hSublist.eq_of_length_le (Nat.le_of_not_lt hNot)
  have hIn : last ∈ table.rows.filter fun other => mark < other.id ∧ other.id ≤ event.id :=
    List.mem_filter.mpr ⟨hMem, by simp; omega⟩
  rw [← hSame] at hIn
  have hOut := (List.mem_filter.mp hIn).2
  simp at hOut

/-- The event has been dispatched since the last start, or it is on the way: unread, not
too old, and reached after so many more batches. -/
def Awaited (state : DispatcherState) (event : Event) (batches : ℕ) : Prop :=
  event ∈ state.events.rows ∧ ∃ dispatcher, state.phase.life = some dispatcher ∧
    (event.id ∈ dispatcher.launched ∨
      (dispatcher.highWaterMark < event.id ∧ dispatcher.isStaleCatchup event = false ∧
        waiting state.events dispatcher.highWaterMark event ≤ batches))

theorem awaited_launch {batch : List PolledEvent} {batches : ℕ} (hInv : DispatcherInv state)
    (hAt : state.phase = .running dispatcher (.polled batch))
    (hAwaited : Awaited state event (batches + 1)) :
    Awaited (state.launch dispatcher batch) event batches := by
  obtain ⟨hMem, other, hLife, hAwaited⟩ := hAwaited
  have hPhase := hInv.phase
  rw [hAt] at hLife hPhase
  cases hLife
  obtain ⟨hNonempty, hPrefix, hDeliver⟩ := hPhase
  refine ⟨hMem, dispatcher.launch batch, rfl, ?_⟩
  rw [Dispatcher.launch_launched]
  rcases hAwaited with hLaunched | ⟨hUnread, hFresh, hWaiting⟩
  · exact Or.inl (List.mem_append_left _ hLaunched)
  obtain ⟨last, hMemLast, hLastRow, hLastUnread, -, hMark⟩ := exists_last hPrefix hNonempty
  by_cases hReached : event.id ≤ last.event.id
  · obtain ⟨polled, hPolled, rfl⟩ := exists_mem_batch hPrefix hMemLast hMem hUnread hReached
    refine Or.inl (List.mem_append_right _ (mem_deliverableIds.mpr ⟨polled, hPolled, ?_, rfl⟩))
    rw [hDeliver polled hPolled, hFresh]
    rfl
  · have hCloser := waiting_lt hLastRow hLastUnread (Nat.lt_of_not_le hReached)
    refine Or.inr ⟨?_, ?_, ?_⟩
    · omega
    · exact Dispatcher.endCatchupIfPassed_isStaleCatchup _ hFresh
    · rw [hMark]
      show waiting state.events last.event.id event ≤ batches
      omega

theorem awaited_step {batches : ℕ} (hInv : DispatcherInv state)
    (hStep : dispatcherStep catchupMaxAge state step = some next) (hNoCrash : step ≠ .crash)
    (hAwaited : Awaited state event (batches + if step = .launch then 1 else 0)) :
    Awaited next event batches := by
  cases dispatcherStep_turns hInv hStep with
  | launch dispatcher batch hAt => exact awaited_launch hInv hAt hAwaited
  | log new =>
    obtain ⟨hMem, dispatcher, hLife, hAwaited⟩ := hAwaited
    refine ⟨List.mem_append_left _ hMem, dispatcher, hLife, ?_⟩
    have hLe := EventTable.le_newest hMem
    have hAfter : ¬new.id ≤ event.id := by omega
    simpa [waiting, EventTable.append, hAfter] using hAwaited
  | other step next _ hNoLaunch hAdvances =>
    rw [if_neg hNoLaunch, Nat.add_zero] at hAwaited
    obtain ⟨hMem, dispatcher, hLife, hAwaited⟩ := hAwaited
    obtain ⟨after, hAfter, hSame⟩ := hAdvances.progress dispatcher hLife hNoCrash
    refine ⟨by rw [hAdvances.events]; exact hMem, after, hAfter, ?_⟩
    rw [hSame.launched, hSame.highWaterMark, hAdvances.events]
    rcases hAwaited with hLaunched | ⟨hUnread, hFresh, hWaiting⟩
    · exact Or.inl hLaunched
    · exact Or.inr ⟨hUnread, hSame.fresh event hFresh, hWaiting⟩

theorem awaited_run {steps : List DispatcherStep} {last : DispatcherState}
    (hRun : Run (DispatcherRuns catchupMaxAge) state steps last) (hInv : DispatcherInv state)
    (hNoCrash : DispatcherStep.crash ∉ steps)
    (hAwaited : Awaited state event (steps.count .launch)) :
    ∃ dispatcher, last.phase.life = some dispatcher ∧ event.id ∈ dispatcher.launched := by
  induction hRun with
  | nil state =>
    obtain ⟨hMem, dispatcher, hLife, hLaunched | ⟨hUnread, -, hWaiting⟩⟩ := hAwaited
    · exact ⟨dispatcher, hLife, hLaunched⟩
    · have hPos := waiting_pos hMem hUnread
      rw [List.count_nil] at hWaiting
      omega
  | cons hHead _ ih =>
    refine ih (dispatcherInv_step hInv hHead) (fun hMem => hNoCrash (by simp [hMem])) ?_
    refine awaited_step hInv hHead (fun hCrash => hNoCrash (by simp [hCrash])) ?_
    rw [List.count_cons] at hAwaited
    simpa using hAwaited

/-! ## The result -/

theorem beforeFirstStart_inv (events : EventTable) : DispatcherInv (.beforeFirstStart events) where
  cursor := by
    intro row hRow
    cases hRow
  lateWrites := by
    intro marks hMem
    cases hMem
  life := by
    intro dispatcher hLife
    cases hLife
  phase := rfl

/-- In every run from the first start on:

* the persisted cursor is below every event above the floor that is in flight, unread or
  unfinished;
* the cursor never moves back;
* an event above the floor that is unfinished and not too old for the catch-up is
  dispatched by the running dispatcher, at the latest when it has launched as many
  batches as there are unread events up to this one. -/
theorem delivery_at_least_once (catchupMaxAge : ℤ) (events : EventTable)
    {middle last : DispatcherState} {before after : List DispatcherStep}
    (hBefore : Run (DispatcherRuns catchupMaxAge) (.beforeFirstStart events) before middle)
    (hAfter : Run (DispatcherRuns catchupMaxAge) middle after last) :
    (∀ row, last.cursor = some row → ∀ id, last.Pending id → row.lastEventId < id) ∧
      (∀ row, middle.cursor = some row →
        ∃ later, last.cursor = some later ∧ row.lastEventId ≤ later.lastEventId) ∧
      ∀ dispatcher event, middle.phase = .running dispatcher .idle →
        event ∈ middle.events.rows → middle.floor < event.id → event.id ∉ middle.done →
        dispatcher.isStaleCatchup event = false → DispatcherStep.crash ∉ after →
        waiting middle.events dispatcher.highWaterMark event ≤ after.count .launch →
        ∃ running, last.phase.life = some running ∧ event.id ∈ running.launched := by
  have hKeeps : ∀ (start : DispatcherState) (label : DispatcherStep) (stop : DispatcherState),
      DispatcherInv start → DispatcherRuns catchupMaxAge start label stop →
      DispatcherInv stop := fun _ _ _ hInv hStep => dispatcherInv_step hInv hStep
  have hMiddle := hBefore.invariant DispatcherInv hKeeps (beforeFirstStart_inv events)
  have hLast := hAfter.invariant DispatcherInv hKeeps hMiddle
  refine ⟨?_, ?_, ?_⟩
  · intro row hRow id hPending
    exact (hLast.cursor row hRow).1 id hPending
  · intro row hRow
    exact cursor_run_le hAfter hMiddle hRow
  · intro dispatcher event hAt hMem hFloor hNotDone hFresh hNoCrash hEnough
    have hLife : middle.phase.life = some dispatcher := by rw [hAt]; rfl
    have hOld := hMiddle.life dispatcher hLife
    refine awaited_run hAfter hMiddle hNoCrash ⟨hMem, dispatcher, hLife, ?_⟩
    by_cases hRead : event.id ≤ dispatcher.highWaterMark
    · rcases hOld.handled event.id ⟨event, hMem, rfl⟩ hFloor hRead with hFlight | hDone
      · exact Or.inl (hOld.launched event.id hFlight)
      · exact absurd hDone hNotDone
    · exact Or.inr ⟨Nat.lt_of_not_le hRead, hFresh, hEnough⟩

/-! ## Runs on given tables -/

def noEvents : EventTable := ⟨[], List.Pairwise.nil, by simp⟩

def oneEvent : EventTable := ⟨[⟨1, 5⟩], by simp, by simp⟩

/-- First start on an empty table; an event is logged and its dispatch launched; the
process dies before the dispatch settles. -/
def crashInFlight : List DispatcherStep :=
  [.begin true, .load (.cursorRead 0 true), .initialise true, .log ⟨1, 5⟩, .poll true, .launch,
    .crash]

/-- The dispatcher that is started at time 10 after this crash. -/
def restarted : Dispatcher :=
  ⟨0, 0, 1, some (-50), true, some ⟨0, 0⟩, [], []⟩

/-- After the crash the next start reads the event again and dispatches it. -/
theorem delivery_at_least_once_after_crash :
    ∃ last, Run (DispatcherRuns 60)
        ⟨oneEvent, some ⟨0, 0⟩, .running restarted .idle, [], [], 0⟩ [.poll true, .launch] last ∧
      ∃ running, last.phase.life = some running ∧ 1 ∈ running.launched := by
  have hBefore : Run (DispatcherRuns 60) (.beforeFirstStart noEvents)
      (crashInFlight ++ [.begin true, .load (.cursorRead 10 true)])
      ⟨oneEvent, some ⟨0, 0⟩, .running restarted .idle, [], [], 0⟩ := Run.of_steps rfl
  have hAfter : Run (DispatcherRuns 60)
      ⟨oneEvent, some ⟨0, 0⟩, .running restarted .idle, [], [], 0⟩ [.poll true, .launch] _ :=
    Run.of_steps rfl
  have hDelivered := (delivery_at_least_once 60 noEvents hBefore hAfter).2.2 restarted ⟨1, 5⟩ rfl
    List.mem_cons_self (by decide) (by decide) rfl (by decide) (by decide)
  exact ⟨_, hAfter, hDelivered⟩

/-- A start without a cursor to resume from goes to the newest event.  On the first
start the history is never read.  If the row cannot be read after a crash, the first
write of the marks passes the event whose dispatch the crash cut off. -/
theorem start_without_cursor_skips_events :
    exec (dispatcherStep 60) (.beforeFirstStart oneEvent)
        [.begin true, .load (.cursorRead 0 true), .initialise true] =
      some ⟨oneEvent, some ⟨1, 1⟩,
        .running ⟨1, 1, 1, none, true, some ⟨1, 1⟩, [], []⟩ .idle, [], [], 1⟩ ∧
    exec (dispatcherStep 60) (.beforeFirstStart noEvents)
        (crashInFlight ++ [.begin true, .load .cursorUnreadable, .poll true, .persist,
          .persisted true]) =
      some ⟨oneEvent, some ⟨1, 1⟩,
        .running ⟨1, 1, 1, none, true, some ⟨1, 1⟩, [], []⟩ .idle, [], [], 1⟩ ∧
    (⟨oneEvent, some ⟨1, 1⟩,
      .running ⟨1, 1, 1, none, true, some ⟨1, 1⟩, [], []⟩ .idle, [], [], 1⟩ :
      DispatcherState).Unsettled 1 := by
  refine ⟨rfl, rfl, Or.inr ?_⟩
  exact List.not_mem_nil

end TimelapseManager.Monitoring
