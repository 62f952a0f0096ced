import TimelapseManager.Lib.LowWater
import TimelapseManager.Lib.Runs

/-!
# The notification dispatcher

`NotificationDispatcher` of `monitoring/dispatcher.py`: the event table it polls, the singleton
`notification_cursor` row, the marks and in-flight dispatches it keeps in memory, and the steps of
the poll loop, of `stop` and of a start.

A step is what happens between two awaits, together with the database work awaited in between.  A
write that was handed to a thread outlives the cancellation of the coroutine that waits for it;
such writes are kept in `lateWrites` until they take effect, fail or die with the process.  What a
dispatch does with its event and the auto-clear pass of a poll are left out: a dispatch is in flight
until it settles, whatever its outcome.

Two components of the state are not in the program.  `done` collects the events whose dispatch has
settled and those that were read as too old for the catch-up.  `floor` is the id up to which a start
gave up on the history; see `DispatcherState`.
-/

namespace TimelapseManager.Monitoring

open LowWater

/-! ## The event table -/

/-- What the dispatcher's bookkeeping uses of an event row.  Times are naive UTC, in
microseconds. -/
structure Event where
  id : ℕ
  timestamp : ℤ
  deriving DecidableEq, Repr

/-- The event table.  Ids are positive and become visible in increasing order. -/
structure EventTable where
  rows : List Event
  increasing : rows.Pairwise fun first second => first.id < second.id
  positive : ∀ event ∈ rows, 0 < event.id
  deriving DecidableEq

namespace EventTable

/-- `_current_max_id`. -/
def newest (table : EventTable) : ℕ :=
  (table.rows.map Event.id).max?.getD 0

variable {event : Event} {table : EventTable}

theorem le_newest (hMem : event ∈ table.rows) : event.id ≤ table.newest :=
  List.le_max?_getD_of_mem (List.mem_map_of_mem hMem)

/-- A new row, visible after all others. -/
def append (table : EventTable) (event : Event) (hNewer : table.newest < event.id) :
    EventTable where
  rows := table.rows ++ [event]
  increasing := by
    rw [List.pairwise_append]
    refine ⟨table.increasing, List.pairwise_singleton _ _, ?_⟩
    intro old hOld new hNew
    rw [List.mem_singleton.mp hNew]
    exact lt_of_le_of_lt (le_newest hOld) hNewer
  positive := by
    refine List.forall_mem_append.mpr ⟨table.positive, List.forall_mem_singleton.mpr ?_⟩
    omega

/-- The rows above a mark, in id order. -/
def above (table : EventTable) (mark : ℕ) : List Event :=
  table.rows.filter fun event => mark < event.id

@[simp] theorem mem_above {mark : ℕ} :
    event ∈ table.above mark ↔ event ∈ table.rows ∧ mark < event.id := by
  simp [above]

theorem above_prefix_append (hNewer : table.newest < event.id) (mark : ℕ) :
    table.above mark <+: (table.append event hNewer).above mark := by
  unfold above append
  rw [List.filter_append]
  exact List.prefix_append _ _

theorem newest_append (hNewer : table.newest < event.id) :
    table.newest ≤ (table.append event hNewer).newest := by
  have hMem : event ∈ (table.append event hNewer).rows := by simp [append]
  exact le_trans (le_of_lt hNewer) (le_newest hMem)

theorem mem_of_prefix {mark : ℕ} {part : List Event} {last : Event}
    (hPart : part <+: table.above mark) (hLast : last ∈ part) (hMem : event ∈ table.above mark)
    (hLe : event.id ≤ last.id) : event ∈ part := by
  obtain ⟨rest, hRest⟩ := hPart
  have hSorted : (part ++ rest).Pairwise fun first second => first.id < second.id := by
    rw [hRest]
    exact table.increasing.filter _
  rw [← hRest] at hMem
  rcases List.mem_append.mp hMem with hMem | hLate
  · exact hMem
  · -- A row after the part has a larger id than its last row.
    have hLess := (List.pairwise_append.mp hSorted).2.2 last hLast event hLate
    omega

end EventTable

/-! ## The marks -/

/-- The `notification_cursor` row, and a pair of marks on its way there. -/
structure CursorRow where
  lastEventId : ℕ
  lastReadEventId : ℕ
  deriving DecidableEq, Repr

/-- `_write_cursor`: forward only; the row is created when it is missing. -/
def writeCursor (row : Option CursorRow) (marks : CursorRow) : CursorRow :=
  match row with
  | none => marks
  | some row =>
    ⟨max row.lastEventId marks.lastEventId, max row.lastReadEventId marks.lastReadEventId⟩

/-- `_StartPosition`. -/
structure StartPosition where
  deliveryMark : ℕ
  readMark : ℕ
  catchupUntilId : ℕ
  catchupCutoff : Option ℤ
  persisted : Bool
  deriving DecidableEq, Repr

/-- Start from the newest event. -/
def StartPosition.atNewest (newest : ℕ) (persisted : Bool) : StartPosition :=
  ⟨newest, newest, newest, none, persisted⟩

/-- Start from zero, when not even the newest event id can be read. -/
def StartPosition.atZero : StartPosition :=
  ⟨0, 0, 0, none, false⟩

/-- The end of `_load_start_position`: resume from a stored row. -/
def StartPosition.resume (catchupMaxAge : ℤ) (row : CursorRow) (newest : ℕ) (now : ℤ) :
    StartPosition :=
  let readMark := min (max row.lastReadEventId row.lastEventId) newest
  if newest ≤ row.lastEventId then
    ⟨row.lastEventId, readMark, row.lastEventId, none, true⟩
  else ⟨row.lastEventId, readMark, newest, some (now - catchupMaxAge), true⟩

/-- What the running dispatcher remembers.  `launched` lists the dispatches it has
registered since it was started; it is not in the program. -/
structure Dispatcher where
  highWaterMark : ℕ
  autoClearFloor : ℕ
  catchupUntilId : ℕ
  catchupCutoff : Option ℤ
  positionKnown : Bool
  persistedMarks : Option CursorRow
  inFlight : List ℕ
  launched : List ℕ
  deriving DecidableEq

/-- `start`, once its position is known. -/
def Dispatcher.start (position : StartPosition) : Dispatcher where
  highWaterMark := position.deliveryMark
  autoClearFloor := position.readMark
  catchupUntilId := position.catchupUntilId
  catchupCutoff := position.catchupCutoff
  positionKnown := position.persisted
  persistedMarks :=
    if position.persisted then some ⟨position.deliveryMark, position.readMark⟩ else none
  inFlight := []
  launched := []

/-- `_delivery_mark`. -/
def Dispatcher.deliveryMark (dispatcher : Dispatcher) : ℕ :=
  lowWater dispatcher.inFlight dispatcher.highWaterMark

/-- The marks `_persist_cursor` writes, if it writes any. -/
def Dispatcher.marksToPersist (dispatcher : Dispatcher) : Option CursorRow :=
  let marks : CursorRow := ⟨dispatcher.deliveryMark, dispatcher.highWaterMark⟩
  if dispatcher.positionKnown = false then none
  else if dispatcher.persistedMarks = some marks then none
  else some marks

/-- `_end_catchup_if_passed`. -/
def Dispatcher.endCatchupIfPassed (dispatcher : Dispatcher) : Dispatcher :=
  if dispatcher.catchupCutoff.isSome ∧ dispatcher.catchupUntilId ≤ dispatcher.highWaterMark then
    { dispatcher with catchupCutoff := none }
  else dispatcher

/-- `_is_stale_catchup`. -/
def Dispatcher.isStaleCatchup (dispatcher : Dispatcher) (event : Event) : Bool :=
  match dispatcher.catchupCutoff with
  | none => false
  | some cutoff =>
    if dispatcher.catchupUntilId < event.id then false else event.timestamp < cutoff

/-- `_PolledEvent`. -/
structure PolledEvent where
  event : Event
  deliver : Bool
  deriving DecidableEq, Repr

/-- `_POLL_BATCH_SIZE`. -/
def pollBatchSize : ℕ := 200

/-- `_poll_new_events`. -/
def Dispatcher.pollNewEvents (dispatcher : Dispatcher) (table : EventTable) : List PolledEvent :=
  ((table.above dispatcher.highWaterMark).take pollBatchSize).map fun event =>
    ⟨event, !dispatcher.isStaleCatchup event⟩

/-- The ids of a batch that get a dispatch. -/
def deliverableIds (batch : List PolledEvent) : List ℕ :=
  (batch.filter PolledEvent.deliver).map fun polled => polled.event.id

/-- The ids of a batch that are too old. -/
def skippedIds (batch : List PolledEvent) : List ℕ :=
  (batch.filter fun polled => !polled.deliver).map fun polled => polled.event.id

/-- The end of `_poll_and_launch`: every dispatch is registered, then the read mark
moves, with no await in between. -/
def Dispatcher.launch (dispatcher : Dispatcher) (batch : List PolledEvent) : Dispatcher :=
  let lastId := (batch.getLast?.map fun polled => polled.event.id).getD 0
  { dispatcher with
      inFlight := dispatcher.inFlight ++ deliverableIds batch
      launched := dispatcher.launched ++ deliverableIds batch
      highWaterMark := max dispatcher.highWaterMark lastId }.endCatchupIfPassed

/-- `_settled`, for a dispatch that was not cancelled. -/
def Dispatcher.settle (dispatcher : Dispatcher) (id : ℕ) : Dispatcher :=
  { dispatcher with inFlight := dispatcher.inFlight.filter (· ≠ id) }

/-! ## The system -/

/-- Where the poll loop is. -/
inductive LoopPoint
  | idle
  /-- A batch has been read and awaits the auto-clear pass and the routing rules. -/
  | polled (batch : List PolledEvent)
  /-- `_persist_cursor` waits for its write. -/
  | persisting (marks : CursorRow)
  deriving DecidableEq

/-- Where the process is. -/
inductive DispatcherPhase
  | down
  /-- `_load_start_position` has read the newest event id. -/
  | loading (newest : ℕ)
  /-- It is about to set the cursor to the newest event. -/
  | initialising (newest : ℕ)
  | running (dispatcher : Dispatcher) (point : LoopPoint)
  /-- `stop` has cancelled the loop and the dispatches and waits for them. -/
  | stopping (dispatcher : Dispatcher)
  /-- `stop` persists the cursor. -/
  | saving (dispatcher : Dispatcher) (marks : CursorRow)
  | stopped (dispatcher : Dispatcher)
  deriving DecidableEq

/-- The dispatcher in memory, if there is one. -/
def DispatcherPhase.life : DispatcherPhase → Option Dispatcher
  | .down => none
  | .loading _ => none
  | .initialising _ => none
  | .running dispatcher _ => some dispatcher
  | .stopping dispatcher => some dispatcher
  | .saving dispatcher _ => some dispatcher
  | .stopped dispatcher => some dispatcher

/-- The database, the process, and two records for the statements: `done` are the events
whose dispatch settled or that were skipped as too old, and `floor` is

* the newest id at the last start that had no cursor to resume from, because there was no
  row yet or it could not be read, and
* at least the cursor at every start that could not load its position and began at zero. -/
structure DispatcherState where
  events : EventTable
  cursor : Option CursorRow
  phase : DispatcherPhase
  lateWrites : List CursorRow
  done : List ℕ
  floor : ℕ
  deriving DecidableEq

/-- What becomes of the reads in `_load_start_position`. -/
inductive LoadOutcome
  | cursorUnreadable
  /-- The row was read; `counted` is whether `_count_catchup` worked, if it was needed. -/
  | cursorRead (now : ℤ) (counted : Bool)
  deriving DecidableEq

inductive DispatcherStep
  /-- Some part of the application logs an event. -/
  | log (event : Event)
  | begin (newestReadable : Bool)
  | load (outcome : LoadOutcome)
  | initialise (written : Bool)
  | poll (readable : Bool)
  | launch
  /-- The cycle fails after the read, for instance on the routing rules. -/
  | abandon
  | settle (id : ℕ)
  | persist
  | persisted (written : Bool)
  | stop
  | save
  | saved (written : Bool)
  | lateWrite (marks : CursorRow)
  | crash
  deriving DecidableEq

namespace DispatcherState

/-- The loop starts at the given position. -/
def startAt (state : DispatcherState) (position : StartPosition) (floor : ℕ) :
    DispatcherState :=
  { state with phase := .running (.start position) .idle, floor := floor }

/-- The floor of a start from zero. -/
def zeroFloor (state : DispatcherState) : ℕ :=
  max state.floor ((state.cursor.map CursorRow.lastEventId).getD 0)

/-- `_load_start_position` after the newest id was read. -/
def load (catchupMaxAge : ℤ) (state : DispatcherState) (newest : ℕ) : LoadOutcome → DispatcherState
  | .cursorUnreadable => state.startAt (.atNewest newest false) newest
  | .cursorRead now counted =>
    match state.cursor with
    | none => { state with phase := .initialising newest }
    | some row =>
      if newest < row.lastEventId then { state with phase := .initialising newest }
      else if row.lastEventId < newest ∧ counted = false then
        -- The exception of `_count_catchup` reaches `start`.
        state.startAt .atZero state.zeroFloor
      else state.startAt (.resume catchupMaxAge row newest now) state.floor

/-- `_set_cursor` to the newest event, and the start from there. -/
def initialise (state : DispatcherState) (newest : ℕ) (written : Bool) : DispatcherState :=
  if written then
    { state with cursor := some ⟨newest, newest⟩ }.startAt (.atNewest newest true) newest
  else state.startAt (.atNewest newest false) newest

/-- The first half of `_poll_and_launch`.  A failed query counts as an empty batch. -/
def poll (state : DispatcherState) (dispatcher : Dispatcher) (readable : Bool) :
    DispatcherState :=
  if pollBatchSize ≤ dispatcher.inFlight.length then state
  else
    let known := { dispatcher with positionKnown := true }
    let batch := if readable then dispatcher.pollNewEvents state.events else []
    if batch = [] then { state with phase := .running known.endCatchupIfPassed .idle }
    else { state with phase := .running known (.polled batch) }

/-- The marks have been written. -/
def write (state : DispatcherState) (marks : CursorRow) : DispatcherState :=
  { state with cursor := some (writeCursor state.cursor marks) }

/-- A dispatch settles. -/
def settle (state : DispatcherState) (phase : DispatcherPhase) (id : ℕ) : DispatcherState :=
  { state with phase := phase, done := id :: state.done }

end DispatcherState

/-- The write the loop was waiting for when `stop` cancelled it. -/
def LoopPoint.orphaned : LoopPoint → List CursorRow
  | .persisting marks => [marks]
  | _ => []

/-- One step; `none` where the process is not at a point that takes it. -/
def dispatcherStep (catchupMaxAge : ℤ) (state : DispatcherState) (step : DispatcherStep) :
    Option DispatcherState :=
  match step, state.phase with
  | .log event, _ =>
    if hNewer : state.events.newest < event.id then
      some { state with events := state.events.append event hNewer }
    else none
  | .begin newestReadable, .down =>
    if newestReadable then some { state with phase := .loading state.events.newest }
    else some (state.startAt .atZero state.zeroFloor)
  | .load outcome, .loading newest => some (state.load catchupMaxAge newest outcome)
  | .initialise written, .initialising newest => some (state.initialise newest written)
  | .poll readable, .running dispatcher .idle => some (state.poll dispatcher readable)
  | .launch, .running dispatcher (.polled batch) =>
    some { state with
      phase := .running (dispatcher.launch batch) .idle
      done := skippedIds batch ++ state.done }
  | .abandon, .running dispatcher (.polled _) =>
    some { state with phase := .running dispatcher .idle }
  | .settle id, .running dispatcher point =>
    if id ∈ dispatcher.inFlight then
      some (state.settle (.running (dispatcher.settle id) point) id)
    else none
  -- A dispatch may still finish before the cancellation reaches it.
  | .settle id, .stopping dispatcher =>
    if id ∈ dispatcher.inFlight then
      some (state.settle (.stopping (dispatcher.settle id)) id)
    else none
  | .persist, .running dispatcher .idle =>
    match dispatcher.marksToPersist with
    | none => some state
    | some marks => some { state with phase := .running dispatcher (.persisting marks) }
  | .persisted written, .running dispatcher (.persisting marks) =>
    if written then
      some { state.write marks with
        phase := .running { dispatcher with persistedMarks := some marks } .idle }
    else some { state with phase := .running dispatcher .idle }
  | .stop, .running dispatcher point =>
    some { state with
      phase := .stopping dispatcher
      lateWrites := point.orphaned ++ state.lateWrites }
  -- The cancelled dispatches are still in the map when `stop` computes its marks.
  | .save, .stopping dispatcher =>
    match dispatcher.marksToPersist with
    | none => some { state with phase := .stopped dispatcher }
    | some marks => some { state with phase := .saving dispatcher marks }
  | .saved written, .saving dispatcher marks =>
    if written then
      some { state.write marks with
        phase := .stopped { dispatcher with persistedMarks := some marks } }
    else some { state with phase := .stopped dispatcher }
  | .lateWrite marks, _ =>
    if marks ∈ state.lateWrites then
      some { state.write marks with lateWrites := state.lateWrites.erase marks }
    else none
  | .crash, _ => some { state with phase := .down, lateWrites := [] }
  | _, _ => none

/-- Runs of the dispatcher, over any number of starts. -/
abbrev DispatcherRuns (catchupMaxAge : ℤ) := Runs.Steps (dispatcherStep catchupMaxAge)

/-- Before the first start of a version that keeps a cursor. -/
def DispatcherState.beforeFirstStart (events : EventTable) : DispatcherState :=
  ⟨events, none, .down, [], [], 0⟩

end TimelapseManager.Monitoring
