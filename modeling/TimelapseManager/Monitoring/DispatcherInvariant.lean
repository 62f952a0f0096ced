import TimelapseManager.Monitoring.Dispatcher

/-!
# The delivery cursor stays below everything unfinished

`Pending` is an event above the floor that the running dispatcher has in flight or has not read, or
that no dispatcher has finished.  `DispatcherInv` says that the cursor, and every pair of marks that
may still reach it, is below everything pending.  Between two starts events only stop being pending,
except for new ones, which come above every mark; so a mark that was good when it was computed
(`deliveryMark_ok`) is good at every later moment.
-/

namespace TimelapseManager.Monitoring

open LowWater

/-! ## Small facts about the marks -/

variable {event : Event} {last polled : PolledEvent} {id mark : ℕ} {dispatcher new old : Dispatcher}
  {after before state : DispatcherState} {marks : CursorRow}

namespace Dispatcher

variable (dispatcher : Dispatcher)

@[simp] theorem endCatchupIfPassed_highWaterMark :
    dispatcher.endCatchupIfPassed.highWaterMark = dispatcher.highWaterMark := by
  unfold endCatchupIfPassed
  split <;> rfl

@[simp] theorem endCatchupIfPassed_inFlight :
    dispatcher.endCatchupIfPassed.inFlight = dispatcher.inFlight := by
  unfold endCatchupIfPassed
  split <;> rfl

@[simp] theorem endCatchupIfPassed_launched :
    dispatcher.endCatchupIfPassed.launched = dispatcher.launched := by
  unfold endCatchupIfPassed
  split <;> rfl

@[simp] theorem endCatchupIfPassed_autoClearFloor :
    dispatcher.endCatchupIfPassed.autoClearFloor = dispatcher.autoClearFloor := by
  unfold endCatchupIfPassed
  split <;> rfl

theorem endCatchupIfPassed_isStaleCatchup (hFresh : dispatcher.isStaleCatchup event = false) :
    dispatcher.endCatchupIfPassed.isStaleCatchup event = false := by
  unfold endCatchupIfPassed
  split
  · rfl
  · exact hFresh

variable {dispatcher} {batch : List PolledEvent}

@[simp] theorem launch_inFlight :
    (dispatcher.launch batch).inFlight = dispatcher.inFlight ++ deliverableIds batch := by
  simp [launch]

@[simp] theorem launch_launched :
    (dispatcher.launch batch).launched = dispatcher.launched ++ deliverableIds batch := by
  simp [launch]

@[simp] theorem launch_autoClearFloor :
    (dispatcher.launch batch).autoClearFloor = dispatcher.autoClearFloor := by
  simp [launch]

end Dispatcher

theorem mem_deliverableIds {batch : List PolledEvent} :
    id ∈ deliverableIds batch ↔ ∃ polled ∈ batch, polled.deliver = true ∧ polled.event.id = id := by
  simp [deliverableIds, and_assoc]

theorem mem_skippedIds {batch : List PolledEvent} :
    id ∈ skippedIds batch ↔ ∃ polled ∈ batch, polled.deliver = false ∧ polled.event.id = id := by
  simp [skippedIds, and_assoc]

theorem pollNewEvents_prefix (dispatcher : Dispatcher) (table : EventTable) :
    (dispatcher.pollNewEvents table).map PolledEvent.event <+:
      table.above dispatcher.highWaterMark := by
  unfold Dispatcher.pollNewEvents
  rw [List.map_map]
  have hId : (PolledEvent.event ∘ fun event : Event =>
      (⟨event, !dispatcher.isStaleCatchup event⟩ : PolledEvent)) = id := rfl
  rw [hId, List.map_id]
  exact List.take_prefix _ _

theorem pollNewEvents_deliver {table : EventTable}
    (hMem : polled ∈ dispatcher.pollNewEvents table) :
    polled.deliver = !dispatcher.isStaleCatchup polled.event := by
  obtain ⟨event, -, rfl⟩ := List.mem_map.mp hMem
  rfl

/-! ## Pending events -/

namespace DispatcherState

/-- There is an event of this id. -/
def Logged (state : DispatcherState) (id : ℕ) : Prop :=
  ∃ event ∈ state.events.rows, event.id = id

/-- In flight in the running dispatcher, unread by it, or finished by none. -/
def Unsettled (state : DispatcherState) (id : ℕ) : Prop :=
  (∃ dispatcher, state.phase.life = some dispatcher ∧
    (id ∈ dispatcher.inFlight ∨ dispatcher.highWaterMark < id)) ∨
  id ∉ state.done

def Pending (state : DispatcherState) (id : ℕ) : Prop :=
  state.Logged id ∧ state.floor < id ∧ state.Unsettled id

/-- A mark that may be persisted. -/
def MarkOk (state : DispatcherState) (mark : ℕ) : Prop :=
  Below state.Pending mark ∧ mark ≤ state.events.newest

end DispatcherState

open DispatcherState

theorem DispatcherState.MarkOk.mono (hMark : before.MarkOk mark)
    (hEvents : after.events = before.events)
    (hPending : ∀ id, after.Pending id → before.Pending id) : after.MarkOk mark :=
  ⟨hMark.1.mono hPending, by rw [hEvents]; exact hMark.2⟩

theorem DispatcherState.MarkOk.write {row : CursorRow}
    (hCursor : ∀ row, state.cursor = some row → state.MarkOk row.lastEventId)
    (hMarks : state.MarkOk marks.lastEventId) (hRow : (state.write marks).cursor = some row) :
    state.MarkOk row.lastEventId := by
  unfold DispatcherState.write writeCursor at hRow
  cases hOld : state.cursor with rw [hOld] at hRow
  | none =>
    cases hRow
    exact hMarks
  | some old =>
    cases hRow
    have hOldOk := hCursor old hOld
    exact ⟨hOldOk.1.max hMarks.1, max_le hOldOk.2 hMarks.2⟩

theorem markOk_log (hNewer : state.events.newest < event.id) (hMark : state.MarkOk mark) :
    ({ state with events := state.events.append event hNewer } : DispatcherState).MarkOk mark := by
  refine ⟨?_, le_trans hMark.2 (EventTable.newest_append hNewer)⟩
  rintro id ⟨⟨logged, hMem, hId⟩, hFloor, hUnsettled⟩
  rcases List.mem_append.mp hMem with hOld | hNew
  · exact hMark.1 id ⟨⟨logged, hOld, hId⟩, hFloor, hUnsettled⟩
  · rw [← hId, List.mem_singleton.mp hNew]
    exact lt_of_le_of_lt hMark.2 hNewer

/-! ## The invariant -/

/-- What holds of a dispatcher between its start and its end. -/
structure LifeInv (state : DispatcherState) (dispatcher : Dispatcher) : Prop where
  positive : ∀ id ∈ dispatcher.inFlight, 0 < id
  read : ∀ id ∈ dispatcher.inFlight, id ≤ dispatcher.highWaterMark
  launched : ∀ id ∈ dispatcher.inFlight, id ∈ dispatcher.launched
  /-- Above the floor, what was read is in flight or finished. -/
  handled : ∀ id, state.Logged id → state.floor < id → id ≤ dispatcher.highWaterMark →
    id ∈ dispatcher.inFlight ∨ id ∈ state.done
  mark_le : dispatcher.highWaterMark ≤ state.events.newest

/-- What holds at each point of the process.  No write is under way before a start is
complete. -/
def PhaseOk (state : DispatcherState) : DispatcherPhase → Prop
  | .down => state.lateWrites = []
  | .loading newest =>
    state.lateWrites = [] ∧ newest ≤ state.events.newest ∧
      ∀ row, state.cursor = some row → row.lastEventId ≤ newest
  | .initialising newest =>
    state.lateWrites = [] ∧ newest ≤ state.events.newest ∧ state.cursor = none
  | .running dispatcher (.polled batch) =>
    batch ≠ [] ∧
      batch.map PolledEvent.event <+: state.events.above dispatcher.highWaterMark ∧
      ∀ polled ∈ batch, polled.deliver = !dispatcher.isStaleCatchup polled.event
  | .running _ (.persisting marks) => state.MarkOk marks.lastEventId
  | .saving _ marks => state.MarkOk marks.lastEventId
  | _ => True

structure DispatcherInv (state : DispatcherState) : Prop where
  cursor : ∀ row, state.cursor = some row → state.MarkOk row.lastEventId
  lateWrites : ∀ marks ∈ state.lateWrites, state.MarkOk marks.lastEventId
  life : ∀ dispatcher, state.phase.life = some dispatcher → LifeInv state dispatcher
  phase : PhaseOk state state.phase

theorem deliveryMark_ok (hLife : state.phase.life = some dispatcher)
    (hInv : LifeInv state dispatcher) : state.MarkOk dispatcher.deliveryMark := by
  refine ⟨below_lowWater hInv.positive hInv.read ?_, le_trans (lowWater_le hInv.read) hInv.mark_le⟩
  rintro id ⟨hLogged, hFloor, ⟨other, hOther, hOpen⟩ | hNotDone⟩
  · rw [hLife] at hOther
    cases hOther
    exact hOpen
  · by_cases hRead : id ≤ dispatcher.highWaterMark
    · rcases hInv.handled id hLogged hFloor hRead with hFlight | hDone
      · exact Or.inl hFlight
      · exact absurd hDone hNotDone
    · exact Or.inr (by omega)

theorem marksToPersist_ok (hLife : state.phase.life = some dispatcher)
    (hInv : LifeInv state dispatcher) (hMarks : dispatcher.marksToPersist = some marks) :
    state.MarkOk marks.lastEventId := by
  unfold Dispatcher.marksToPersist at hMarks
  dsimp only at hMarks
  split_ifs at hMarks
  cases hMarks
  exact deliveryMark_ok hLife hInv

/-- The dispatcher has registered and read no more, and skips no more, than before. -/
structure SameProgress (old new : Dispatcher) : Prop where
  launched : new.launched = old.launched
  highWaterMark : new.highWaterMark = old.highWaterMark
  autoClearFloor : new.autoClearFloor = old.autoClearFloor
  fresh : ∀ event, old.isStaleCatchup event = false → new.isStaleCatchup event = false

/-- It also has the same dispatches in flight. -/
structure SameMarks (old new : Dispatcher) : Prop extends SameProgress old new where
  inFlight : new.inFlight = old.inFlight

theorem SameMarks.refl (dispatcher : Dispatcher) : SameMarks dispatcher dispatcher :=
  ⟨⟨rfl, rfl, rfl, fun _ hFresh => hFresh⟩, rfl⟩

/-- A step that leaves the table, the records and the dispatcher's marks alone. -/
structure Quiet (before after : DispatcherState) : Prop where
  events : after.events = before.events
  done : after.done = before.done
  floor : after.floor = before.floor
  life : ∀ dispatcher, after.phase.life = some dispatcher →
    ∃ old, before.phase.life = some old ∧ SameMarks old dispatcher

section

variable (hQuiet : Quiet before after)
include hQuiet

theorem Quiet.pending (id : ℕ) (hPending : after.Pending id) : before.Pending id := by
  obtain ⟨⟨event, hMem, hId⟩, hFloor, hUnsettled⟩ := hPending
  rw [hQuiet.events] at hMem
  rw [hQuiet.floor] at hFloor
  refine ⟨⟨event, hMem, hId⟩, hFloor, ?_⟩
  rcases hUnsettled with ⟨dispatcher, hLife, hOpen⟩ | hNotDone
  · obtain ⟨old, hOld, hSame⟩ := hQuiet.life dispatcher hLife
    rw [hSame.inFlight, hSame.highWaterMark] at hOpen
    exact Or.inl ⟨old, hOld, hOpen⟩
  · rw [hQuiet.done] at hNotDone
    exact Or.inr hNotDone

theorem Quiet.markOk (hMark : before.MarkOk mark) : after.MarkOk mark :=
  hMark.mono hQuiet.events hQuiet.pending

theorem Quiet.inv (hInv : DispatcherInv before)
    (hCursor : ∀ row, after.cursor = some row → before.MarkOk row.lastEventId)
    (hLate : ∀ marks ∈ after.lateWrites, before.MarkOk marks.lastEventId)
    (hPhase : PhaseOk after after.phase) : DispatcherInv after where
  cursor := fun row hRow => hQuiet.markOk (hCursor row hRow)
  lateWrites := fun marks hMem => hQuiet.markOk (hLate marks hMem)
  life := by
    intro dispatcher hLife
    obtain ⟨old, hOld, ⟨hLaunched, hMark, -, -⟩, hFlight⟩ := hQuiet.life dispatcher hLife
    have hOldInv := hInv.life old hOld
    constructor
    · rw [hFlight]
      exact hOldInv.positive
    · rw [hFlight, hMark]
      exact hOldInv.read
    · rw [hFlight, hLaunched]
      exact hOldInv.launched
    · rintro id ⟨event, hMem, hId⟩ hFloor hRead
      rw [hQuiet.events] at hMem
      rw [hQuiet.floor] at hFloor
      rw [hMark] at hRead
      rw [hFlight, hQuiet.done]
      exact hOldInv.handled id ⟨event, hMem, hId⟩ hFloor hRead
    · rw [hMark, hQuiet.events]
      exact hOldInv.mark_le
  phase := hPhase

end

theorem startAt_inv {position : StartPosition} {floor : ℕ} (hLate : state.lateWrites = [])
    (hPosition : position.deliveryMark ≤ state.events.newest)
    (hCursor : ∀ row, state.cursor = some row →
      row.lastEventId ≤ state.events.newest ∧
        (row.lastEventId ≤ floor ∨ row.lastEventId ≤ position.deliveryMark))
    (hHandled : ∀ id, state.Logged id → floor < id → id ≤ position.deliveryMark →
      id ∈ state.done) : DispatcherInv (state.startAt position floor) where
  cursor := by
    intro row hRow
    obtain ⟨hNewest, hWithin⟩ := hCursor row hRow
    refine ⟨?_, hNewest⟩
    rintro id ⟨hLogged, hFloor, hUnsettled⟩
    rcases hWithin with hWithin | hWithin
    · exact lt_of_le_of_lt hWithin hFloor
    · -- Nothing is in flight yet, so a pending event is past the position.
      refine lt_of_le_of_lt hWithin ?_
      rcases hUnsettled with ⟨dispatcher, hLife, hOpen⟩ | hNotDone
      · cases hLife
        rcases hOpen with hFlight | hUnread
        · cases hFlight
        · exact hUnread
      · by_contra hRead
        exact hNotDone (hHandled id hLogged hFloor (by omega))
  lateWrites := by
    intro marks hMem
    change marks ∈ state.lateWrites at hMem
    rw [hLate] at hMem
    cases hMem
  life := by
    intro dispatcher hLife
    cases hLife
    constructor
    · intro id hMem
      cases hMem
    · intro id hMem
      cases hMem
    · intro id hMem
      cases hMem
    · intro id hLogged hFloor hRead
      exact Or.inr (hHandled id hLogged hFloor hRead)
    · exact hPosition
  phase := trivial

/-! ## Steps -/

theorem log_inv (hNewer : state.events.newest < event.id) (hInv : DispatcherInv state) :
    DispatcherInv { state with events := state.events.append event hNewer } where
  cursor := fun row hRow => markOk_log hNewer (hInv.cursor row hRow)
  lateWrites := fun marks hMem => markOk_log hNewer (hInv.lateWrites marks hMem)
  life := by
    intro dispatcher hLife
    have hOld := hInv.life dispatcher hLife
    refine ⟨hOld.positive, hOld.read, hOld.launched, ?_,
      le_trans hOld.mark_le (EventTable.newest_append hNewer)⟩
    rintro id ⟨logged, hMem, hId⟩ hFloor hRead
    rcases List.mem_append.mp hMem with hMem | hMem
    · exact hOld.handled id ⟨logged, hMem, hId⟩ hFloor hRead
    · -- The read mark has not reached the new event.
      rw [List.mem_singleton.mp hMem] at hId
      have hMark := hOld.mark_le
      omega
  phase := by
    have hPhase := hInv.phase
    have hNewest := EventTable.newest_append hNewer
    obtain ⟨events, cursor, phase, lateWrites, done, floor⟩ := state
    cases phase with
    | loading | initialising => exact ⟨hPhase.1, le_trans hPhase.2.1 hNewest, hPhase.2.2⟩
    | running dispatcher point =>
      cases point with
      | idle => exact trivial
      | polled batch =>
        obtain ⟨hNonempty, hPrefix, hDeliver⟩ := hPhase
        exact ⟨hNonempty, hPrefix.trans (EventTable.above_prefix_append hNewer _), hDeliver⟩
      | persisting marks => exact markOk_log hNewer hPhase
    | saving => exact markOk_log hNewer hPhase
    | down => exact hPhase
    | stopping | stopped => exact trivial

/-- The state after the launch of a batch. -/
def DispatcherState.launch (state : DispatcherState) (dispatcher : Dispatcher)
    (batch : List PolledEvent) : DispatcherState :=
  { state with
    phase := .running (dispatcher.launch batch) .idle
    done := skippedIds batch ++ state.done }

section Launch

variable {state : DispatcherState} {dispatcher : Dispatcher} {batch : List PolledEvent}
variable (hPrefix : batch.map PolledEvent.event <+: state.events.above dispatcher.highWaterMark)
include hPrefix

theorem mem_batch_above (hMem : polled ∈ batch) :
    polled.event ∈ state.events.rows ∧ dispatcher.highWaterMark < polled.event.id :=
  EventTable.mem_above.mp (hPrefix.subset (List.mem_map_of_mem hMem))

theorem batch_id_le_last (hLast : batch.getLast? = some last) (hMem : polled ∈ batch) :
    polled.event.id ≤ last.event.id := by
  obtain ⟨init, rfl⟩ := List.getLast?_eq_some_iff.mp hLast
  have hSorted : ((init ++ [last]).map PolledEvent.event).Pairwise
      fun first second => first.id < second.id :=
    (state.events.increasing.filter _).sublist hPrefix.sublist
  rw [List.map_append, List.pairwise_append] at hSorted
  rcases List.mem_append.mp hMem with hMem | hMem
  · exact le_of_lt (hSorted.2.2 polled.event (List.mem_map_of_mem hMem) last.event (by simp))
  · rw [List.mem_singleton.mp hMem]

theorem exists_mem_batch (hLast : last ∈ batch) (hEvent : event ∈ state.events.rows)
    (hUnread : dispatcher.highWaterMark < event.id) (hLe : event.id ≤ last.event.id) :
    ∃ polled ∈ batch, polled.event = event := by
  have hMem := EventTable.mem_of_prefix hPrefix (List.mem_map_of_mem hLast)
    (EventTable.mem_above.mpr ⟨hEvent, hUnread⟩) hLe
  exact List.mem_map.mp hMem

theorem exists_last (hNonempty : batch ≠ []) :
    ∃ last ∈ batch, last.event ∈ state.events.rows ∧
      dispatcher.highWaterMark < last.event.id ∧ batch.getLast? = some last ∧
      (dispatcher.launch batch).highWaterMark = last.event.id := by
  obtain ⟨last, hLast⟩ := Option.ne_none_iff_exists'.mp
    (fun hNone => hNonempty (List.getLast?_eq_none_iff.mp hNone))
  have hMem : last ∈ batch := List.mem_of_getLast? hLast
  obtain ⟨hRow, hUnread⟩ := mem_batch_above hPrefix hMem
  refine ⟨last, hMem, hRow, hUnread, hLast, ?_⟩
  simp only [Dispatcher.launch, Dispatcher.endCatchupIfPassed_highWaterMark, hLast,
    Option.map_some, Option.getD_some]
  exact max_eq_right (le_of_lt hUnread)

theorem launch_pending (hLife : state.phase.life = some dispatcher)
    (hPending : (state.launch dispatcher batch).Pending id) : state.Pending id := by
  obtain ⟨hLogged, hFloor, hUnsettled⟩ := hPending
  refine ⟨hLogged, hFloor, ?_⟩
  rcases hUnsettled with ⟨launched, hLaunched, hOpen⟩ | hNotDone
  · cases hLaunched
    refine Or.inl ⟨dispatcher, hLife, ?_⟩
    rcases hOpen with hFlight | hUnread
    · rw [Dispatcher.launch_inFlight] at hFlight
      rcases List.mem_append.mp hFlight with hFlight | hNew
      · exact Or.inl hFlight
      · obtain ⟨polled, hMem, -, rfl⟩ := mem_deliverableIds.mp hNew
        exact Or.inr (mem_batch_above hPrefix hMem).2
    · refine Or.inr (lt_of_le_of_lt ?_ hUnread)
      simp [Dispatcher.launch]
  · refine Or.inr fun hDone => hNotDone ?_
    exact List.mem_append_right _ hDone

theorem launch_life (hOld : LifeInv state dispatcher) (hNonempty : batch ≠ []) :
    LifeInv (state.launch dispatcher batch) (dispatcher.launch batch) := by
  -- The batch is read up to its last event, deliverable or not.
  obtain ⟨last, hMemLast, hLastRow, hLastUnread, hLast, hMark⟩ := exists_last hPrefix hNonempty
  constructor
  · rw [Dispatcher.launch_inFlight]
    refine List.forall_mem_append.mpr ⟨hOld.positive, fun id hNew => ?_⟩
    obtain ⟨polled, hPolled, -, rfl⟩ := mem_deliverableIds.mp hNew
    exact state.events.positive _ (mem_batch_above hPrefix hPolled).1
  · rw [Dispatcher.launch_inFlight, hMark]
    refine List.forall_mem_append.mpr ⟨fun id hMem => ?_, fun id hNew => ?_⟩
    · exact le_of_lt (lt_of_le_of_lt (hOld.read id hMem) hLastUnread)
    · obtain ⟨polled, hPolled, -, rfl⟩ := mem_deliverableIds.mp hNew
      exact batch_id_le_last hPrefix hLast hPolled
  · rw [Dispatcher.launch_inFlight, Dispatcher.launch_launched]
    refine List.forall_mem_append.mpr ⟨fun id hMem => ?_, fun id => List.mem_append_right _⟩
    exact List.mem_append_left _ (hOld.launched id hMem)
  · intro id hLogged hFloor hRead
    rw [hMark] at hRead
    rw [Dispatcher.launch_inFlight]
    by_cases hOldRead : id ≤ dispatcher.highWaterMark
    · rcases hOld.handled id hLogged hFloor hOldRead with hFlight | hDone
      · exact Or.inl (List.mem_append_left _ hFlight)
      · exact Or.inr (List.mem_append_right _ hDone)
    · -- The event is in the batch: it gets a dispatch, or it is skipped.
      obtain ⟨event, hEvent, rfl⟩ := hLogged
      obtain ⟨polled, hPolled, rfl⟩ :=
        exists_mem_batch hPrefix hMemLast hEvent (by omega) hRead
      cases hDeliver : polled.deliver with
      | true =>
        exact Or.inl (List.mem_append_right _
          (mem_deliverableIds.mpr ⟨polled, hPolled, hDeliver, rfl⟩))
      | false =>
        exact Or.inr (List.mem_append_left _ (mem_skippedIds.mpr ⟨polled, hPolled, hDeliver, rfl⟩))
  · rw [hMark]
    exact EventTable.le_newest hLastRow

end Launch

/-! ## Starts -/

section Start

variable {state : DispatcherState}

theorem startAt_zero_inv (hInv : DispatcherInv state) (hLate : state.lateWrites = []) :
    DispatcherInv (state.startAt .atZero state.zeroFloor) := by
  refine startAt_inv hLate (Nat.zero_le _) ?_ ?_
  · intro row hRow
    refine ⟨(hInv.cursor row hRow).2, Or.inl ?_⟩
    simp [zeroFloor, hRow]
  · intro id _ hFloor hRead
    change id ≤ 0 at hRead
    omega

variable {newest : ℕ}

theorem startAt_newest_inv {persisted : Bool} (hLate : state.lateWrites = [])
    (hNewest : newest ≤ state.events.newest)
    (hCursor : ∀ row, state.cursor = some row → row.lastEventId ≤ newest) :
    DispatcherInv (state.startAt (.atNewest newest persisted) newest) := by
  refine startAt_inv hLate hNewest ?_ ?_
  · intro row hRow
    have hLe := hCursor row hRow
    exact ⟨le_trans hLe hNewest, Or.inl hLe⟩
  · intro id _ hFloor hRead
    change id ≤ newest at hRead
    omega

end Start

end TimelapseManager.Monitoring
