import TimelapseManager.Lib.Runs

/-!
# Alerts and the events that resolve them

An event at an alert level is an active alert until it is cleared.  `auto_clear_for_event` clears,
for an event whose reason resolves others, the earlier alerts of its scope and `scope_id` with one
of these reasons; the dispatcher runs it over every batch of events it reads.  `AlertStep` is the
event log with passes over batches of it, cut and repeated in any way.
-/

namespace TimelapseManager.Monitoring

open Runs

abbrev Text := List Char

inductive Scope
  | system
  | camera
  | project
  deriving DecidableEq

inductive ClearReason
  | manual
  | auto
  | projectDeleted
  deriving DecidableEq

/-- What the alerts use of an event row: its scope, the `reason` of its details, and the reason it
was cleared for, which is none while it is open. -/
structure AlertRow where
  id : ℕ
  scope : Scope
  scopeId : Option ℤ
  reason : Option Text
  clearReason : Option ClearReason
  deriving DecidableEq

/-- `RESOLVE_TO_RAISE_REASONS`. -/
def resolveToRaiseReasons : List (Text × List Text) :=
  [("disk_recovered".toList, ["low_disk".toList]),
    ("camera_recovered".toList, ["camera_offline".toList]),
    ("anchor_recovered".toList, ["anchor_failed".toList]),
    ("events_available".toList, ["events_unavailable".toList])]

/-- The reasons that a reason resolves; none for one that resolves nothing. -/
def raiseReasons : Option Text → List Text
  | none => []
  | some reason => (resolveToRaiseReasons.lookup reason).getD []

namespace AlertRow

/-- The event resolves the alert, as far as their scopes and reasons go. -/
def Resolves (resolve row : AlertRow) : Prop :=
  row.scope = resolve.scope ∧ row.scopeId = resolve.scopeId ∧
    ∃ reason ∈ row.reason, reason ∈ raiseReasons resolve.reason

instance (resolve row : AlertRow) : Decidable (resolve.Resolves row) :=
  inferInstanceAs (Decidable (_ ∧ _ ∧ ∃ reason ∈ row.reason, _))

/-- The same event, whether or not it has been cleared. -/
def Same (first second : AlertRow) : Prop :=
  first.id = second.id ∧ first.scope = second.scope ∧ first.scopeId = second.scopeId ∧
    first.reason = second.reason

end AlertRow

/-- `auto_clear_for_event`, with the id of the resolving event as the bound if there is one. -/
def autoClearForEvent (rows : List AlertRow) (resolve : AlertRow) (resolveEventId : Option ℕ) :
    List AlertRow :=
  rows.map fun row =>
    if row.clearReason = none ∧ resolve.Resolves row ∧ ∀ bound ∈ resolveEventId, row.id < bound then
      { row with clearReason := some .auto }
    else row

/-- `_auto_clear_alerts_sync`: the events of a batch one after the other. -/
def autoClearAlertsSync (rows : List AlertRow) (batch : List AlertRow) : List AlertRow :=
  batch.foldl (fun rows event => autoClearForEvent rows event (some event.id)) rows

/-! ## What a pass does to a row -/

/-- A pass over the batch clears the row. -/
def Clears (batch : List AlertRow) (row : AlertRow) : Prop :=
  ∃ event ∈ batch, event.Resolves row ∧ row.id < event.id

instance (batch : List AlertRow) (row : AlertRow) : Decidable (Clears batch row) :=
  inferInstanceAs (Decidable (∃ event ∈ batch, _))

/-- The row after a pass over the batch. -/
def AlertRow.passed (batch : List AlertRow) (row : AlertRow) : AlertRow :=
  if row.clearReason = none ∧ Clears batch row then { row with clearReason := some .auto } else row

theorem AlertRow.same_passed (batch : List AlertRow) (row : AlertRow) :
    (row.passed batch).Same row := by
  unfold AlertRow.passed
  split
  · exact ⟨rfl, rfl, rfl, rfl⟩
  · exact ⟨rfl, rfl, rfl, rfl⟩

theorem AlertRow.Same.resolves_iff {first second resolve other : AlertRow}
    (hRow : first.Same second) (hResolve : resolve.Same other) :
    resolve.Resolves first ↔ other.Resolves second := by
  obtain ⟨-, hScope, hScopeId, hReason⟩ := hRow
  obtain ⟨-, hScope', hScopeId', hReason'⟩ := hResolve
  unfold AlertRow.Resolves
  rw [hScope, hScopeId, hReason, hScope', hScopeId', hReason']

variable {row : AlertRow}

theorem AlertRow.passed_open_iff {batch : List AlertRow} :
    (row.passed batch).clearReason = none ↔ row.clearReason = none ∧ ¬Clears batch row := by
  unfold AlertRow.passed
  by_cases hClears : row.clearReason = none ∧ Clears batch row
  · rw [if_pos hClears]
    simp [hClears]
  · rw [if_neg hClears]
    constructor
    · intro hOpen
      exact ⟨hOpen, fun hBatch => hClears ⟨hOpen, hBatch⟩⟩
    · exact And.left

theorem AlertRow.passed_cons (event : AlertRow) (batch : List AlertRow) (row : AlertRow) :
    (row.passed [event]).passed batch = row.passed (event :: batch) := by
  have hCons : Clears (event :: batch) row ↔ Clears [event] row ∨ Clears batch row := by
    simp [Clears]
  by_cases hEvent : row.clearReason = none ∧ Clears [event] row
  · have hFirst : row.passed [event] = { row with clearReason := some .auto } := if_pos hEvent
    have hAll : row.passed (event :: batch) = { row with clearReason := some .auto } :=
      if_pos ⟨hEvent.1, hCons.mpr (.inl hEvent.2)⟩
    rw [hFirst, hAll]
    exact if_neg (by simp)
  · have hFirst : row.passed [event] = row := if_neg hEvent
    rw [hFirst]
    simp only [passed, hCons, and_or_left, or_iff_right hEvent]

theorem autoClearAlertsSync_eq_map (rows batch : List AlertRow) :
    autoClearAlertsSync rows batch = rows.map (AlertRow.passed batch) := by
  induction batch generalizing rows with
  | nil =>
    have hId : AlertRow.passed [] = id := by
      funext row
      simp [AlertRow.passed, Clears]
    rw [hId, List.map_id]
    rfl
  | cons event batch ih =>
    have hEvent : autoClearForEvent rows event (some event.id) =
        rows.map (AlertRow.passed [event]) := by
      unfold autoClearForEvent AlertRow.passed Clears
      simp
    unfold autoClearAlertsSync at ih ⊢
    rw [List.foldl_cons, ih, hEvent, List.map_map]
    congr 1
    funext row
    exact AlertRow.passed_cons event batch row

/-! ## A log and the passes over it -/

/-- The event log, and the events that have been in a pass. -/
structure AlertLog where
  rows : List AlertRow
  processed : List ℕ

/-- An event is logged, or a pass runs over some of the events.  Any cut into batches is a list of
passes, and so is one in which batches are repeated. -/
inductive AlertLabel
  | log (row : AlertRow)
  | pass (ids : List ℕ)

def AlertLog.empty : AlertLog := ⟨[], []⟩

/-- The events of a batch, by their ids. -/
def AlertLog.batch (history : AlertLog) (ids : List ℕ) : List AlertRow :=
  ids.filterMap fun id => history.rows.find? fun row => row.id = id

/-- One step of the log.  Ids grow, and an event is open when it is logged. -/
def AlertLog.step (history : AlertLog) : AlertLabel → Option AlertLog
  | .log row =>
    if (∀ old ∈ history.rows, old.id < row.id) ∧ row.clearReason = none then
      some { history with rows := history.rows ++ [row] }
    else none
  | .pass ids =>
    some ⟨autoClearAlertsSync history.rows (history.batch ids),
      (history.batch ids).map AlertRow.id ++ history.processed⟩

abbrev AlertStep := Steps AlertLog.step

namespace AlertLog

/-- The cleared rows are the ones that were resolved in a pass. -/
structure Sound (history : AlertLog) : Prop where
  logged : ∀ id ∈ history.processed, ∃ row ∈ history.rows, row.id = id
  increasing : history.rows.Pairwise fun first second => first.id < second.id
  resolved : ∀ row ∈ history.rows, row.clearReason ≠ none →
    ∃ resolve ∈ history.rows, resolve.Resolves row ∧ row.id < resolve.id
  cleared : ∀ resolve ∈ history.rows, resolve.id ∈ history.processed →
    ∀ row ∈ history.rows, resolve.Resolves row → row.id < resolve.id → row.clearReason ≠ none

section Steps

variable {history : AlertLog}

theorem Sound.empty : empty.Sound where
  logged := by simp [AlertLog.empty]
  increasing := List.Pairwise.nil
  resolved := by simp [AlertLog.empty]
  cleared := by simp [AlertLog.empty]

theorem Sound.unique (hSound : history.Sound) {first second : AlertRow}
    (hFirst : first ∈ history.rows) (hSecond : second ∈ history.rows) (hId : first.id = second.id) :
    first = second := by
  have hNodup : (history.rows.map AlertRow.id).Nodup :=
    List.pairwise_map.mpr (hSound.increasing.imp fun hLess => Nat.ne_of_lt hLess)
  exact List.inj_on_of_nodup_map hNodup hFirst hSecond hId

theorem Sound.log (hSound : history.Sound) (hNewer : ∀ old ∈ history.rows, old.id < row.id)
    (hOpen : row.clearReason = none) :
    Sound { history with rows := history.rows ++ [row] } where
  logged := by
    intro id hMem
    obtain ⟨old, hOld, hId⟩ := hSound.logged id hMem
    exact ⟨old, List.mem_append_left _ hOld, hId⟩
  increasing := by
    refine List.pairwise_append.mpr ⟨hSound.increasing, List.pairwise_singleton _ _, ?_⟩
    intro old hOld new hNew
    rw [List.mem_singleton.mp hNew]
    exact hNewer old hOld
  resolved := by
    intro old hMem hCleared
    cases List.mem_append.mp hMem with
    | inl hOld =>
      obtain ⟨resolve, hResolve, hBoth⟩ := hSound.resolved old hOld hCleared
      exact ⟨resolve, List.mem_append_left _ hResolve, hBoth⟩
    | inr hNew =>
      rw [List.mem_singleton.mp hNew] at hCleared
      exact absurd hOpen hCleared
  cleared := by
    intro resolve hMem hProcessed old hOldMem hResolves hLess
    obtain ⟨seen, hSeen, hId⟩ := hSound.logged resolve.id hProcessed
    have hOld : ∀ other ∈ history.rows ++ [row], other.id ≤ resolve.id → other ∈ history.rows := by
      intro other hOther hLe
      cases List.mem_append.mp hOther with
      | inl hOther => exact hOther
      | inr hNew =>
        have hSmaller := hNewer seen hSeen
        rw [List.mem_singleton.mp hNew] at hLe
        omega
    exact hSound.cleared resolve (hOld resolve hMem (Nat.le_refl _)) hProcessed old
      (hOld old hOldMem (Nat.le_of_lt hLess)) hResolves hLess

theorem mem_batch_ids {ids : List ℕ} (hRow : row ∈ history.rows) (hMem : row.id ∈ ids) :
    row.id ∈ (history.batch ids).map AlertRow.id := by
  obtain ⟨found, hFound⟩ : ∃ found, history.rows.find? (fun other => other.id = row.id) =
      some found :=
    Option.isSome_iff_exists.mp (List.find?_isSome.mpr ⟨row, hRow, decide_eq_true rfl⟩)
  have hId : found.id = row.id := by simpa using List.find?_some hFound
  rw [← hId]
  exact List.mem_map_of_mem (List.mem_filterMap.mpr ⟨row.id, hMem, hFound⟩)

theorem mem_rows_of_mem_batch {ids : List ℕ} {event : AlertRow}
    (hMem : event ∈ history.batch ids) : event ∈ history.rows := by
  obtain ⟨id, -, hFind⟩ := List.mem_filterMap.mp hMem
  exact List.mem_of_find?_eq_some hFind

theorem Sound.pass (hSound : history.Sound) (ids : List ℕ) :
    Sound ⟨autoClearAlertsSync history.rows (history.batch ids),
      (history.batch ids).map AlertRow.id ++ history.processed⟩ := by
  rw [autoClearAlertsSync_eq_map]
  have hSame : ∀ row : AlertRow, (row.passed (history.batch ids)).Same row :=
    fun row => row.same_passed _
  refine ⟨?_, ?_, ?_, ?_⟩
  · intro id hMem
    obtain ⟨row, hRow, hId⟩ : ∃ row ∈ history.rows, row.id = id := by
      cases List.mem_append.mp hMem with
      | inl hBatch =>
        obtain ⟨event, hEvent, hId⟩ := List.mem_map.mp hBatch
        exact ⟨event, mem_rows_of_mem_batch hEvent, hId⟩
      | inr hOld => exact hSound.logged id hOld
    exact ⟨_, List.mem_map_of_mem hRow, (hSame row).1.trans hId⟩
  · refine List.pairwise_map.mpr (hSound.increasing.imp ?_)
    intro first second hLess
    rw [(hSame first).1, (hSame second).1]
    exact hLess
  · intro row hMem hCleared
    obtain ⟨old, hOld, rfl⟩ := List.mem_map.mp hMem
    obtain ⟨resolve, hResolve, hResolves, hLess⟩ :
        ∃ resolve ∈ history.rows, resolve.Resolves old ∧ old.id < resolve.id := by
      by_cases hOpen : old.clearReason = none
      · have hClears : Clears (history.batch ids) old := by
          by_contra hNot
          exact hCleared (AlertRow.passed_open_iff.mpr ⟨hOpen, hNot⟩)
        obtain ⟨event, hEvent, hBoth⟩ := hClears
        exact ⟨event, mem_rows_of_mem_batch hEvent, hBoth⟩
      · exact hSound.resolved old hOld hOpen
    refine ⟨_, List.mem_map_of_mem hResolve, ?_, ?_⟩
    · exact ((hSame old).resolves_iff (hSame resolve)).mpr hResolves
    · rw [(hSame old).1, (hSame resolve).1]
      exact hLess
  · intro resolve hMem hProcessed row hRowMem hResolves hLess hOpen
    obtain ⟨signal, hSignal, rfl⟩ := List.mem_map.mp hMem
    obtain ⟨old, hOld, rfl⟩ := List.mem_map.mp hRowMem
    obtain ⟨hOldOpen, hNot⟩ := AlertRow.passed_open_iff.mp hOpen
    rw [(hSame old).1, (hSame signal).1] at hLess
    have hResolvesOld := ((hSame old).resolves_iff (hSame signal)).mp hResolves
    simp only [(hSame signal).1] at hProcessed
    cases List.mem_append.mp hProcessed with
    | inl hBatch =>
      -- The event of the batch with this id is the signal itself.
      obtain ⟨event, hEvent, hId⟩ := List.mem_map.mp hBatch
      have hEq := hSound.unique (mem_rows_of_mem_batch hEvent) hSignal hId
      exact hNot ⟨event, hEvent, hEq ▸ hResolvesOld, hEq ▸ hLess⟩
    | inr hEarlier =>
      exact hSound.cleared signal hSignal hEarlier old hOld hResolvesOld hLess hOldOpen

theorem Sound.step {label : AlertLabel} {after : AlertLog} (hSound : history.Sound)
    (hStep : AlertStep history label after) : after.Sound := by
  cases label with
  | log row =>
    obtain ⟨⟨hNewer, hOpen⟩, rfl⟩ := of_guard hStep
    exact hSound.log hNewer hOpen
  | pass ids =>
    cases hStep
    exact hSound.pass ids

end Steps

end AlertLog

/-! ## The result -/

/-- Once every event has been in a pass, an alert is open exactly if no later event resolves it. -/
theorem alert_open_iff {labels : List AlertLabel} {history : AlertLog}
    (hRun : Run AlertStep AlertLog.empty labels history)
    (hAll : ∀ row ∈ history.rows, row.id ∈ history.processed) :
    ∀ row ∈ history.rows, row.clearReason = none ↔
      ∀ resolve ∈ history.rows, resolve.Resolves row → ¬row.id < resolve.id := by
  have hSound := hRun.invariant AlertLog.Sound (fun _ _ _ hStart hStep => hStart.step hStep)
    AlertLog.Sound.empty
  intro row hRow
  constructor
  · intro hOpen resolve hResolve hResolves hLess
    exact hSound.cleared resolve hResolve (hAll resolve hResolve) row hRow hResolves hLess hOpen
  · intro hNone
    by_contra hCleared
    obtain ⟨resolve, hResolve, hResolves, hLess⟩ := hSound.resolved row hRow hCleared
    exact hNone resolve hResolve hResolves hLess

/-- Camera 7 goes offline, recovers, and goes offline again. -/
def flappingCamera : List AlertLabel :=
  [.log ⟨1, .camera, some 7, some "camera_offline".toList, none⟩,
    .log ⟨2, .camera, some 7, some "camera_recovered".toList, none⟩,
    .log ⟨3, .camera, some 7, some "camera_offline".toList, none⟩,
    .pass [1, 2], .pass [1, 2], .pass [3]]

theorem alert_open_iff_flapping :
    ∃ history, Run AlertStep AlertLog.empty flappingCamera history ∧
      history.rows.map AlertRow.clearReason = [some .auto, none, none] ∧
      ∀ row ∈ history.rows, row.clearReason = none ↔
        ∀ resolve ∈ history.rows, resolve.Resolves row → ¬row.id < resolve.id := by
  obtain ⟨history, hRun, hReasons, hAll⟩ : ∃ history,
      Run AlertStep AlertLog.empty flappingCamera history ∧
      history.rows.map AlertRow.clearReason = [some .auto, none, none] ∧
      ∀ row ∈ history.rows, row.id ∈ history.processed := Run.exists_of_exec (by decide +kernel)
  exact ⟨history, hRun, hReasons, alert_open_iff hRun hAll⟩

end TimelapseManager.Monitoring
