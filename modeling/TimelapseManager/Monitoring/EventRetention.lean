import Mathlib.Data.List.Range

/-!
# Pruning the event log

`prune_events` deletes old events in batches, one transaction each.  A new event gets the highest
id plus one, so an id would come back if the newest row could go; the predicate keeps that row,
every audit record and every alert that is not cleared.
-/

namespace TimelapseManager.Monitoring.EventRetention

inductive Level
  | debug | info | warning | error | critical
  deriving DecidableEq

structure Event where
  id : ℕ
  timestamp : ℤ
  level : Level
  type : Option String
  alertClearedAt : Option ℤ
  deriving DecidableEq

/-- `AUDIT_EVENT_TYPES`. -/
def auditEventTypes : List String := ["security.auth_event", "audit.control_action"]

/-- An audit record, or an alert that is not cleared. -/
def Event.Protected (event : Event) : Prop :=
  (∃ type ∈ event.type, type ∈ auditEventTypes) ∨
    event.level ∈ [.warning, .error, .critical] ∧ event.alertClearedAt = none

def newestId (events : List Event) : ℕ := (events.map Event.id).max?.getD 0

def day : ℤ := 86400000000

/-- `event_prune_predicate`, with the windows in days.  A cutoff that is no `datetime` raises, as
if the batch had no rows. -/
def eventPrunePredicate (infoDays clearedAlertDays : ℕ) (now : ℤ) (events : List Event)
    (event : Event) : Bool :=
  (infoDays > 0 && event.level ∈ [.debug, .info] && event.timestamp < now - infoDays * day ||
      clearedAlertDays > 0 && event.alertClearedAt.any (· < now - clearedAlertDays * day)) &&
    event.type.all (· ∉ auditEventTypes) && event.id < newestId events

/-- The rows in the order of their ids, the ids so far, and the rows that were deleted. -/
structure State where
  events : List Event
  issued : List ℕ
  deleted : List Event

inductive Label
  | insert (timestamp : ℤ) (level : Level) (type : Option String) (cleared : Option ℤ)
  | clear (id : ℕ) (now : ℤ)
  | batch (infoDays clearedAlertDays : ℕ) (now : ℤ) (limit : ℕ)

def step (state : State) : Label → State
  | .insert timestamp level type cleared =>
    let id := newestId state.events + 1
    { state with
      events := state.events ++ [⟨id, timestamp, level, type, cleared⟩]
      issued := id :: state.issued }
  | .clear id now =>
    { state with
      events := state.events.map fun event =>
        if event.id = id then { event with alertClearedAt := some now } else event }
  | .batch infoDays clearedAlertDays now limit =>
    let predicate := eventPrunePredicate infoDays clearedAlertDays now state.events
    let batch := (state.events.filter predicate).take limit
    { state with events := state.events.filter (· ∉ batch), deleted := batch ++ state.deleted }

variable {state : State} {events : List Event} {event : Event}

theorem le_newestId (hMem : event ∈ events) : event.id ≤ newestId events :=
  List.le_max?_getD_of_mem (List.mem_map_of_mem hMem)

theorem exists_newest (hMem : event ∈ events) : ∃ newest ∈ events, newest.id = newestId events := by
  have hSome := List.isSome_max?_of_mem (List.mem_map_of_mem (f := Event.id) hMem)
  obtain ⟨largest, hMax⟩ := Option.isSome_iff_exists.mp hSome
  obtain ⟨newest, hNewest, hId⟩ := List.mem_map.mp (List.max?_mem hMax)
  exact ⟨newest, hNewest, by simp [newestId, hMax, hId]⟩

theorem not_protected {infoDays clearedAlertDays : ℕ} {now : ℤ}
    (hPredicate : eventPrunePredicate infoDays clearedAlertDays now events event = true) :
    ¬event.Protected := by
  simp only [eventPrunePredicate, Bool.and_eq_true, Bool.or_eq_true] at hPredicate
  rintro (⟨type, hType, hAudit⟩ | ⟨hLevel, hOpen⟩)
  · rw [Option.mem_def.mp hType] at hPredicate
    exact of_decide_eq_true hPredicate.1.2 hAudit
  · -- Neither rule selects it: the one by its level, the other as it is open.
    grind

/-- Of every id so far the row or a later one is there. -/
structure Sound (state : State) : Prop where
  nodup : state.issued.Nodup
  later : ∀ id ∈ state.issued, ∃ event ∈ state.events, id ≤ event.id
  kept : ∀ event ∈ state.deleted, ¬event.Protected

theorem Sound.step (hSound : Sound state) (label : Label) : Sound (step state label) := by
  cases label with
  | insert timestamp level type cleared =>
    refine ⟨List.nodup_cons.mpr ⟨fun hMem => ?_, hSound.nodup⟩, ?_, hSound.kept⟩
    · obtain ⟨event, hEvent, hLe⟩ := hSound.later _ hMem
      exact absurd (le_newestId hEvent) (Nat.not_le.mpr hLe)
    · refine List.forall_mem_cons.mpr ⟨⟨_, List.mem_concat_self, Nat.le_refl _⟩, fun id hMem => ?_⟩
      obtain ⟨event, hEvent, hLe⟩ := hSound.later id hMem
      exact ⟨event, List.mem_append_left _ hEvent, hLe⟩
  | clear id now =>
    refine ⟨hSound.nodup, fun other hMem => ?_, hSound.kept⟩
    obtain ⟨event, hEvent, hLe⟩ := hSound.later other hMem
    exact ⟨_, List.mem_map_of_mem hEvent, by split <;> exact hLe⟩
  | batch infoDays clearedAlertDays now limit =>
    refine ⟨hSound.nodup, fun id hMem => ?_,
      List.forall_mem_append.mpr ⟨fun event hGone => ?_, hSound.kept⟩⟩
    · obtain ⟨event, hEvent, hLe⟩ := hSound.later id hMem
      obtain ⟨newest, hNewest, hId⟩ := exists_newest hEvent
      have hLast := le_newestId hEvent
      refine ⟨newest, List.mem_filter.mpr ⟨hNewest, decide_eq_true fun hGone => ?_⟩, by omega⟩
      have hBelow := (List.mem_filter.mp (List.mem_of_mem_take hGone)).2
      simp [eventPrunePredicate, hId] at hBelow
    · exact not_protected (List.mem_filter.mp (List.mem_of_mem_take hGone)).2

/-- Whatever is inserted, cleared and pruned: no id is used twice, and no audit record and no open
alert is deleted. -/
theorem event_ids_used_once (labels : List Label) :
    let state := labels.foldl step ⟨[], [], []⟩
    state.issued.Nodup ∧ ∀ event ∈ state.deleted, ¬event.Protected := by
  have hSound : Sound (labels.foldl step ⟨[], [], []⟩) :=
    List.foldlRecOn labels step ⟨List.nodup_nil, nofun, nofun⟩ fun _ hState label _ =>
      hState.step label
  exact ⟨hSound.nodup, hSound.kept⟩

end TimelapseManager.Monitoring.EventRetention
