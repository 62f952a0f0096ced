import TimelapseManager.Lib.Dict
import TimelapseManager.Lib.Runs

/-!
# Camera health and the events it is written to

`CameraHealthBook` decides, on every capture outcome, whether a camera goes offline or recovers,
and moves its latch at once.  The event of a transition is written later: the writes of a camera
queue on its lock, first in, first out.  If a write fails, or its task is cancelled while it waits,
`rearm` moves the latch back.

* `healthStep` is a decision, a write that is committed or fails, or a cancelled wait.
* `offline_iff_last_written`: the latch of a camera whose writes are done is the one its last event
  says, if no later transition has been decided when `rearm` moves the latch (`Latest`).
-/

namespace TimelapseManager.Capture

open KeyedRows Runs

/-! ## The book -/

inductive TransitionKind
  | offline
  | recovered
  | localFailure
  | eventsUnavailable
  | eventsAvailable
  deriving DecidableEq

inductive FailureKind
  | camera
  | auth
  | localFailure
  | project
  deriving DecidableEq

structure CameraHealth where
  consecutiveFailures : ℕ
  offlineAlerted : Bool
  lastError : Option String
  localStreak : Bool
  projectStreaks : Dict (Option ℕ) ℕ
  listenerStreaks : Dict ℕ ℕ
  eventsAlerted : Bool

structure HealthTransition where
  kind : TransitionKind
  cameraId : ℕ
  consecutiveFailures : ℕ
  error : Option String
  authFailed : Bool
  deriving DecidableEq

namespace CameraHealth

def fresh : CameraHealth := ⟨0, false, none, false, Dict.empty, Dict.empty, false⟩

def recordListenerFailure (threshold cameraId : ℕ) (entry : CameraHealth) (projectId : ℕ)
    (error : String) : CameraHealth × Option HealthTransition :=
  let streak := (entry.listenerStreaks.get? projectId).getD 0 + 1
  let entry := { entry with listenerStreaks := entry.listenerStreaks.set projectId streak }
  if entry.eventsAlerted ∨ streak < threshold then (entry, none)
  else
    ({ entry with eventsAlerted := true },
      some ⟨.eventsUnavailable, cameraId, streak, some error, false⟩)

def recordListenerSuccess (cameraId : ℕ) (entry : CameraHealth) (projectId : ℕ) :
    CameraHealth × Option HealthTransition :=
  let entry := { entry with listenerStreaks := entry.listenerStreaks.erase projectId }
  if !entry.eventsAlerted ∨ entry.listenerStreaks.rows ≠ [] then (entry, none)
  else ({ entry with eventsAlerted := false }, some ⟨.eventsAvailable, cameraId, 0, none, false⟩)

def forgetListener (entry : CameraHealth) (projectId : ℕ) : CameraHealth :=
  { entry with listenerStreaks := entry.listenerStreaks.erase projectId }

def resolveEvents (cameraId : ℕ) (entry : CameraHealth) : CameraHealth × Option HealthTransition :=
  if !entry.eventsAlerted ∨ entry.listenerStreaks.rows ≠ [] then (entry, none)
  else ({ entry with eventsAlerted := false }, some ⟨.eventsAvailable, cameraId, 0, none, false⟩)

def recordSuccess (cameraId : ℕ) (entry : CameraHealth) : CameraHealth × Option HealthTransition :=
  let entry := { entry with
    consecutiveFailures := 0
    projectStreaks := Dict.empty
    lastError := none
    localStreak := false }
  if !entry.offlineAlerted then (entry, none)
  else ({ entry with offlineAlerted := false }, some ⟨.recovered, cameraId, 0, none, false⟩)

def longestStreak (entry : CameraHealth) : ℕ :=
  (entry.projectStreaks.rows.map Prod.snd).foldr max 0

def recordFailure (threshold cameraId : ℕ) (entry : CameraHealth) (error : String)
    (auth localFailure : Bool) (projectId : Option ℕ) : CameraHealth × Option HealthTransition :=
  if localFailure then
    if entry.localStreak then (entry, none)
    else
      ({ entry with localStreak := true },
        some ⟨.localFailure, cameraId, entry.consecutiveFailures, some error, false⟩)
  else
    let streak := (entry.projectStreaks.get? projectId).getD 0 + 1
    let entry := { entry with
      consecutiveFailures := entry.consecutiveFailures + 1
      projectStreaks := entry.projectStreaks.set projectId streak
      lastError := some error }
    if entry.offlineAlerted then (entry, none)
    else if !auth ∧ entry.longestStreak < threshold then (entry, none)
    else
      ({ entry with offlineAlerted := true },
        some ⟨.offline, cameraId, entry.longestStreak, some error, auth⟩)

def rearm (entry : CameraHealth) : TransitionKind → CameraHealth
  | .offline => { entry with offlineAlerted := false }
  | .recovered => { entry with offlineAlerted := true }
  | .eventsUnavailable => { entry with eventsAlerted := false }
  | .eventsAvailable => { entry with eventsAlerted := true }
  | .localFailure => { entry with localStreak := false }

end CameraHealth

/-- What the book is told of: a capture of one of the camera's projects that worked or failed, and
the subscriptions of their event listeners. -/
inductive HealthReport
  | success
  | failure (kind : FailureKind) (error : String) (projectId : Option ℕ)
  | listenerFailure (projectId : ℕ) (error : String)
  | listenerSuccess (projectId : ℕ)
  | forgetListener (projectId : ℕ)
  | resolveEvents

/-- What the supervisor asks the book on a report; a failure that says nothing about the camera is
not recorded. -/
def CameraHealth.report (threshold cameraId : ℕ) (entry : CameraHealth) :
    HealthReport → CameraHealth × Option HealthTransition
  | .success => entry.recordSuccess cameraId
  | .failure .project _ _ => (entry, none)
  | .failure kind error projectId =>
    entry.recordFailure threshold cameraId error (kind = .auth) (kind = .localFailure) projectId
  | .listenerFailure projectId error =>
    entry.recordListenerFailure threshold cameraId projectId error
  | .listenerSuccess projectId => entry.recordListenerSuccess cameraId projectId
  | .forgetListener projectId => (entry.forgetListener projectId, none)
  | .resolveEvents => entry.resolveEvents cameraId

/-! ## Decisions and writes -/

/-- The book, for each camera the transitions that wait for their write in the order of their
decisions, and the events that are written, latest first. -/
structure HealthState where
  book : Dict ℕ CameraHealth
  queues : Dict ℕ (List HealthTransition)
  written : List HealthTransition

namespace HealthState

variable (state : HealthState) (cameraId : ℕ)

def entry : CameraHealth :=
  (state.book.get? cameraId).getD .fresh

def queue : List HealthTransition :=
  (state.queues.get? cameraId).getD []

def isOffline : Bool :=
  (state.entry cameraId).offlineAlerted

/-- The last written event of the camera that says whether it is offline. -/
def lastWritten : Option HealthTransition :=
  state.written.find? fun transition =>
    transition.cameraId = cameraId ∧ transition.kind ∈ [.offline, .recovered]

def rearm (state : HealthState) (transition : HealthTransition) : HealthState :=
  { state with
    book := state.book.set transition.cameraId
      ((state.entry transition.cameraId).rearm transition.kind) }

end HealthState

/-- A report on a camera; the write of the camera's first transition, committed or failed; a task
that is cancelled while its transition waits behind others. -/
inductive HealthLabel
  | report (cameraId : ℕ) (report : HealthReport)
  | write (cameraId : ℕ) (committed : Bool)
  | cancel (cameraId : ℕ) (ahead : ℕ)

def healthStep (threshold : ℕ) (state : HealthState) : HealthLabel → Option HealthState
  | .report cameraId report =>
    let (entry, transition) := (state.entry cameraId).report (max 1 threshold) cameraId report
    some { state with
      book := state.book.set cameraId entry
      queues := state.queues.set cameraId (state.queue cameraId ++ transition.toList) }
  | .write cameraId committed =>
    match state.queue cameraId with
    | [] => none
    | transition :: rest =>
      let state := { state with queues := state.queues.set cameraId rest }
      if committed then some { state with written := transition :: state.written }
      else some (state.rearm transition)
  | .cancel cameraId ahead =>
    -- The first transition has the lock.
    match (state.queue cameraId)[ahead + 1]? with
    | none => none
    | some transition =>
      let rest := (state.queue cameraId).eraseIdx (ahead + 1)
      some ({ state with queues := state.queues.set cameraId rest }.rearm transition)

abbrev HealthRuns (threshold : ℕ) := Steps (healthStep threshold)

/-- What a transition says of the camera: offline or not, or nothing. -/
def HealthTransition.signal (transition : HealthTransition) : Option Bool :=
  match transition.kind with
  | .offline => some true
  | .recovered => some false
  | _ => none

/-- No offline or recovery has been decided after the transition that is to be undone, if that is
one itself. -/
def HealthState.Latest (state : HealthState) : HealthLabel → Prop
  | .write cameraId false =>
    ∀ transition ∈ (state.queue cameraId).head?, transition.signal ≠ none →
      ∀ later ∈ (state.queue cameraId).tail, later.signal = none
  | .cancel cameraId ahead =>
    ∀ transition ∈ (state.queue cameraId)[ahead + 1]?, transition.signal ≠ none →
      ∀ later ∈ (state.queue cameraId).drop (ahead + 2), later.signal = none
  | _ => True

/-! ## A latch that runs ahead of what is stored -/

/-- The values on the way flip what is stored one after the other, and the latch is the last of
them. -/
def Alternates (latch : Bool) : Bool → List Bool → Prop
  | stored, [] => latch = stored
  | stored, next :: rest => next = !stored ∧ Alternates latch next rest

section Alternates

variable {latch stored value : Bool} {pending : List Bool}

theorem Alternates.push (hAlternates : Alternates latch stored pending) :
    Alternates (!latch) stored (pending ++ [!latch]) := by
  induction pending generalizing stored with
  | nil => exact ⟨congrArg not hAlternates, rfl⟩
  | cons next rest ih => exact ⟨hAlternates.1, ih hAlternates.2⟩

theorem Alternates.undo (hAlternates : Alternates latch stored (pending ++ [value])) :
    Alternates (!value) stored pending := by
  induction pending generalizing stored with
  | nil =>
    obtain ⟨hValue, -⟩ := hAlternates
    rw [hValue]
    exact Bool.not_not stored
  | cons next rest ih => exact ⟨hAlternates.1, ih hAlternates.2⟩

end Alternates

/-! ## What a report does to the latch -/

/-- The latch stays and nothing is to be said, or it flips and that is said. -/
def Flips (cameraId : ℕ) (entry : CameraHealth)
    (result : CameraHealth × Option HealthTransition) : Prop :=
  (∀ transition ∈ result.2, transition.cameraId = cameraId) ∧
    ((result.1.offlineAlerted = entry.offlineAlerted ∧
        result.2.toList.filterMap HealthTransition.signal = []) ∨
      (result.1.offlineAlerted = !entry.offlineAlerted ∧
        result.2.toList.filterMap HealthTransition.signal = [!entry.offlineAlerted]))

section Report

variable {threshold cameraId : ℕ} {entry after : CameraHealth} {transition : HealthTransition}

theorem Flips.silent (hLatch : after.offlineAlerted = entry.offlineAlerted) :
    Flips cameraId entry (after, none) :=
  ⟨by simp, Or.inl ⟨hLatch, rfl⟩⟩

theorem Flips.aside (hCamera : transition.cameraId = cameraId)
    (hLatch : after.offlineAlerted = entry.offlineAlerted) (hSignal : transition.signal = none) :
    Flips cameraId entry (after, some transition) :=
  ⟨by simp [hCamera], Or.inl ⟨hLatch, by simp [hSignal]⟩⟩

theorem Flips.flip (hCamera : transition.cameraId = cameraId)
    (hLatch : after.offlineAlerted = !entry.offlineAlerted)
    (hSignal : transition.signal = some (!entry.offlineAlerted)) :
    Flips cameraId entry (after, some transition) :=
  ⟨by simp [hCamera], Or.inr ⟨hLatch, List.filterMap_cons_some hSignal⟩⟩

theorem flips_recordSuccess : Flips cameraId entry (entry.recordSuccess cameraId) := by
  unfold CameraHealth.recordSuccess
  dsimp only
  split
  · exact Flips.silent rfl
  next hLatch =>
    have hLatch : entry.offlineAlerted = true := by simpa using hLatch
    exact Flips.flip rfl (by simp [hLatch]) (by simp [hLatch, HealthTransition.signal])

theorem flips_recordFailure {error : String} {auth localFailure : Bool} {projectId : Option ℕ} :
    Flips cameraId entry
      (entry.recordFailure threshold cameraId error auth localFailure projectId) := by
  unfold CameraHealth.recordFailure
  dsimp only
  split
  · split
    · exact Flips.silent rfl
    · exact Flips.aside rfl rfl rfl
  · split
    · exact Flips.silent rfl
    next hLatch =>
      have hLatch : entry.offlineAlerted = false := by simpa using hLatch
      split
      · exact Flips.silent rfl
      · exact Flips.flip rfl (by simp [hLatch]) (by simp [hLatch, HealthTransition.signal])

theorem flips_resolveEvents : Flips cameraId entry (entry.resolveEvents cameraId) := by
  unfold CameraHealth.resolveEvents
  split
  · exact Flips.silent rfl
  · exact Flips.aside rfl rfl rfl

theorem flips_report (report : HealthReport) :
    Flips cameraId entry (entry.report threshold cameraId report) := by
  cases report with
  | success => exact flips_recordSuccess
  | failure kind =>
    cases kind with
    | project => exact Flips.silent rfl
    | camera | auth | localFailure => exact flips_recordFailure
  | listenerFailure =>
    simp only [CameraHealth.report, CameraHealth.recordListenerFailure]
    split
    · exact Flips.silent rfl
    · exact Flips.aside rfl rfl rfl
  | listenerSuccess projectId =>
    have hResolve : Flips cameraId (entry.forgetListener projectId)
        ((entry.forgetListener projectId).resolveEvents cameraId) := flips_resolveEvents
    exact hResolve
  | forgetListener projectId => exact Flips.silent rfl
  | resolveEvents => exact flips_resolveEvents

end Report

/-! ## The invariant -/

namespace HealthState

def stored (state : HealthState) (cameraId : ℕ) : Bool :=
  (state.lastWritten cameraId).any fun transition => transition.kind = .offline

def signals (state : HealthState) (cameraId : ℕ) : List Bool :=
  (state.queue cameraId).filterMap HealthTransition.signal

structure Agrees (state : HealthState) (cameraId : ℕ) : Prop where
  own : ∀ transition ∈ state.queue cameraId, transition.cameraId = cameraId
  alternates : Alternates (state.isOffline cameraId) (state.stored cameraId)
    (state.signals cameraId)

section Steps

variable {threshold cameraId other : ℕ} {state after : HealthState} {transition : HealthTransition}
  {rest : List HealthTransition}

theorem Agrees.congr (hAgrees : state.Agrees cameraId)
    (hQueue : after.queue cameraId = state.queue cameraId)
    (hOffline : after.isOffline cameraId = state.isOffline cameraId)
    (hStored : after.stored cameraId = state.stored cameraId) : after.Agrees cameraId := by
  refine ⟨by rw [hQueue]; exact hAgrees.own, ?_⟩
  unfold signals
  rw [hQueue, hOffline, hStored]
  exact hAgrees.alternates

theorem Agrees.decide {result : CameraHealth × Option HealthTransition}
    (hAgrees : state.Agrees cameraId) (hFlips : Flips cameraId (state.entry cameraId) result) :
    ({ state with
      book := state.book.set cameraId result.1
      queues := state.queues.set cameraId (state.queue cameraId ++ result.2.toList) } :
      HealthState).Agrees cameraId := by
  obtain ⟨hOwn, hLatch⟩ := hFlips
  constructor
  · simp only [queue, Dict.get?_set_self, Option.getD_some]
    refine List.forall_mem_append.mpr ⟨hAgrees.own, fun transition hNew => ?_⟩
    exact hOwn transition (Option.mem_toList.mp hNew)
  · simp only [signals, queue, isOffline, HealthState.entry,
      Dict.get?_set_self, Option.getD_some, List.filterMap_append]
    have hOld := hAgrees.alternates
    rcases hLatch with ⟨hSame, hNone⟩ | ⟨hFlip, hSome⟩
    · rw [hSame, hNone, List.append_nil]
      exact hOld
    · rw [hFlip, hSome]
      exact hOld.push

theorem stored_written {book : Dict ℕ CameraHealth} {queues : Dict ℕ (List HealthTransition)} :
    (⟨book, queues, transition :: state.written⟩ : HealthState).stored cameraId =
      if transition.cameraId = cameraId then transition.signal.getD (state.stored cameraId)
      else state.stored cameraId := by
  unfold stored lastWritten HealthTransition.signal
  by_cases hCamera : transition.cameraId = cameraId
  · cases hKind : transition.kind with
    | _ => simp [hCamera, hKind]
  · simp [hCamera]

section

variable (hAgrees : state.Agrees cameraId)
include hAgrees

theorem own_of_sublist
    (hRest : rest.Sublist (state.queue cameraId)) (hQueue : after.queue cameraId = rest) :
    ∀ later ∈ after.queue cameraId, later.cameraId = cameraId := by
  intro later hMem
  rw [hQueue] at hMem
  exact hAgrees.own later (hRest.subset hMem)

theorem Agrees.commit (hQueue : state.queue cameraId = transition :: rest) :
    ({ state with
      queues := state.queues.set cameraId rest
      written := transition :: state.written } : HealthState).Agrees cameraId := by
  have hOwn : transition.cameraId = cameraId :=
    hAgrees.own transition (hQueue ▸ List.mem_cons_self)
  have hRest : rest.Sublist (state.queue cameraId) := hQueue ▸ List.sublist_cons_self ..
  refine ⟨own_of_sublist hAgrees hRest (by simp [queue]), ?_⟩
  have hOld := hAgrees.alternates
  unfold signals at hOld ⊢
  rw [hQueue] at hOld
  rw [stored_written, if_pos hOwn]
  simp only [queue, Dict.get?_set_self, Option.getD_some]
  change Alternates (state.isOffline cameraId) _ _
  cases hSignal : transition.signal with
  | none =>
    rw [List.filterMap_cons_none hSignal] at hOld
    exact hOld
  | some value =>
    rw [List.filterMap_cons_some hSignal] at hOld
    exact hOld.2

theorem Agrees.undo {ahead behind : List HealthTransition}
    (hQueue : state.queue cameraId = ahead ++ transition :: behind)
    (hLatest : transition.signal ≠ none → ∀ later ∈ behind, later.signal = none) :
    ({ state with queues := state.queues.set cameraId (ahead ++ behind) } :
      HealthState).rearm transition |>.Agrees cameraId := by
  have hOwn : transition.cameraId = cameraId := by
    apply hAgrees.own
    rw [hQueue]
    simp
  have hRest : (ahead ++ behind).Sublist (state.queue cameraId) :=
    hQueue ▸ (List.sublist_cons_self ..).append_left ahead
  have hAfter : (rearm { state with
      queues := state.queues.set cameraId (ahead ++ behind) } transition).queue cameraId =
        ahead ++ behind := by
    simp [rearm, queue]
  refine ⟨own_of_sublist hAgrees hRest hAfter, ?_⟩
  have hOld := hAgrees.alternates
  unfold signals at hOld ⊢
  rw [hQueue, List.filterMap_append] at hOld
  have hOffline : (rearm { state with
      queues := state.queues.set cameraId (ahead ++ behind) } transition).isOffline cameraId =
        (transition.signal.map not).getD (state.isOffline cameraId) := by
    unfold isOffline rearm HealthState.entry
    rw [hOwn, Dict.get?_set_self, Option.getD_some]
    unfold HealthTransition.signal
    cases transition.kind with
    | _ => rfl
  rw [hOffline, hAfter, List.filterMap_append]
  -- A transition that signals nothing does not count; one that does was the last signal.
  cases hSignal : transition.signal with
  | none =>
    rw [List.filterMap_cons_none hSignal] at hOld
    exact hOld
  | some value =>
    have hBehind : behind.filterMap HealthTransition.signal = [] :=
      List.filterMap_eq_nil_iff.mpr (hLatest (by simp [hSignal]))
    rw [List.filterMap_cons_some hSignal, hBehind] at hOld
    rw [hBehind, List.append_nil]
    exact hOld.undo

theorem Agrees.of_ne {entry : CameraHealth} {written : List HealthTransition}
    (hNe : cameraId ≠ other)
    (hStored : (⟨state.book.set other entry, state.queues.set other rest, written⟩ :
      HealthState).stored cameraId = state.stored cameraId) :
    (⟨state.book.set other entry, state.queues.set other rest, written⟩ :
      HealthState).Agrees cameraId := by
  refine hAgrees.congr ?_ ?_ hStored
  · unfold queue
    rw [Dict.get?_set_of_ne hNe]
  · unfold isOffline HealthState.entry
    rw [Dict.get?_set_of_ne hNe]

end

theorem Agrees.rearm_of_ne (hAgrees : ∀ camera, state.Agrees camera)
    (hNe : cameraId ≠ other) (hMem : transition ∈ state.queue other) :
    ({ state with queues := state.queues.set other rest } : HealthState).rearm transition
      |>.Agrees cameraId := by
  have hOwn := (hAgrees other).own transition hMem
  unfold rearm
  rw [hOwn]
  exact (hAgrees cameraId).of_ne hNe rfl

theorem Agrees.step {label : HealthLabel} (hAgrees : ∀ camera, state.Agrees camera)
    (hStep : Guarded (HealthRuns threshold) Latest state label after) (cameraId : ℕ) :
    after.Agrees cameraId := by
  obtain ⟨hStep, hLatest⟩ := hStep
  cases label with
  | report other report =>
    unfold HealthRuns Steps healthStep at hStep
    cases hStep
    by_cases hCamera : cameraId = other
    · subst hCamera
      exact (hAgrees cameraId).decide (flips_report report)
    · exact (hAgrees cameraId).of_ne hCamera rfl
  | write other committed =>
    simp only [HealthRuns, Steps, healthStep] at hStep
    split at hStep
    · cases hStep
    next transition rest hQueue =>
      have hMem : transition ∈ state.queue other := hQueue ▸ List.mem_cons_self
      -- Only the head of the queue is written, and only its camera's queue changes.
      by_cases hCamera : cameraId = other
      · subst hCamera
        cases committed with cases hStep
        | true => exact (hAgrees cameraId).commit hQueue
        | false =>
          have hSplit : state.queue cameraId = [] ++ transition :: rest := hQueue
          refine (hAgrees cameraId).undo hSplit ?_
          have hFirst := hLatest transition
          rw [hQueue] at hFirst
          exact hFirst rfl
      · cases committed with cases hStep
        | true =>
          have hOwn := (hAgrees other).own transition hMem
          refine (hAgrees cameraId).congr ?_ rfl ?_
          · unfold queue
            rw [Dict.get?_set_of_ne hCamera]
          · rw [stored_written, if_neg (by rw [hOwn]; exact Ne.symm hCamera)]
        | false => exact Agrees.rearm_of_ne hAgrees hCamera hMem
  | cancel other ahead =>
    simp only [HealthRuns, Steps, healthStep] at hStep
    split at hStep
    · cases hStep
    next transition hGet =>
      cases hStep
      have hMem : transition ∈ state.queue other := List.mem_of_getElem? hGet
      by_cases hCamera : cameraId = other
      · subst hCamera
        -- The one being cancelled waits behind the head, so something may stand ahead of it.
        obtain ⟨hLength, hAt⟩ := List.getElem?_eq_some_iff.mp hGet
        have hSplit : state.queue cameraId = (state.queue cameraId).take (ahead + 1) ++
            transition :: (state.queue cameraId).drop (ahead + 2) := by
          rw [← hAt, List.getElem_cons_drop, List.take_append_drop]
        rw [List.eraseIdx_eq_take_drop_succ]
        exact (hAgrees cameraId).undo hSplit (hLatest transition hGet)
      · exact Agrees.rearm_of_ne hAgrees hCamera hMem

end Steps

end HealthState

/-! ## The result -/

/-- A state in which no write is pending and every latch is what the last event says. -/
def HealthState.Settled (state : HealthState) : Prop :=
  ∀ cameraId, state.queue cameraId = [] ∧
    (state.isOffline cameraId = true ↔
      ∃ transition, state.lastWritten cameraId = some transition ∧ transition.kind = .offline)

theorem HealthState.stored_eq_true_iff {state : HealthState} {cameraId : ℕ} :
    state.stored cameraId = true ↔
      ∃ transition, state.lastWritten cameraId = some transition ∧ transition.kind = .offline := by
  unfold stored
  cases state.lastWritten cameraId with
  | none => simp
  | some transition => simp

/-- Once the writes of a camera are done, the book says it is offline exactly if its last written
event does. -/
theorem offline_iff_last_written {threshold : ℕ} {labels : List HealthLabel}
    {start state : HealthState} (hStart : start.Settled)
    (hRun : Run (Guarded (HealthRuns threshold) HealthState.Latest) start labels state)
    {cameraId : ℕ} (hDone : state.queue cameraId = []) :
    state.isOffline cameraId = true ↔
      ∃ transition, state.lastWritten cameraId = some transition ∧ transition.kind = .offline := by
  have hInitial : ∀ camera, start.Agrees camera := by
    intro camera
    obtain ⟨hEmpty, hLatch⟩ := hStart camera
    refine ⟨by simp [hEmpty], ?_⟩
    unfold HealthState.signals
    rw [hEmpty]
    exact Bool.eq_iff_iff.mpr (hLatch.trans HealthState.stored_eq_true_iff.symm)
  have hAgrees := hRun.invariant (fun middle => ∀ camera, middle.Agrees camera)
    (fun _ _ _ hMiddle hStep => HealthState.Agrees.step hMiddle hStep) hInitial
  have hLatch := (hAgrees cameraId).alternates
  unfold HealthState.signals at hLatch
  rw [hDone] at hLatch
  rw [← HealthState.stored_eq_true_iff]
  exact Bool.eq_iff_iff.mp hLatch

instance (state : HealthState) : ∀ label, Decidable (state.Latest label)
  | .write cameraId false => by
      unfold HealthState.Latest
      infer_instance
  | .cancel cameraId ahead => by
      unfold HealthState.Latest
      infer_instance
  | .write _ true | .report .. => isTrue trivial

def HealthState.empty : HealthState := ⟨Dict.empty, Dict.empty, []⟩

theorem HealthState.settled_empty : HealthState.empty.Settled := by
  intro cameraId
  simp [HealthState.empty, queue, isOffline, HealthState.entry, lastWritten, CameraHealth.fresh]

def unreachable : HealthReport := .failure .camera "unreachable" (some 1)

/-- Camera 7 goes offline, recovers, and goes offline again before the first write is done. -/
def flappingReports : List HealthLabel :=
  [.report 7 unreachable, .report 7 .success, .report 7 unreachable]

theorem offline_iff_last_written_flapping :
    ∃ state, Run (Guarded (HealthRuns 1) HealthState.Latest) HealthState.empty
        (flappingReports ++ [.write 7 true, .write 7 true, .write 7 false]) state ∧
      state.queue 7 = [] ∧ state.isOffline 7 = false ∧
      (state.isOffline 7 = true ↔
        ∃ transition, state.lastWritten 7 = some transition ∧ transition.kind = .offline) := by
  refine Run.exists_of_checked (P := fun state => state.queue 7 = [] ∧ state.isOffline 7 = false)
    (by decide +kernel) ?_
  intro state hRun ⟨hDone, hLatch⟩
  exact ⟨hDone, hLatch, offline_iff_last_written HealthState.settled_empty hRun hDone⟩

/-- The first write fails with the two others behind it: `rearm` takes the latch back that the
third decision has set, and the last event says offline. -/
theorem latch_lost_behind_rearm :
    ∃ state, Run (HealthRuns 1) HealthState.empty
        (flappingReports ++ [.write 7 false, .write 7 true, .write 7 true]) state ∧
      state.queue 7 = [] ∧ state.isOffline 7 = false ∧
      ∃ transition, state.lastWritten 7 = some transition ∧ transition.kind = .offline := by
  have hEnd : ∃ state ∈ exec (healthStep 1) HealthState.empty
      (flappingReports ++ [.write 7 false, .write 7 true, .write 7 true]),
      state.queue 7 = [] ∧ state.isOffline 7 = false ∧
        ∃ transition ∈ state.lastWritten 7, transition.kind = .offline := by decide +kernel
  exact Run.exists_of_exec hEnd

end TimelapseManager.Capture
