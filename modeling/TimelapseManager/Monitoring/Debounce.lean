import TimelapseManager.Lib.Dict
import TimelapseManager.Monitoring.Alerts

/-!
# The debounce of notifications

`_dispatch_event` sends an event to its channels one after the other.  Before a send it looks the
key of the event and the channel up in `_last_sent`, and reserves it with the time at which the
dispatch began; a send that is delivered records that time again, any other gives the key back.
The dispatches are tasks of one event loop: what runs between two of their awaits is one step.
-/

namespace TimelapseManager.Monitoring

open KeyedRows Runs

/-- Decides the membership of a channel. -/
local instance lawfulChannels : LawfulBEq Text := inferInstance

/-- `(event_type, scope, scope_id)`. -/
abbrev Subject := Text × Scope × Option ℤ

/-- The debounce key: a subject and a channel. -/
abbrev DebounceKey := Subject × Text

/-- A dispatch that waits for a send: when it began, what it is about, the channel it sends to and
since when, and the channels that come after. -/
structure Sending where
  began : ℚ
  subject : Subject
  channel : Text
  since : ℚ
  rest : List Text

def Sending.key (sending : Sending) : DebounceKey := (sending.subject, sending.channel)

/-- A send that has ended. -/
structure SendRecord where
  key : DebounceKey
  began : ℚ
  since : ℚ
  ended : ℚ
  deriving DecidableEq

/-- A channel that was left out because of the debounce. -/
structure Suppression where
  key : DebounceKey
  began : ℚ
  checked : ℚ
  deriving DecidableEq

/-- The clock, the channels, `_last_sent` and the running dispatches; and for the statements every
check of a key, the suppressed events, and the sends that were delivered or were not. -/
structure DebounceState where
  clock : ℚ
  channels : List Text
  lastSent : Dict DebounceKey ℚ
  dispatches : Dict ℕ Sending
  checks : List (DebounceKey × ℚ)
  suppressed : List Suppression
  delivered : List SendRecord
  failed : List SendRecord

/-- How a send ends.  One that is cancelled takes its dispatch with it. -/
inductive SendOutcome
  | delivered
  | failed
  | cancelled
  deriving DecidableEq

/-- The clock goes on; the channels are reloaded; an event with its routed channels is dispatched;
a send ends, after any number of attempts. -/
inductive DebounceLabel
  | tick (now : ℚ)
  | reload (channels : List Text)
  | dispatch (id : ℕ) (subject : Subject) (targets : List Text)
  | finish (id : ℕ) (outcome : SendOutcome)

/-- `_is_debounced`. -/
def isDebounced (window : ℚ) (lastSent : Dict DebounceKey ℚ) (key : DebounceKey) (now : ℚ) : Bool :=
  match lastSent.get? key with
  | none => false
  | some last => now - last < window

/-- `_prune_debounce`. -/
def pruneDebounce (window : ℚ) (lastSent : Dict DebounceKey ℚ) (now : ℚ) : Dict DebounceKey ℚ :=
  lastSent.keep fun last => !decide (now - last > window * 2)

/-- The key is given back if the reservation is still the one made at that time. -/
def releaseKey (lastSent : Dict DebounceKey ℚ) (key : DebounceKey) (now : ℚ) : Dict DebounceKey ℚ :=
  if lastSent.get? key = some now then lastSent.erase key else lastSent

/-- The loop over the channels of a dispatch, up to its next send or to its end. -/
def DebounceState.sendNext (window : ℚ) (id : ℕ) (began : ℚ) (subject : Subject) :
    DebounceState → List Text → DebounceState
  | state, [] => state
  | state, channel :: rest =>
    if channel ∈ state.channels then
      let key : DebounceKey := (subject, channel)
      let checks := (key, began) :: state.checks
      if isDebounced window state.lastSent key began then
        { state with
          checks := checks
          suppressed := ⟨key, began, state.clock⟩ :: state.suppressed }.sendNext
            window id began subject rest
      else
        { state with
          checks := checks
          lastSent := state.lastSent.set key began
          dispatches := state.dispatches.set id ⟨began, subject, channel, state.clock, rest⟩ }
    else state.sendNext window id began subject rest

/-- A send ends: its time is recorded again, or its key is given back. -/
def DebounceState.endSend (state : DebounceState) (id : ℕ) (sending : Sending)
    (outcome : SendOutcome) : DebounceState :=
  let ended : SendRecord := ⟨sending.key, sending.began, sending.since, state.clock⟩
  let dispatches := state.dispatches.erase id
  match outcome with
  | .delivered =>
    { state with
      lastSent := state.lastSent.set sending.key sending.began
      dispatches := dispatches
      delivered := ended :: state.delivered }
  | _ =>
    { state with
      lastSent := releaseKey state.lastSent sending.key sending.began
      dispatches := dispatches
      failed := ended :: state.failed }

def debounceStep (window : ℚ) (state : DebounceState) : DebounceLabel → Option DebounceState
  | .tick now => if state.clock ≤ now then some { state with clock := now } else none
  | .reload channels => some { state with channels := channels }
  | .dispatch id subject targets =>
    if state.dispatches.get? id ≠ none then none
    else if targets = [] then some state
    else
      let lastSent := pruneDebounce window state.lastSent state.clock
      some ({ state with lastSent := lastSent }.sendNext window id state.clock subject targets)
  | .finish id outcome =>
    (state.dispatches.get? id).map fun sending =>
      let state := state.endSend id sending outcome
      if outcome = .cancelled then state
      else state.sendNext window id sending.began sending.subject sending.rest

abbrev DebounceRuns (window : ℚ) := Steps (debounceStep window)

/-- Nothing has been dispatched yet. -/
def DebounceState.initial (clock : ℚ) (channels : List Text) : DebounceState :=
  ⟨clock, channels, Dict.empty, Dict.empty, [], [], [], []⟩

/-! ## What stands behind a suppressed event -/

/-- The notification that an event was suppressed for: it was delivered less than the window before
the dispatch of the event began or later; or it is being sent; or it was being sent when the event
was suppressed, and was not delivered. -/
def DebounceState.Explains (window : ℚ) (state : DebounceState) (event : Suppression) : Prop :=
  (∃ sent ∈ state.delivered, sent.key = event.key ∧ event.began - window < sent.ended) ∨
  (∃ id sending, state.dispatches.get? id = some sending ∧ sending.key = event.key ∧
    event.began - window < sending.began ∧ sending.since ≤ event.checked) ∨
  (∃ sent ∈ state.failed, sent.key = event.key ∧ event.began - window < sent.began ∧
    sent.since ≤ event.checked ∧ event.checked ≤ sent.ended)

/-- The send that an entry of the table was made by: one that was delivered, or is under way. -/
def DebounceState.Holds (state : DebounceState) (key : DebounceKey) (began : ℚ) : Prop :=
  (∃ sent ∈ state.delivered, sent.key = key ∧ sent.began = began) ∨
  (∃ id sending, state.dispatches.get? id = some sending ∧ sending.key = key ∧
    sending.began = began)

structure DebounceState.Sound (window : ℚ) (state : DebounceState) : Prop where
  entry : ∀ key began, state.lastSent.get? key = some began → state.Holds key began
  delivered : ∀ sent ∈ state.delivered, sent.began ≤ sent.ended
  sending : ∀ id sending, state.dispatches.get? id = some sending →
    sending.began ≤ state.clock ∧ sending.since ≤ state.clock
  checked : ∀ event ∈ state.suppressed, event.checked ≤ state.clock
  explained : ∀ event ∈ state.suppressed, state.Explains window event

section Sound

variable {window : ℚ} {state after : DebounceState} {id : ℕ}

variable {lastSent : Dict DebounceKey ℚ} {now began : ℚ} {outcome : SendOutcome} {sending : Sending}

theorem isDebounced_iff {key : DebounceKey} :
    isDebounced window lastSent key now = true ↔
      ∃ last, lastSent.get? key = some last ∧ now - last < window := by
  unfold isDebounced
  cases lastSent.get? key with
  | none => simp
  | some last => simp

theorem get?_releaseKey {key other : DebounceKey} {last : ℚ} :
    (releaseKey lastSent key now).get? other = some last ↔
      lastSent.get? other = some last ∧ ¬(other = key ∧ last = now) := by
  unfold releaseKey
  by_cases hMine : lastSent.get? key = some now
  · rw [if_pos hMine, Dict.get?_erase]
    by_cases hKey : other = key
    · rw [if_pos hKey, hKey, hMine]
      simp [eq_comm]
    · simp [hKey]
  · rw [if_neg hMine]
    constructor
    · intro hLast
      refine ⟨hLast, ?_⟩
      rintro ⟨rfl, rfl⟩
      exact hMine hLast
    · exact And.left

theorem get?_pruneDebounce {key : DebounceKey} {last : ℚ} :
    (pruneDebounce window lastSent now).get? key = some last ↔
      lastSent.get? key = some last ∧ now - last ≤ window * 2 := by
  unfold pruneDebounce
  rw [Dict.get?_keep, Option.filter_eq_some_iff]
  simp

namespace DebounceState

theorem Explains.mono {event : Suppression} (hExplains : state.Explains window event)
    (hDelivered : ∀ sent ∈ state.delivered, sent ∈ after.delivered)
    (hDispatches : ∀ other sending, state.dispatches.get? other = some sending →
      after.dispatches.get? other = some sending)
    (hFailed : ∀ sent ∈ state.failed, sent ∈ after.failed) : after.Explains window event := by
  rcases hExplains with ⟨sent, hMem, hSent⟩ | ⟨other, sending, hGet, hSending⟩ | ⟨sent, hMem, hSent⟩
  · exact Or.inl ⟨sent, hDelivered sent hMem, hSent⟩
  · exact Or.inr (Or.inl ⟨other, sending, hDispatches other sending hGet, hSending⟩)
  · exact Or.inr (Or.inr ⟨sent, hFailed sent hMem, hSent⟩)

theorem Sound.suppress {key : DebounceKey} (hSound : state.Sound window)
    (hDebounced : isDebounced window state.lastSent key began = true) :
    Sound window { state with
      checks := (key, began) :: state.checks
      suppressed := ⟨key, began, state.clock⟩ :: state.suppressed } := { hSound with
  checked := List.forall_mem_cons.mpr ⟨le_refl _, hSound.checked⟩
  explained := by
    intro event hMem
    cases List.mem_cons.mp hMem with
    | inl hNew =>
      rw [hNew]
      obtain ⟨last, hGet, hRecent⟩ := isDebounced_iff.mp hDebounced
      rcases hSound.entry key last hGet with
        ⟨sent, hMem, hKey, rfl⟩ | ⟨id, sending, hSending, hKey, rfl⟩
      · have hEnded := hSound.delivered sent hMem
        exact Or.inl ⟨sent, hMem, hKey, by dsimp only; linarith⟩
      · have hTimes := hSound.sending id sending hSending
        exact Or.inr (Or.inl ⟨id, sending, hSending, hKey, by dsimp only; linarith, hTimes.2⟩)
    | inr hOld => exact hSound.explained event hOld }

theorem Sound.reserve {subject : Subject} {channel : Text} {rest : List Text}
    (hSound : state.Sound window) (hFree : state.dispatches.get? id = none)
    (hBegan : began ≤ state.clock) :
    Sound window { state with
      checks := ((subject, channel), began) :: state.checks
      lastSent := state.lastSent.set (subject, channel) began
      dispatches := state.dispatches.set id ⟨began, subject, channel, state.clock, rest⟩ } := by
  have hOld : ∀ other sending, state.dispatches.get? other = some sending →
      (state.dispatches.set id ⟨began, subject, channel, state.clock, rest⟩).get? other =
        some sending := by
    intro other sending hGet
    rw [Dict.get?_set_of_ne, hGet]
    rintro rfl
    rw [hFree] at hGet
    cases hGet
  refine ⟨Dict.forall_set (Or.inr ⟨id, _, Dict.get?_set_self, rfl, rfl⟩) ?_, hSound.delivered,
    Dict.forall_set ⟨hBegan, le_refl _⟩ hSound.sending, hSound.checked, ?_⟩
  · intro key last hGet
    rcases hSound.entry key last hGet with hSent | ⟨other, sending, hSending, hBoth⟩
    · exact Or.inl hSent
    · exact Or.inr ⟨other, sending, hOld other sending hSending, hBoth⟩
  · intro event hMem
    exact (hSound.explained event hMem).mono (fun _ hSent => hSent) hOld fun _ hSent => hSent

theorem Sound.sendNext {subject : Subject} (targets : List Text)
    (hSound : state.Sound window) (hFree : state.dispatches.get? id = none)
    (hBegan : began ≤ state.clock) :
    (state.sendNext window id began subject targets).Sound window := by
  induction targets generalizing state with
  | nil => exact hSound
  | cons channel rest ih =>
    unfold sendNext
    dsimp only
    split_ifs with hChannel hDebounced
    · exact ih (hSound.suppress hDebounced) hFree hBegan
    · exact hSound.reserve hFree hBegan
    · exact ih hSound hFree hBegan

@[simp] theorem endSend_clock : (state.endSend id sending outcome).clock = state.clock := by
  cases outcome with
  | _ => rfl

@[simp] theorem endSend_suppressed :
    (state.endSend id sending outcome).suppressed = state.suppressed := by
  cases outcome with
  | _ => rfl

@[simp] theorem endSend_dispatches :
    (state.endSend id sending outcome).dispatches = state.dispatches.erase id := by
  cases outcome with
  | _ => rfl

theorem Sound.explains_endSend {event : Suppression} (outcome : SendOutcome)
    (hSound : state.Sound window) (hGet : state.dispatches.get? id = some sending)
    (hMem : event ∈ state.suppressed) :
    (state.endSend id sending outcome).Explains window event := by
  have hBegan := (hSound.sending id sending hGet).1
  rcases hSound.explained event hMem with
    ⟨sent, hSent, hBoth⟩ | ⟨other, running, hRunning, hKey, hRecent, hSince⟩ | ⟨sent, hSent, hBoth⟩
  · refine Or.inl ⟨sent, ?_, hBoth⟩
    cases outcome with
    | delivered => exact List.mem_cons_of_mem _ hSent
    | failed | cancelled => exact hSent
  · by_cases hId : other = id
    · -- The send itself ends: it is delivered now, or it was not delivered.
      rw [hId, hGet] at hRunning
      cases hRunning
      have hChecked := hSound.checked event hMem
      cases outcome with
      | delivered => exact Or.inl ⟨_, List.mem_cons_self, hKey, lt_of_lt_of_le hRecent hBegan⟩
      | failed | cancelled =>
        exact Or.inr (Or.inr ⟨_, List.mem_cons_self, hKey, hRecent, hSince, hChecked⟩)
    · refine Or.inr (Or.inl ⟨other, running, ?_, hKey, hRecent, hSince⟩)
      rw [endSend_dispatches, Dict.get?_erase_of_ne hId, hRunning]
  · refine Or.inr (Or.inr ⟨sent, ?_, hBoth⟩)
    cases outcome with
    | delivered => exact hSent
    | failed | cancelled => exact List.mem_cons_of_mem _ hSent

theorem Sound.holds_endSend {key : DebounceKey} (hSound : state.Sound window)
    (hGet : state.dispatches.get? id = some sending)
    (hEntry : (state.endSend id sending outcome).lastSent.get? key = some began) :
    (state.endSend id sending outcome).Holds key began := by
  have hOther : ∀ {other running}, state.dispatches.get? other = some running → other ≠ id →
      (state.endSend id sending outcome).dispatches.get? other = some running := by
    intro other running hRunning hId
    rw [endSend_dispatches, Dict.get?_erase_of_ne hId, hRunning]
  -- An entry of another send: one with another key, or one made at another time.
  have hOld : state.lastSent.get? key = some began → ¬(key = sending.key ∧ began = sending.began) →
      (state.endSend id sending outcome).Holds key began := by
    intro hEntry hNot
    rcases hSound.entry key began hEntry with
      ⟨sent, hSent, hBoth⟩ | ⟨other, running, hRunning, hBoth⟩
    · refine Or.inl ⟨sent, ?_, hBoth⟩
      cases outcome with
      | delivered => exact List.mem_cons_of_mem _ hSent
      | failed | cancelled => exact hSent
    · refine Or.inr ⟨other, running, hOther hRunning ?_, hBoth⟩
      rintro rfl
      rw [hGet] at hRunning
      cases hRunning
      exact hNot ⟨hBoth.1.symm, hBoth.2.symm⟩
  cases outcome with
  | delivered =>
    by_cases hMine : key = sending.key ∧ began = sending.began
    · exact Or.inl ⟨_, List.mem_cons_self, hMine.1.symm, hMine.2.symm⟩
    · refine hOld ?_ hMine
      exact ((Dict.of_get?_set hEntry).resolve_left hMine).2
  | failed | cancelled =>
    obtain ⟨hEntry, hNot⟩ := get?_releaseKey.mp hEntry
    exact hOld hEntry hNot

theorem Sound.endSend (outcome : SendOutcome) (hSound : state.Sound window)
    (hGet : state.dispatches.get? id = some sending) :
    (state.endSend id sending outcome).Sound window where
  entry := fun _ _ hEntry => hSound.holds_endSend hGet hEntry
  delivered := by
    have hBegan := (hSound.sending id sending hGet).1
    cases outcome with
    | delivered => exact List.forall_mem_cons.mpr ⟨hBegan, hSound.delivered⟩
    | failed | cancelled => exact hSound.delivered
  sending := by
    intro other running hRunning
    rw [endSend_dispatches] at hRunning
    rw [endSend_clock]
    exact hSound.sending other running (Dict.of_get?_erase hRunning).2
  checked := by
    rw [endSend_clock, endSend_suppressed]
    exact hSound.checked
  explained := by
    intro event hMem
    rw [endSend_suppressed] at hMem
    exact hSound.explains_endSend outcome hGet hMem

theorem Sound.step {label : DebounceLabel} (hSound : state.Sound window)
    (hStep : DebounceRuns window state label after) : after.Sound window := by
  cases label with
  | tick now =>
    obtain ⟨hLe, rfl⟩ := of_guard hStep
    refine ⟨hSound.entry, hSound.delivered, ?_, ?_, hSound.explained⟩
    · intro id sending hGet
      obtain ⟨hBegan, hSince⟩ := hSound.sending id sending hGet
      exact ⟨le_trans hBegan hLe, le_trans hSince hLe⟩
    · intro event hMem
      exact le_trans (hSound.checked event hMem) hLe
  | reload channels =>
    cases hStep
    exact { hSound with }
  | dispatch id subject targets =>
    simp only [DebounceRuns, Steps, debounceStep] at hStep
    split_ifs at hStep with hFree hNone
    · cases hStep
      exact hSound
    · cases hStep
      refine Sound.sendNext targets ?_ (not_not.mp hFree) (le_refl _)
      have hEntry : ∀ key began,
          (pruneDebounce window state.lastSent state.clock).get? key = some began →
            state.Holds key began :=
        fun key began hGet => hSound.entry key began (get?_pruneDebounce.mp hGet).1
      exact { hSound with entry := hEntry }
  | finish id outcome =>
    obtain ⟨sending, hGet, rfl⟩ := Option.map_eq_some_iff.mp hStep
    have hEnded := hSound.endSend outcome hGet
    have hBegan := (hSound.sending id sending hGet).1
    split_ifs
    · exact hEnded
    · exact hEnded.sendNext sending.rest (by simp) (by simpa using hBegan)

end DebounceState

end Sound

end TimelapseManager.Monitoring
