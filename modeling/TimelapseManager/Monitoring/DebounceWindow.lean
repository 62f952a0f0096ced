import TimelapseManager.Monitoring.Debounce

/-!
# At most one notification in a window

Two sends with one key whose dispatches began less than the window apart are not both delivered, as
long as no send that is delivered writes its time over a later one in the table, and a dispatch that
was held up by another channel comes to the key's channel within the window and before later ones.
A key is then in the table until a later dispatch may have it (`Exclusive.kept`).
-/

namespace TimelapseManager.Monitoring

open KeyedRows Runs

/-- A dispatch that is at a channel of the key late: more than the window after it began, or after
one that began later. -/
def DebounceState.Overtaken (window : ℚ) (key : DebounceKey) (state : DebounceState) (began : ℚ) :
    Prop :=
  began + window < state.clock ∨ ∃ check ∈ state.checks, check.1 = key ∧ began < check.2

/-- A dispatch that has the key's channel still to come and will be at it late. -/
def DebounceState.Behind (window : ℚ) (key : DebounceKey) (state : DebounceState)
    (sending : Sending) : Prop :=
  sending.subject = key.1 ∧ key.2 ∈ sending.rest ∧ state.Overtaken window key sending.began

/-- A send of the key that would write its time over a later one. -/
def DebounceState.Outdated (key : DebounceKey) (state : DebounceState) (sending : Sending) : Prop :=
  sending.key = key ∧ ∃ last ∈ state.lastSent.get? key, sending.began < last

/-- No send of the key that is delivered writes its time over a later one, and no dispatch goes on
to the key's channel late. -/
def DebounceState.Timely (window : ℚ) (key : DebounceKey) (state : DebounceState) :
    DebounceLabel → Prop
  | .finish id outcome =>
    ∀ sending ∈ state.dispatches.get? id,
      (outcome = .delivered → ¬ state.Outdated key sending) ∧
      (outcome ≠ .cancelled → ¬ state.Behind window key sending)
  | _ => True

instance (window : ℚ) (key : DebounceKey) (state : DebounceState) (began : ℚ) :
    Decidable (state.Overtaken window key began) :=
  inferInstanceAs (Decidable (_ ∨ ∃ check ∈ state.checks, _))

instance (window : ℚ) (key : DebounceKey) (state : DebounceState) (sending : Sending) :
    Decidable (state.Behind window key sending) :=
  inferInstanceAs (Decidable (_ ∧ _ ∧ _))

instance (key : DebounceKey) (state : DebounceState) (sending : Sending) :
    Decidable (state.Outdated key sending) :=
  inferInstanceAs (Decidable (_ ∧ ∃ last ∈ state.lastSent.get? key, _))

instance (window : ℚ) (key : DebounceKey) (state : DebounceState) :
    ∀ label, Decidable (state.Timely window key label)
  | .finish id outcome => by
      unfold DebounceState.Timely
      infer_instance
  | .tick _ | .reload _ | .dispatch .. => isTrue trivial

/-! ## The invariant -/

/-- The send of another dispatch, or one that was delivered. -/
def DebounceState.Rival (state : DebounceState) (id : ℕ) (key : DebounceKey) (began : ℚ) : Prop :=
  { state with dispatches := state.dispatches.erase id }.Holds key began

/-- What a run keeps for one key: its sends, under way or delivered, began a window apart. -/
structure DebounceState.Exclusive (window : ℚ) (key : DebounceKey) (state : DebounceState) :
    Prop where
  past : ∀ check ∈ state.checks, check.2 ≤ state.clock
  checked : ∀ began, state.Holds key began → (key, began) ∈ state.checks
  /-- The key is in the table until a later dispatch may have it. -/
  kept : ∀ began, state.Holds key began → state.clock ≤ began + window * 2 →
    (∀ check ∈ state.checks, check.1 = key → check.2 < began + window) →
    state.lastSent.get? key = some began
  rivals : ∀ id sending, state.dispatches.get? id = some sending → sending.key = key →
    ∀ began, state.Rival id key began → window ≤ |sending.began - began|
  apart : state.delivered.Pairwise fun first second =>
    first.key = key → second.key = key → window ≤ |first.began - second.began|

namespace DebounceState

section Exclusive

variable {window : ℚ} {state after : DebounceState} {id : ℕ} {began : ℚ} {key : DebounceKey}
  {sending : Sending} {outcome : SendOutcome}

theorem Rival.holds (hRival : state.Rival id key began) : state.Holds key began := by
  rcases hRival with hSent | ⟨other, sending, hGet, hBoth⟩
  · exact Or.inl hSent
  · exact Or.inr ⟨other, sending, (Dict.of_get?_erase hGet).2, hBoth⟩

theorem Holds.rival (hHolds : state.Holds key began)
    (hGet : state.dispatches.get? id = some sending) :
    sending.began = began ∨ state.Rival id key began := by
  rcases hHolds with hSent | ⟨other, running, hRunning, hBoth⟩
  · exact Or.inr (Or.inl hSent)
  · by_cases hOther : other = id
    · rw [hOther, hGet] at hRunning
      cases hRunning
      exact Or.inl hBoth.2
    · exact Or.inr (Or.inr ⟨other, running, (Dict.get?_erase_of_ne hOther).trans hRunning, hBoth⟩)

theorem holds_of_reserve {checks : List (DebounceKey × ℚ)} {lastSent : Dict DebounceKey ℚ}
    (hHolds : Holds { state with
      checks := checks
      lastSent := lastSent
      dispatches := state.dispatches.set id sending } key began) :
    state.Holds key began ∨ (sending.key = key ∧ sending.began = began) := by
  rcases hHolds with hSent | ⟨other, running, hGet, hBoth⟩
  · exact Or.inl (Or.inl hSent)
  · rcases Dict.of_get?_set hGet with ⟨-, rfl⟩ | ⟨-, hGet⟩
    · exact Or.inr hBoth
    · exact Or.inl (Or.inr ⟨other, running, hGet, hBoth⟩)

theorem Exclusive.suppress {event : Suppression} {other : DebounceKey}
    (hExclusive : state.Exclusive window key) (hBegan : began ≤ state.clock) :
    Exclusive window key { state with
      checks := (other, began) :: state.checks
      suppressed := event :: state.suppressed } := { hExclusive with
  past := List.forall_mem_cons.mpr ⟨hBegan, hExclusive.past⟩
  checked := fun held hHolds => List.mem_cons_of_mem _ (hExclusive.checked held hHolds)
  kept := fun held hHolds hClock hBefore => hExclusive.kept held hHolds hClock
    (List.forall_mem_cons.mp hBefore).2 }

/-- A dispatch that is not late and finds the key free began a window after every send of it. -/
theorem Exclusive.apart_of_free (hExclusive : state.Exclusive window key)
    (hTimely : 0 ≤ window → ¬ state.Overtaken window key began)
    (hFree : ¬ isDebounced window state.lastSent key began = true) {held : ℚ}
    (hHolds : state.Holds key held) : window ≤ |began - held| := by
  by_contra hNear
  have hNear := not_le.mp hNear
  obtain ⟨hInTime, hOrder⟩ := not_or.mp (hTimely ((abs_nonneg _).trans hNear.le))
  have hLast : ∀ check ∈ state.checks, check.1 = key → check.2 ≤ began := by
    intro check hMem hKey
    by_contra hLater
    exact hOrder ⟨check, hMem, hKey, not_le.mp hLater⟩
  obtain ⟨-, hAbove⟩ := abs_lt.mp hNear
  have hEntry := hExclusive.kept held hHolds (by linarith [not_lt.mp hInTime]) (by
    intro check hMem hKey
    linarith [hLast check hMem hKey])
  exact hFree (isDebounced_iff.mpr ⟨held, hEntry, hAbove⟩)

theorem Exclusive.reserve {subject : Subject} {channel : Text} {rest : List Text}
    (hExclusive : state.Exclusive window key) (hBegan : began ≤ state.clock)
    (hTimely : key = (subject, channel) → 0 ≤ window → ¬ state.Overtaken window key began)
    (hFree : ¬isDebounced window state.lastSent (subject, channel) began = true) :
    Exclusive window key { state with
      checks := ((subject, channel), began) :: state.checks
      lastSent := state.lastSent.set (subject, channel) began
      dispatches := state.dispatches.set id ⟨began, subject, channel, state.clock, rest⟩ } := by
  have hApart : (subject, channel) = key → ∀ {held}, state.Holds key held →
      window ≤ |began - held| := by
    intro hKey held hHolds
    rw [hKey] at hFree
    exact hExclusive.apart_of_free (hTimely hKey.symm) hFree hHolds
  refine ⟨List.forall_mem_cons.mpr ⟨hBegan, hExclusive.past⟩, ?_, ?_, ?_, hExclusive.apart⟩
  · intro held hHolds
    rcases holds_of_reserve hHolds with hOld | ⟨rfl, rfl⟩
    · exact List.mem_cons_of_mem _ (hExclusive.checked held hOld)
    · exact List.mem_cons_self
  · intro held hHolds hClock hBefore
    rw [Dict.get?_set]
    rcases holds_of_reserve hHolds with hOld | ⟨rfl, rfl⟩
    · have hEntry := hExclusive.kept held hOld hClock (List.forall_mem_cons.mp hBefore).2
      split_ifs with hKey
      · -- The key would have been debounced.
        have hNear := hBefore _ List.mem_cons_self hKey.symm
        rw [hKey] at hEntry
        exact absurd (isDebounced_iff.mpr ⟨held, hEntry, by dsimp only at hNear; linarith⟩) hFree
      · exact hEntry
    · exact if_pos rfl
  · intro other running hGet hKey held hRival
    rw [Dict.get?_set] at hGet
    split_ifs at hGet with hOther
    · -- The new send and those that were there.
      cases hGet
      refine hApart hKey ?_
      rcases hRival with hSent | ⟨third, sending, hThird, hBoth⟩
      · exact Or.inl hSent
      · obtain ⟨hNe, hThird⟩ := Dict.of_get?_erase hThird
        rw [hOther] at hNe
        rw [Dict.get?_set_of_ne hNe] at hThird
        exact Or.inr ⟨third, sending, hThird, hBoth⟩
    · -- An old send and the new one, or another old one.
      rcases hRival with hSent | ⟨third, sending, hThird, hThirdKey, rfl⟩
      · exact hExclusive.rivals other running hGet hKey held (Or.inl hSent)
      · obtain ⟨hNe, hThird⟩ := Dict.of_get?_erase hThird
        rcases Dict.of_get?_set hThird with ⟨-, rfl⟩ | ⟨-, hThird⟩
        · rw [abs_sub_comm]
          exact hApart hThirdKey (Or.inr ⟨other, running, hGet, hKey, rfl⟩)
        · refine hExclusive.rivals other running hGet hKey _
            (Or.inr ⟨third, sending, ?_, hThirdKey, rfl⟩)
          exact (Dict.get?_erase_of_ne hNe).trans hThird

/-- The loop over the channels, for a dispatch that does not come to the key's channel late. -/
theorem Exclusive.sendNext {subject : Subject} (targets : List Text)
    (hExclusive : state.Exclusive window key) (hBegan : began ≤ state.clock)
    (hTimely : subject = key.1 → key.2 ∈ targets → 0 ≤ window →
      ¬ state.Overtaken window key began) :
    (state.sendNext window id began subject targets).Exclusive window key := by
  induction targets generalizing state with
  | nil => exact hExclusive
  | cons channel rest ih =>
    have hRest : subject = key.1 → key.2 ∈ rest → 0 ≤ window →
        ¬ state.Overtaken window key began :=
      fun hSubject hMem => hTimely hSubject (List.mem_cons_of_mem _ hMem)
    unfold sendNext
    dsimp only
    split_ifs with hChannel hDebounced
    · refine ih (hExclusive.suppress hBegan) hBegan ?_
      rintro hSubject hMem hWindow (hLate | ⟨check, hCheck, hKey, hLater⟩)
      · exact hRest hSubject hMem hWindow (Or.inl hLate)
      · cases List.mem_cons.mp hCheck with
        | inl hNew =>
          rw [hNew] at hLater
          exact lt_irrefl _ hLater
        | inr hOld => exact hRest hSubject hMem hWindow (Or.inr ⟨check, hOld, hKey, hLater⟩)
    · refine hExclusive.reserve hBegan ?_ hDebounced
      rintro rfl
      exact hTimely rfl List.mem_cons_self
    · exact ih hExclusive hBegan hRest

theorem holds_of_endSend {kept left : Dict ℕ Sending} (hGet : kept.get? id = some sending)
    (hLeft : ∀ other running, left.get? other = some running → kept.get? other = some running)
    (hHolds : Holds { state.endSend id sending outcome with dispatches := left } key began) :
    Holds { state with dispatches := kept } key began := by
  rcases hHolds with ⟨sent, hSent, hKey, hBegan⟩ | ⟨other, running, hRunning, hBoth⟩
  · cases outcome with
    | delivered =>
      cases List.mem_cons.mp hSent with
      | inl hNew =>
        rw [hNew] at hKey hBegan
        exact Or.inr ⟨id, sending, hGet, hKey, hBegan⟩
      | inr hOld => exact Or.inl ⟨sent, hOld, hKey, hBegan⟩
    | failed | cancelled => exact Or.inl ⟨sent, hSent, hKey, hBegan⟩
  · exact Or.inr ⟨other, running, hLeft other running hRunning, hBoth⟩

theorem rival_of_endSend {other : ℕ} (hGet : state.dispatches.get? id = some sending)
    (hNe : other ≠ id) (hRival : (state.endSend id sending outcome).Rival other key began) :
    state.Rival other key began := by
  refine holds_of_endSend ?_ ?_ hRival
  · rw [Dict.get?_erase_of_ne hNe.symm, hGet]
  · intro third running hRunning
    obtain ⟨hThird, hRunning⟩ := Dict.of_get?_erase hRunning
    rw [endSend_dispatches] at hRunning
    rw [Dict.get?_erase_of_ne hThird]
    exact (Dict.of_get?_erase hRunning).2

section

variable (hExclusive : state.Exclusive window key)
include hExclusive

theorem Exclusive.deliver (hGet : state.dispatches.get? id = some sending)
    (hNewest : ¬ state.Outdated key sending) :
    (state.endSend id sending .delivered).Exclusive window key := by
  have hOld : ∀ {held}, (state.endSend id sending .delivered).Holds key held →
      state.Holds key held := by
    intro held hHolds
    have hLeft : Holds { state.endSend id sending .delivered with
        dispatches := state.dispatches.erase id } key held := hHolds
    exact holds_of_endSend hGet (fun _ _ hRunning => (Dict.of_get?_erase hRunning).2) hLeft
  refine ⟨hExclusive.past, fun held hHolds => hExclusive.checked held (hOld hHolds), ?_, ?_, ?_⟩
  · intro held hHolds hClock hBefore
    have hEntry := hExclusive.kept held (hOld hHolds) hClock hBefore
    change (state.lastSent.set sending.key sending.began).get? key = some held
    rw [Dict.get?_set]
    split_ifs with hKey
    · -- What is in the table is not later, and no other send began so soon after it.
      have hOwn : state.Holds key sending.began := Or.inr ⟨id, sending, hGet, hKey.symm, rfl⟩
      have hLe : held ≤ sending.began := by
        by_contra hLater
        exact hNewest ⟨hKey.symm, held, hEntry, not_le.mp hLater⟩
      have hNear := hBefore _ (hExclusive.checked _ hOwn) rfl
      rcases (hOld hHolds).rival hGet with rfl | hRival
      · rfl
      · have hApart := hExclusive.rivals id sending hGet hKey.symm held hRival
        rw [abs_of_nonneg (by linarith)] at hApart
        dsimp only at hNear
        linarith
    · exact hEntry
  · intro other running hRunning hKey held hRival
    obtain ⟨hNe, hRunning⟩ := Dict.of_get?_erase hRunning
    exact hExclusive.rivals other running hRunning hKey held (rival_of_endSend hGet hNe hRival)
  · refine List.pairwise_cons.mpr ⟨?_, hExclusive.apart⟩
    intro sent hSent hKey hSentKey
    exact hExclusive.rivals id sending hGet hKey _ (Or.inl ⟨sent, hSent, hSentKey, rfl⟩)

theorem Exclusive.release (hGet : state.dispatches.get? id = some sending)
    (hOutcome : outcome ≠ .delivered) :
    (state.endSend id sending outcome).Exclusive window key := by
  cases outcome with
  | delivered => exact absurd rfl hOutcome
  | failed | cancelled =>
    refine ⟨hExclusive.past, ?_, ?_, ?_, hExclusive.apart⟩
    · intro held hHolds
      have hRival : state.Rival id key held := hHolds
      exact hExclusive.checked held hRival.holds
    · intro held hHolds hClock hBefore
      have hRival : state.Rival id key held := hHolds
      refine get?_releaseKey.mpr ⟨hExclusive.kept held hRival.holds hClock hBefore, ?_⟩
      rintro ⟨rfl, rfl⟩
      -- No two sends of the key began at the same time.
      have hWindow : sending.began < sending.began + window :=
        hBefore _ (hExclusive.checked _ hRival.holds) rfl
      have hApart := hExclusive.rivals id sending hGet rfl _ hRival
      rw [sub_self, abs_zero] at hApart
      linarith
    · intro other running hRunning hKey held hRival
      obtain ⟨hNe, hRunning⟩ := Dict.of_get?_erase hRunning
      exact hExclusive.rivals other running hRunning hKey held (rival_of_endSend hGet hNe hRival)

end

@[simp] theorem endSend_checks :
    (state.endSend id sending outcome).checks = state.checks := by
  cases outcome with
  | _ => rfl

/-- Every step that is timely for the key keeps its sends apart. -/
theorem Exclusive.step {label : DebounceLabel} (hExclusive : state.Exclusive window key)
    (hSound : state.Sound window)
    (hStep : Guarded (DebounceRuns window) (Timely window key) state label after) :
    after.Exclusive window key := by
  obtain ⟨hStep, hTimely⟩ := hStep
  cases label with
  | tick now =>
    obtain ⟨hLe, rfl⟩ := of_guard hStep
    refine ⟨?_, hExclusive.checked, ?_, hExclusive.rivals, hExclusive.apart⟩
    · intro check hMem
      exact le_trans (hExclusive.past check hMem) hLe
    · intro held hHolds hClock hBefore
      exact hExclusive.kept held hHolds (le_trans hLe hClock) hBefore
  | reload channels =>
    cases hStep
    exact { hExclusive with }
  | dispatch id subject targets =>
    simp only [DebounceRuns, Steps, debounceStep] at hStep
    split_ifs at hStep with hFree hNone
    · cases hStep
      exact hExclusive
    · cases hStep
      -- The prune before the first check drops only keys whose window is over.
      refine Exclusive.sendNext targets ?_ (le_refl _) ?_
      · refine { hExclusive with kept := ?_ }
        intro held hHolds hClock hBefore
        refine get?_pruneDebounce.mpr ⟨hExclusive.kept held hHolds hClock hBefore, ?_⟩
        linarith
      · rintro - - hWindow (hLate | ⟨check, hMem, -, hLater⟩)
        · dsimp only at hLate
          linarith
        · exact absurd (hExclusive.past check hMem) (not_le.mpr hLater)
  | finish id outcome =>
    obtain ⟨sending, hGet, rfl⟩ := Option.map_eq_some_iff.mp hStep
    obtain ⟨hNewest, hInTime⟩ := hTimely sending hGet
    have hEnded : (state.endSend id sending outcome).Exclusive window key := by
      by_cases hOutcome : outcome = .delivered
      · rw [hOutcome]
        exact hExclusive.deliver hGet (hNewest hOutcome)
      · exact hExclusive.release hGet hOutcome
    have hBegan := (hSound.sending id sending hGet).1
    -- A cancelled dispatch is over; any other outcome goes on to the next target.
    split_ifs with hCancelled
    · exact hEnded
    · refine hEnded.sendNext sending.rest (by simpa using hBegan) ?_
      intro hSubject hMem _
      unfold Overtaken
      rw [endSend_checks, endSend_clock]
      intro hOvertaken
      exact hInTime hCancelled ⟨hSubject, hMem, hOvertaken⟩

end Exclusive

end DebounceState

/-! ## The result -/

section Result

variable {window clock : ℚ} {channels : List Text} {key : DebounceKey}

theorem DebounceState.Sound.initial : (DebounceState.initial clock channels).Sound window where
  entry := by simp [DebounceState.initial]
  delivered := by simp [DebounceState.initial]
  sending := by simp [DebounceState.initial]
  checked := by simp [DebounceState.initial]
  explained := by simp [DebounceState.initial]

theorem DebounceState.Exclusive.initial :
    (DebounceState.initial clock channels).Exclusive window key where
  past := by simp [DebounceState.initial]
  checked := by simp [DebounceState.initial, DebounceState.Holds]
  kept := by simp [DebounceState.initial, DebounceState.Holds]
  rivals := by simp [DebounceState.initial]
  apart := List.Pairwise.nil

/-- In every run a notification with its key stands behind a suppressed event; and in a run that is
timely for a key, no two notifications with it whose dispatches began less than the window apart
are delivered. -/
theorem debounced_or_apart {labels : List DebounceLabel} {state : DebounceState}
    (hRun : Run (DebounceRuns window) (.initial clock channels) labels state) :
    (∀ event ∈ state.suppressed, state.Explains window event) ∧
      ∀ key, Run (Guarded (DebounceRuns window) (DebounceState.Timely window key))
          (.initial clock channels) labels state →
        state.delivered.Pairwise fun first second =>
          first.key = key → second.key = key → window ≤ |first.began - second.began| := by
  constructor
  · have hSound := hRun.invariant (DebounceState.Sound window)
      (fun _ _ _ hStart hStep => hStart.step hStep) DebounceState.Sound.initial
    exact hSound.explained
  · intro key hTimely
    have hBoth := hTimely.invariant
      (fun middle => middle.Sound window ∧ middle.Exclusive window key)
      (fun _ _ _ hStart hStep => ⟨hStart.1.step hStep.1, hStart.2.step hStart.1 hStep⟩)
      ⟨DebounceState.Sound.initial, DebounceState.Exclusive.initial⟩
    exact hBoth.2.apart

end Result

/-! ## Runs with one channel and a window of a minute -/

/-- Camera 7 is offline. -/
def cameraOffline : Subject := ("camera.offline".toList, .camera, some 7)

def emailOnly : DebounceState := .initial 0 ["email".toList]

def dispatchOffline (id : ℕ) : DebounceLabel := .dispatch id cameraOffline ["email".toList]

/-- A send that lasts longer than the window; an event that is suppressed meanwhile, and one after
the window. -/
def flapping : List DebounceLabel :=
  [dispatchOffline 1, .tick 2, dispatchOffline 2, .tick 70, .finish 1 .delivered,
    dispatchOffline 3, .finish 3 .delivered]

theorem debounced_or_apart_flapping :
    ∃ state, Run (Guarded (DebounceRuns 60)
        (DebounceState.Timely 60 (cameraOffline, "email".toList))) emailOnly flapping state ∧
      state.suppressed.map Suppression.began = [2] ∧
      state.delivered.map SendRecord.began = [70, 0] ∧
      (∀ event ∈ state.suppressed, state.Explains 60 event) ∧
      state.delivered.Pairwise fun first second => first.key = (cameraOffline, "email".toList) →
        second.key = (cameraOffline, "email".toList) → 60 ≤ |first.began - second.began| := by
  refine Run.exists_of_checked (P := fun state => state.suppressed.map Suppression.began = [2] ∧
    state.delivered.map SendRecord.began = [70, 0]) (by decide +kernel) ?_
  intro state hRun ⟨hSuppressed, hDelivered⟩
  obtain ⟨hExplained, hApart⟩ := debounced_or_apart hRun.of_guarded
  exact ⟨hSuppressed, hDelivered, hExplained, hApart _ hRun⟩

/-- The send of the first event ends after that of the second one has, and writes its old time over
that of the second: the third event is sent six seconds after the second.  And an event is
suppressed while another is being sent, and that send fails: nothing is delivered and nothing is on
the way. -/
theorem debounce_broken :
    (∃ state, Run (DebounceRuns 60) emailOnly
        [dispatchOffline 1, .tick 60, dispatchOffline 2, .tick 61, .finish 2 .delivered, .tick 62,
          .finish 1 .delivered, .tick 66, dispatchOffline 3, .finish 3 .delivered] state ∧
      state.delivered.map (fun sent => (sent.key.2, sent.began)) =
        [("email".toList, 66), ("email".toList, 0), ("email".toList, 60)]) ∧
    ∃ state, Run (DebounceRuns 60) emailOnly
        [dispatchOffline 1, .tick 2, dispatchOffline 2, .finish 1 .failed] state ∧
      state.suppressed ≠ [] ∧ state.delivered = [] ∧ state.dispatches.rows.length = 0 :=
  ⟨Run.exists_of_exec (by decide +kernel), Run.exists_of_exec (by decide +kernel)⟩

end TimelapseManager.Monitoring
