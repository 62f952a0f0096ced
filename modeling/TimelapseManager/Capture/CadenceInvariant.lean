import TimelapseManager.Capture.Cadence

/-!
# The cadence keeps its grid

What holds in every reachable state of an interval runner, and of every plan it
makes there.

* `advanceDue_firstAfter`: after an attempt the next slot is the first one of the
  grid strictly after now.
* `planNext_sound`: a capture is ordered only when the gate is open and a slot or
  a retry has been reached; a sleep passes none of the instants it waits for.
* `CadenceInv` is the invariant; `cadence_kept` collects the results.
-/

namespace TimelapseManager.Capture

open Runs Grid

/-! ## Plans -/

/-- What a plan guarantees, given the two instants of the runner. -/
structure PlanSound (decision : PlanDecision) (now : ℚ) (isOpen : Bool) (maxIdle nowMono : ℚ)
    (nextDueMono nextRetryMono nextChange nextWake : Option ℚ) : Prop where
  /-- A capture needs an open gate and a slot or a retry that has been reached. -/
  ordered : decision.action = .capture → isOpen = true ∧
    ((∃ due, nextDueMono = some due ∧ due ≤ nowMono) ∨
      ∃ retry, nextRetryMono = some retry ∧ retry ≤ nowMono)
  nonneg : 0 ≤ decision.sleepSeconds
  idle : decision.sleepSeconds ≤ maxIdle
  due : isOpen = true → ∀ due, nextDueMono = some due →
    nowMono + decision.sleepSeconds ≤ max nowMono due
  retry : isOpen = true → ∀ retry, nextRetryMono = some retry →
    nowMono + decision.sleepSeconds ≤ max nowMono retry
  change : ∀ change, nextChange = some change → now + decision.sleepSeconds ≤ max now change
  wake : ∀ wake, nextWake = some wake → now + decision.sleepSeconds ≤ max now wake

theorem secondsUntil_nonneg {instant : Option ℚ} {now fallback : ℚ} (hFallback : 0 ≤ fallback) :
    0 ≤ secondsUntil instant now fallback := by
  unfold secondsUntil
  split
  · exact hFallback
  · exact le_max_left _ _

theorem add_le_of_le_max {instant now sleep : ℚ} (hSleep : sleep ≤ max 0 (instant - now)) :
    now + sleep ≤ max now instant := by
  rcases le_total instant now with hPast | hFuture
  · rw [max_eq_left (by linarith)] at hSleep
    exact le_trans (by linarith) (le_max_left _ _)
  · rw [max_eq_right (by linarith)] at hSleep
    exact le_trans (by linarith) (le_max_right _ _)

variable {due interval nowMono : ℚ} {config : RunnerConfig} {state : CadenceState}

section Plans

variable {now : ℚ} {isOpen : Bool} {nextChange nextWake : Option ℚ} {maxIdle nowMono : ℚ}

variable {nextRetryMono : Option ℚ}

theorem PlanSound.of_wait {decision : PlanDecision} {nextDueMono : Option ℚ}
    (hAction : decision.action = .wait) (hNonneg : 0 ≤ decision.sleepSeconds)
    (hIdle : decision.sleepSeconds ≤ maxIdle)
    (hChange : decision.sleepSeconds ≤ secondsUntil nextChange now maxIdle)
    (hWake : decision.sleepSeconds ≤ secondsUntil nextWake now maxIdle)
    (hDue : isOpen = true → ∀ due, nextDueMono = some due →
      nowMono + decision.sleepSeconds ≤ max nowMono due)
    (hRetry : isOpen = true → ∀ retry, nextRetryMono = some retry →
      nowMono + decision.sleepSeconds ≤ max nowMono retry) :
    PlanSound decision now isOpen maxIdle nowMono nextDueMono nextRetryMono nextChange
      nextWake where
  ordered := by
    intro hCapture
    rw [hAction] at hCapture
    cases hCapture
  nonneg := hNonneg
  idle := hIdle
  due := hDue
  retry := hRetry
  change := by
    rintro change rfl
    exact add_le_of_le_max hChange
  wake := by
    rintro wake rfl
    exact add_le_of_le_max hWake

theorem planNext_sound (hIdle : 0 < maxIdle)
    (hRetry : ∀ retry, nextRetryMono = some retry → retry ≤ due) :
    PlanSound (planNext now isOpen nextChange (some interval) maxIdle nowMono (some due)
      nextRetryMono nextWake) now isOpen maxIdle nowMono (some due) nextRetryMono nextChange
      nextWake := by
  have hChange : 0 ≤ secondsUntil nextChange now maxIdle := secondsUntil_nonneg hIdle.le
  have hWake : 0 ≤ secondsUntil nextWake now maxIdle := secondsUntil_nonneg hIdle.le
  unfold planNext
  split
  · -- The gate is closed.
    rename_i hClosed
    have hNotOpen : isOpen ≠ true := by
      rcases hClosed with hShut | hNone
      · simp [hShut]
      · cases hNone
    apply PlanSound.of_wait rfl
    · exact le_min (le_min hChange hWake) hIdle.le
    · exact min_le_right _ _
    · exact le_trans (min_le_left _ _) (min_le_left _ _)
    · exact le_trans (min_le_left _ _) (min_le_right _ _)
    · exact fun hOpen => absurd hOpen hNotOpen
    · exact fun hOpen => absurd hOpen hNotOpen
  · rename_i hOpen
    have hIsOpen : isOpen = true := by
      simpa using hOpen
    -- The instant waited for: the retry if there is one, else the slot.
    obtain ⟨target, hTarget, hTargetDue, hTargetRetry, hSource⟩ : ∃ target,
        (nextRetryMono.orElse fun _ => some due) = some target ∧ target ≤ due ∧
          (∀ retry, nextRetryMono = some retry → retry = target) ∧
          (target = due ∨ nextRetryMono = some target) := by
      cases nextRetryMono with
      | none => exact ⟨due, rfl, le_refl due, nofun, Or.inl rfl⟩
      | some retry =>
        refine ⟨retry, rfl, hRetry retry rfl, ?_, Or.inr rfl⟩
        intro other hOther
        cases hOther
        rfl
    rw [hTarget]
    simp only
    split
    · rename_i hReached
      have hPast : target ≤ nowMono := by
        have hLe := le_trans (le_max_right 0 (target - nowMono)) hReached
        linarith
      refine { ordered := fun _ => ⟨hIsOpen, ?_⟩, nonneg := le_refl 0, idle := hIdle.le
               due := by simp, retry := by simp, change := by simp, wake := by simp }
      rcases hSource with hDue | hPending
      · exact Or.inl ⟨due, rfl, hDue ▸ hPast⟩
      · exact Or.inr ⟨target, hPending, hPast⟩
    · have hWithin : min (min (min (max 0 (target - nowMono))
            (secondsUntil nextChange now maxIdle)) (secondsUntil nextWake now maxIdle)) maxIdle ≤
          max 0 (target - nowMono) :=
        le_trans (min_le_left _ _) (le_trans (min_le_left _ _) (min_le_left _ _))
      have hBefore := add_le_of_le_max hWithin
      apply PlanSound.of_wait rfl
      · exact le_min (le_min (le_min (le_max_left _ _) hChange) hWake) hIdle.le
      · exact min_le_right _ _
      · exact le_trans (min_le_left _ _) (le_trans (min_le_left _ _) (min_le_right _ _))
      · exact le_trans (min_le_left _ _) (min_le_right _ _)
      · rintro _ other hOther
        cases hOther
        exact le_trans hBefore (max_le_max (le_refl _) hTargetDue)
      · intro _ retry hPending
        rw [hTargetRetry retry hPending]
        exact hBefore

end Plans

/-! ## The grid -/

theorem advanceDue_firstAfter {origin : ℚ} (hInterval : 0 < interval)
    (hSlot : Slot origin interval due) (hRecent : due - interval ≤ nowMono) :
    FirstAfter origin interval nowMono (advanceDue (some due) interval nowMono) := by
  unfold advanceDue
  simp only [Option.getD_some]
  split
  · rename_i hAhead
    exact FirstAfter.of_recent hInterval hSlot hAhead hRecent
  · rename_i hReached
    exact next_firstAfter hInterval hSlot (not_lt.mp hReached)

theorem le_advanceDue (hInterval : 0 < interval) (due nowMono : ℚ) :
    due ≤ advanceDue (some due) interval nowMono := by
  unfold advanceDue
  simp only [Option.getD_some]
  split
  · exact le_refl due
  · rename_i hReached
    exact le_trans (not_lt.mp hReached) (lt_next hInterval due nowMono).le

/-- The slots that were served by attempts which are not retries. -/
def regularSlots (attempts : List CaptureAttempt) : List (Option ℚ) :=
  (attempts.filter fun attempt => attempt.retry = false).map CaptureAttempt.slot

structure CadenceInv (config : RunnerConfig) (state : CadenceState) (due : ℚ) : Prop where
  isDue : state.nextDueMono = some due
  slot : Slot state.startedMono config.interval due
  /-- The slot is at most one interval ahead. -/
  recent : due - config.interval ≤ state.clock
  retry : ∀ retry, state.nextRetryMono = some retry → retry ≤ due
  /-- Slots that were served have been reached. -/
  reached : ∀ slot ∈ regularSlots state.attempts,
    ∃ served, slot = some served ∧ served ≤ state.clock
  /-- Between attempts the next slot is beyond all of them. -/
  ahead : state.phase = .planning → ∀ served, some served ∈ regularSlots state.attempts →
    served < due
  distinct : (regularSlots state.attempts).Nodup

theorem CadenceInv.launch (config : RunnerConfig) (startedMono : ℚ) :
    CadenceInv config (.launch startedMono) startedMono := by
  have hPos := config.intervalPos
  constructor
  · rfl
  · exact ⟨0, by simp [CadenceState.launch]⟩
  · show startedMono - config.interval ≤ startedMono
    linarith
  · intro retry hRetry
    cases hRetry
  · intro slot hSlot
    cases hSlot
  · intro _ served hServed
    cases hServed
  · exact List.nodup_nil

section Steps

variable {config : RunnerConfig} {state : CadenceState} {due : ℚ}
  (hInv : CadenceInv config state due)
include hInv

theorem CadenceInv.wait (hClock : state.clock ≤ nowMono) :
    CadenceInv config { state with clock := nowMono } due := { hInv with
  recent := le_trans hInv.recent hClock
  reached := by
    intro slot hSlot
    obtain ⟨served, hServed, hLe⟩ := hInv.reached slot hSlot
    exact ⟨served, hServed, le_trans hLe hClock⟩ }

theorem CadenceInv.order (hPhase : state.phase = .planning) (hClock : state.clock ≤ nowMono)
    (hReached : state.nextRetryMono = none → due ≤ nowMono) :
    CadenceInv config
      { state with
        clock := nowMono
        phase := .attempting
        attempts := ⟨state.nextDueMono, state.nextRetryMono.isSome⟩ :: state.attempts }
      due := by
  have hLater := hInv.wait hClock
  have hPending := hInv.retry
  cases hRetry : state.nextRetryMono with rw [hRetry] at hPending
  | some retry => exact { hLater with retry := hPending, ahead := nofun }
  | none =>
    refine { hLater with retry := hPending, reached := ?_, ahead := nofun, distinct := ?_ }
    · exact List.forall_mem_cons.mpr ⟨⟨due, hInv.isDue, hReached hRetry⟩, hLater.reached⟩
    · refine List.nodup_cons.mpr ⟨?_, hInv.distinct⟩
      rw [hInv.isDue]
      exact fun hServed => lt_irrefl due (hInv.ahead hPhase due hServed)

theorem CadenceInv.advance {laterMono : ℚ} {retry : Option ℚ} (hClock : state.clock ≤ nowMono)
    (hLater : nowMono ≤ laterMono) (hRetry : ∀ instant, retry = some instant →
      instant ≤ advanceDue (some due) config.interval nowMono) :
    CadenceInv config
      { state with
        clock := laterMono
        phase := .planning
        nextDueMono := some (advanceDue state.nextDueMono config.interval nowMono)
        nextRetryMono := retry }
      (advanceDue (some due) config.interval nowMono) := by
  have hFirst := advanceDue_firstAfter config.intervalPos hInv.slot (le_trans hInv.recent hClock)
  constructor
  · simp only [hInv.isDue]
  · exact hFirst.slot
  · exact le_trans (hFirst.sub_le config.intervalPos) hLater
  · exact hRetry
  · intro slot hSlot
    obtain ⟨served, hServed, hLe⟩ := hInv.reached slot hSlot
    exact ⟨served, hServed, le_trans hLe (le_trans hClock hLater)⟩
  · intro _ served hServed
    obtain ⟨other, hOther, hLe⟩ := hInv.reached (some served) hServed
    cases hOther
    exact lt_of_le_of_lt (le_trans hLe hClock) hFirst.later
  · exact hInv.distinct

end Steps

theorem CadenceInv.plan (hInv : CadenceInv config state due) (now nowMono : ℚ) (isOpen : Bool)
    (nextChange nextWake : Option ℚ) :
    PlanSound (planNext now isOpen nextChange (some config.interval) config.maxIdle nowMono
        state.nextDueMono state.nextRetryMono nextWake) now isOpen config.maxIdle nowMono
      state.nextDueMono state.nextRetryMono nextChange nextWake := by
  rw [hInv.isDue]
  exact planNext_sound config.maxIdlePos hInv.retry

theorem CadenceInv.step {next : CadenceState} (hInv : CadenceInv config state due)
    {label : CadenceStep} (hStep : Cadences config state label next) :
    ∃ due, CadenceInv config next due := by
  cases label with
  | plan now nowMono isOpen nextChange nextWake =>
    obtain ⟨⟨hPhase, hClock⟩, hNext⟩ := Option.ite_none_right_eq_some.mp hStep
    have hPlan := hInv.plan now nowMono isOpen nextChange nextWake
    split at hNext
    · cases hNext
      exact ⟨due, hInv.wait hClock⟩
    · rename_i hCapture
      cases hNext
      refine ⟨due, hInv.order hPhase hClock ?_⟩
      intro hNoRetry
      -- Without a retry it is the slot that was reached.
      rcases (hPlan.ordered hCapture).2 with ⟨slot, hSlot, hReached⟩ | ⟨retry, hRetry, _⟩
      · rw [hInv.isDue] at hSlot
        cases hSlot
        exact hReached
      · rw [hNoRetry] at hRetry
        cases hRetry
  | recordSuccess =>
    obtain ⟨-, rfl⟩ := of_guard hStep
    exact ⟨due, { hInv with retry := nofun, ahead := nofun }⟩
  | advance nowMono =>
    obtain ⟨hReady, rfl⟩ := of_guard hStep
    refine ⟨_, hInv.advance hReady.2 (le_refl nowMono) ?_⟩
    intro instant hInstant
    exact le_trans (hInv.retry instant hInstant) (le_advanceDue config.intervalPos due nowMono)
  | fail =>
    obtain ⟨hReady, rfl⟩ := of_guard hStep
    refine ⟨_, hInv.advance hReady.2.1 hReady.2.2 ?_⟩
    intro instant hInstant
    cases hInstant
    rw [hInv.isDue]
    exact min_le_right _ _
  | contain =>
    obtain ⟨-, rfl⟩ := of_guard hStep
    exact ⟨due, hInv⟩
  | stop =>
    cases hStep
    exact ⟨due, { hInv with ahead := nofun }⟩

theorem Cadences.startedMono {next : CadenceState} {label : CadenceStep}
    (hStep : Cadences config state label next) : next.startedMono = state.startedMono := by
  cases label with
  | plan =>
    obtain ⟨-, hNext⟩ := Option.ite_none_right_eq_some.mp hStep
    split at hNext
    · cases hNext
      rfl
    · cases hNext
      rfl
  | stop =>
    cases hStep
    rfl
  | recordSuccess | advance | fail | contain =>
    obtain ⟨-, rfl⟩ := of_guard hStep
    rfl

/-- **The cadence of an interval runner.**  In every reachable state the next slot
is on the grid of the launch and a retry does not lie beyond it; no two attempts
that are not retries served the same slot; the end of an attempt sets the first
slot strictly after now; and every plan is sound. -/
theorem cadence_kept (config : RunnerConfig) (startedMono : ℚ) {labels : List CadenceStep}
    {state : CadenceState} (hRun : Run (Cadences config) (.launch startedMono) labels state) :
    (∃ due, state.nextDueMono = some due ∧ Slot startedMono config.interval due ∧
      ∀ retry, state.nextRetryMono = some retry → retry ≤ due) ∧
    (regularSlots state.attempts).Nodup ∧
    (∀ nowMono next, (Cadences config state (.advance nowMono) next ∨
        ∃ failedMono delay, Cadences config state (.fail nowMono failedMono delay) next) →
      ∃ due, next.nextDueMono = some due ∧ FirstAfter startedMono config.interval nowMono due) ∧
    ∀ now nowMono isOpen nextChange nextWake,
      PlanSound (planNext now isOpen nextChange (some config.interval) config.maxIdle nowMono
          state.nextDueMono state.nextRetryMono nextWake) now isOpen config.maxIdle nowMono
        state.nextDueMono state.nextRetryMono nextChange nextWake := by
  obtain ⟨hStarted, due, hInv⟩ :
      state.startedMono = startedMono ∧ ∃ due, CadenceInv config state due := by
    apply hRun.invariant (fun state =>
      state.startedMono = startedMono ∧ ∃ due, CadenceInv config state due)
    · rintro start label stop ⟨hStarted, due, hInv⟩ hStep
      exact ⟨hStep.startedMono.trans hStarted, hInv.step hStep⟩
    · exact ⟨rfl, startedMono, .launch config startedMono⟩
  have hSlot : Slot startedMono config.interval due := hStarted ▸ hInv.slot
  have hFirst : ∀ nowMono, state.clock ≤ nowMono → FirstAfter startedMono config.interval
      nowMono (advanceDue state.nextDueMono config.interval nowMono) := by
    intro nowMono hClock
    rw [hInv.isDue]
    exact advanceDue_firstAfter config.intervalPos hSlot (le_trans hInv.recent hClock)
  refine ⟨⟨due, hInv.isDue, hSlot, hInv.retry⟩, hInv.distinct, ?_, hInv.plan⟩
  rintro nowMono next (hAdvance | ⟨failedMono, delay, hFail⟩)
  · obtain ⟨hReady, rfl⟩ := of_guard hAdvance
    exact ⟨_, rfl, hFirst nowMono hReady.2⟩
  · obtain ⟨hReady, rfl⟩ := of_guard hFail
    exact ⟨_, rfl, hFirst nowMono hReady.2.1⟩

/-! ## A run -/

def minuteConfig : RunnerConfig := ⟨60, 300, by norm_num, by norm_num⟩

/-- The first capture succeeds; the second fails, and is retried after five
seconds. -/
def minuteSteps : List CadenceStep :=
  [.plan 0 0 true none none, .recordSuccess, .advance 2, .plan 30 30 true none none,
    .plan 60 60 true none none, .fail 61 61 5, .plan 66 66 true none none]

/-- Launched at zero, the runner serves the slots 0 and 60 and is in its retry,
with slot 120 ahead. -/
theorem cadence_kept_minute :
    ∃ state, Run (Cadences minuteConfig) (.launch 0) minuteSteps state ∧
      state = ⟨0, some 120, some 66, 66, .attempting,
        [⟨some 120, true⟩, ⟨some 60, false⟩, ⟨some 0, false⟩]⟩ ∧
      (∃ due, state.nextDueMono = some due ∧ Slot 0 minuteConfig.interval due ∧
        ∀ retry, state.nextRetryMono = some retry → retry ≤ due) ∧
      (regularSlots state.attempts).Nodup := by
  have hState : exec (cadenceStep minuteConfig) (.launch 0) minuteSteps =
      some ⟨0, some 120, some 66, 66, .attempting,
        [⟨some 120, true⟩, ⟨some 60, false⟩, ⟨some 0, false⟩]⟩ := by
    decide +kernel
  have hRun : Run (Cadences minuteConfig) (.launch 0) minuteSteps _ := Run.of_steps hState
  have hKept := cadence_kept minuteConfig 0 hRun
  exact ⟨_, hRun, rfl, hKept.1, hKept.2.1⟩

end TimelapseManager.Capture
