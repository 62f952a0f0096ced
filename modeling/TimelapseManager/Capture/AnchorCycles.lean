import TimelapseManager.Capture.AnchorAttempts
import TimelapseManager.Capture.DueAnchors

/-!
# A runner's cycles and the claims they make

`_evaluate_exact_time_anchors` over a whole sequence of cycles.  Each cycle tries to claim the row
of every due decision; between the claims the outcomes of the attempts reach the fire-log in any
order.  A low-disk skip is an outcome that deletes the row.

`clock_anchor_claimed`: if the cycles are no further apart than the grace, each base date whose
instant falls between the first and the last cycle is decided within grace, and its key is claimed
at least once, and at most once more than its claim was released.
-/

namespace TimelapseManager.Capture

open Function (update_of_ne)

/-! ## Cycles -/

structure ExactRunner where
  projectId : Nat
  anchors : List Anchor
  zone : Zone
  place : Option Place
  solarZone : Option Zone
  activeSince : Option Int

/-- The decisions of a cycle.  An instant before the project was active is not
expected. -/
def ExactRunner.decisions (runner : ExactRunner) (now : Int) : List AnchorDecision :=
  (dueAnchors runner.anchors now runner.zone runner.place exactTimeGrace
    runner.solarZone).filter fun decision =>
      runner.activeSince.all fun floor => decision.instant.all fun instant => floor ≤ instant

def ExactRunner.key (runner : ExactRunner) (decision : AnchorDecision) : FireKey :=
  ⟨runner.projectId, decision.anchor.id, decision.localDate⟩

/-- The fire-log, and what happened to it: the claims made for a capture and the
claims released. -/
structure CycleState where
  log : FireLog
  claims : List FireKey
  releases : List FireKey

/-- `_claim_anchor_attempt` of one decision: the insert, or the reclaim of a
pending retry.  A claim for capture is an insert at the provisional status. -/
def ExactRunner.claimAnchorAttempt (runner : ExactRunner) (now : Int) (state : CycleState)
    (decision : AnchorDecision) : CycleState :=
  let key := runner.key decision
  let (status, detail) := claimStatus decision
  match claimExactTimeFire state.log key status detail with
  | some next =>
    { state with
      log := next
      claims := if status = .failed then key :: state.claims else state.claims }
  | none =>
    if status = .skippedNoGeo then state
    else
      { state with log := (reclaimAnchorRetry state.log key now decision.withinGrace).1 }

/-- A cycle of the runner, or a transaction of an attempt. -/
inductive CycleEvent
  | cycle (now : Int)
  | scheduled (key : FireKey) (attempts : Nat) (nextAttemptAt : Int) (detail : String)
  | finalized (key : FireKey) (attempts : Nat) (detail : Option String)
  | captured (key : FireKey) (frameId : Nat)
  | released (key : FireKey)
  deriving DecidableEq

def ExactRunner.apply (runner : ExactRunner) (state : CycleState) : CycleEvent → CycleState
  | .cycle now => (runner.decisions now).foldl (runner.claimAnchorAttempt now) state
  | .scheduled key attempts nextAttemptAt detail =>
    { state with log := (scheduleAnchorRetry state.log key attempts nextAttemptAt detail).1 }
  | .finalized key attempts detail =>
    { state with log := (finalizeInSession state.log key attempts detail .failed).1 }
  | .captured key frameId =>
    { state with log := recordExactTimeOutcome state.log key .captured (some frameId) none }
  | .released key =>
    { state with
      log := releaseExactTimeFire state.log key
      releases := if (state.log key).isSome then key :: state.releases else state.releases }

/-- When a cycle runs. -/
def CycleEvent.instant? : CycleEvent → Option Int
  | .cycle now => some now
  | _ => none

def cycleInstants (events : List CycleEvent) : List Int := events.filterMap CycleEvent.instant?

variable {events : List CycleEvent} {now : Int} {event : CycleEvent} {decision : AnchorDecision}
  {state : CycleState}

theorem mem_cycleInstants (hMem : CycleEvent.cycle now ∈ events) : now ∈ cycleInstants events :=
  List.mem_filterMap.mpr ⟨_, hMem, rfl⟩

theorem cycleInstants_skip (hEvent : ∀ now, event ≠ .cycle now) (events : List CycleEvent) :
    cycleInstants (event :: events) = cycleInstants events := by
  cases event with
  | cycle now => exact absurd rfl (hEvent now)
  | _ => rfl

/-! ## One key along the events -/

/-- What one event can do to a key: nothing, an insert of its row, or a release
of it.  An insert counts as a claim if it is made for a capture. -/
inductive KeyEffect (key : FireKey) (before after : CycleState) : Prop
  | quiet (hRow : after.log key = none ↔ before.log key = none)
      (hClaims : after.claims.count key = before.claims.count key)
      (hReleases : after.releases.count key = before.releases.count key)
  | inserted (hAbsent : before.log key = none) (hFilled : after.log key ≠ none)
      (hClaims : before.claims.count key ≤ after.claims.count key ∧
        after.claims.count key ≤ before.claims.count key + 1)
      (hReleases : after.releases.count key = before.releases.count key)
  | released (hHeld : before.log key ≠ none)
      (hClaims : after.claims.count key = before.claims.count key)
      (hReleases : after.releases.count key = before.releases.count key + 1)

theorem MovesRow.absent_iff {log next : FireLog} {other : FireKey} {old new : FireStatus}
    (hMoves : MovesRow log next other old new) (key : FireKey) :
    next key = none ↔ log key = none := by
  by_cases hKey : key = other
  · subst hKey
    obtain ⟨⟨before, hBefore, _⟩, after, hAfter, _⟩ := hMoves.self
    simp [hBefore, hAfter]
  · rw [hMoves.other hKey]

theorem KeyEffect.of_row {key : FireKey} {before after : CycleState}
    (hRow : after.log key = none ↔ before.log key = none)
    (hClaims : after.claims.count key = before.claims.count key)
    (hReleases : after.releases.count key = before.releases.count key) :
    KeyEffect key before after ∧ (before.log key = none → after.log key = none) :=
  ⟨.quiet hRow hClaims hReleases, hRow.mpr⟩

section Effects

variable (runner : ExactRunner) (key : FireKey) (state : CycleState)

theorem claimAnchorAttempt_effect (now : Int) (decision : AnchorDecision) :
    KeyEffect key state (runner.claimAnchorAttempt now state decision) ∧
      (key ≠ runner.key decision → state.log key = none →
        (runner.claimAnchorAttempt now state decision).log key = none) := by
  unfold ExactRunner.claimAnchorAttempt
  simp only
  split
  · rename_i next hClaim
    obtain ⟨hAbsent, rfl⟩ := claimExactTimeFire_eq_some hClaim
    by_cases hKey : key = runner.key decision
    · subst hKey
      refine ⟨.inserted hAbsent (by simp) ?_ rfl, fun hNe => absurd rfl hNe⟩
      split
      · simp
      · simp
    · refine And.imp_right (fun hNone _ => hNone) (KeyEffect.of_row ?_ ?_ rfl)
      · exact Eq.congr_left (update_of_ne hKey _ state.log)
      · split
        · exact List.count_cons_of_ne (Ne.symm hKey)
        · rfl
  · split
    · exact ⟨.quiet Iff.rfl rfl rfl, fun _ hNone => hNone⟩
    · refine And.imp_right (fun hNone _ => hNone) (KeyEffect.of_row ?_ rfl rfl)
      rcases reclaimAnchorRetry_moves state.log (runner.key decision) now
        decision.withinGrace with ⟨hSame, _⟩ | hMoves
      · simp only [hSame]
      · exact hMoves.absent_iff _

theorem apply_effect (hEvent : ∀ now, event ≠ .cycle now) :
    KeyEffect key state (runner.apply state event) ∧
      (state.log key = none → (runner.apply state event).log key = none) := by
  cases event with
  | cycle now => exact absurd rfl (hEvent now)
  | scheduled | finalized | captured =>
    exact KeyEffect.of_row (updateWhere_eq_none_iff key) rfl rfl
  | released other =>
    by_cases hKey : key = other
    · subst hKey
      by_cases hRow : state.log key = none
      · refine KeyEffect.of_row ?_ rfl ?_
        · simp [ExactRunner.apply, releaseExactTimeFire, hRow]
        · simp [ExactRunner.apply, hRow]
      · refine ⟨.released hRow rfl ?_, fun hNone => absurd hNone hRow⟩
        simp [ExactRunner.apply, Option.isSome_iff_ne_none.mpr hRow]
    · refine KeyEffect.of_row ?_ rfl ?_
      · simp only [ExactRunner.apply, releaseExactTimeFire]
        rw [update_of_ne hKey none state.log]
      · simp only [ExactRunner.apply]
        split
        · exact List.count_cons_of_ne (Ne.symm hKey)
        · rfl

end Effects

/-! ## Invariants of one key -/

section Invariants

variable {runner : ExactRunner} {key : FireKey} (Inv : CycleState → Prop)
  (hEffect : ∀ before after, KeyEffect key before after → Inv before → Inv after)
include hEffect

theorem foldl_claimAnchorAttempt_invariant (now : Int) (decisions : List AnchorDecision)
    (hState : Inv state) : Inv (decisions.foldl (runner.claimAnchorAttempt now) state) := by
  refine List.foldlRecOn decisions _ hState fun state hState decision _ => ?_
  exact hEffect _ _ (claimAnchorAttempt_effect runner key state now decision).1 hState

theorem foldl_invariant (events : List CycleEvent) (hState : Inv state) :
    Inv (events.foldl runner.apply state) := by
  refine List.foldlRecOn events _ hState fun state hState event _ => ?_
  by_cases hCycle : ∃ now, event = .cycle now
  · obtain ⟨now, rfl⟩ := hCycle
    exact foldl_claimAnchorAttempt_invariant Inv hEffect now (runner.decisions now) hState
  · exact hEffect _ _ (apply_effect runner key state fun now hEq => hCycle ⟨now, hEq⟩).1 hState

end Invariants

/-- Claims against releases: a row that is not there has been given back as often
as it was claimed. -/
structure Balanced (key : FireKey) (state : CycleState) : Prop where
  held : state.claims.count key ≤ state.releases.count key + 1
  free : state.log key = none → state.claims.count key ≤ state.releases.count key

theorem Balanced.effect {key : FireKey} {before after : CycleState}
    (hEffect : KeyEffect key before after) (hBalanced : Balanced key before) :
    Balanced key after := by
  have hHeld := hBalanced.held
  cases hEffect with
  | quiet hRow =>
    constructor
    · omega
    · intro hGone
      have hFree := hBalanced.free (hRow.mp hGone)
      omega
  | inserted hAbsent hFilled =>
    have hFree := hBalanced.free hAbsent
    constructor
    · omega
    · intro hGone
      exact absurd hGone hFilled
  | released =>
    constructor
    · omega
    · intro _
      omega

theorem KeyEffect.claims_le {key : FireKey} {before after : CycleState}
    (hEffect : KeyEffect key before after) : before.claims.count key ≤ after.claims.count key := by
  cases hEffect with
  | quiet _ hClaims => exact hClaims.ge
  | inserted _ _ hClaims => exact hClaims.1
  | released _ hClaims => exact hClaims.ge

/-! ## The crossing cycle -/

/-- Cycles are strictly increasing and no further apart than the grace. -/
def Paced (instants : List Int) : Prop :=
  instants.IsChain fun earlier later => earlier < later ∧ later ≤ earlier + exactTimeGrace

theorem exists_crossing {instant previous last : Int}
    (hPaced : Paced (previous :: cycleInstants events)) (hBefore : previous < instant)
    (hLast : last ∈ cycleInstants events) (hReached : instant ≤ last) :
    ∃ before now after, events = before ++ .cycle now :: after ∧
      (∀ earlier ∈ cycleInstants before, earlier < instant) ∧
      instant ≤ now ∧ now < instant + exactTimeGrace := by
  induction events generalizing previous with
  | nil => cases hLast
  | cons event events ih =>
    by_cases hCycle : ∃ now, event = .cycle now
    · obtain ⟨now, rfl⟩ := hCycle
      obtain ⟨hStep, hRest⟩ := List.isChain_cons_cons.mp hPaced
      by_cases hNow : instant ≤ now
      · exact ⟨[], now, events, rfl, fun _ hNone => absurd hNone List.not_mem_nil, hNow, by omega⟩
      · have hTail := List.mem_of_ne_of_mem (by omega) hLast
        obtain ⟨before, found, after, rfl, hEarlier, hFound⟩ :=
          ih hRest (not_le.mp hNow) hTail
        refine ⟨.cycle now :: before, found, after, rfl, ?_, hFound⟩
        exact List.forall_mem_cons.mpr ⟨not_le.mp hNow, hEarlier⟩
    · have hSkip := cycleInstants_skip fun now hEq => hCycle ⟨now, hEq⟩
      rw [hSkip] at hPaced hLast
      obtain ⟨before, found, after, rfl, hEarlier, hFound⟩ := ih hPaced hBefore hLast
      refine ⟨event :: before, found, after, rfl, ?_, hFound⟩
      rw [hSkip]
      exact hEarlier

/-! ## The claims of a clock anchor -/

section Clock

variable {runner : ExactRunner} {anchor : Anchor} {time : ClockTime} {base : Int}
  (hKind : anchor.kind = .clock time)
  (hIds : ∀ other ∈ runner.anchors, other.id = anchor.id → other = anchor)
include hKind hIds

theorem decision_of_key (hDecision : decision ∈ runner.decisions now)
    (hKey : runner.key decision = ⟨runner.projectId, anchor.id, base⟩) :
    dueAnchor anchor now runner.zone runner.place exactTimeGrace runner.solarZone = some decision ∧
      clockFireInstant anchor time runner.zone base ≤ now := by
  obtain ⟨other, hOther, hDue⟩ := List.mem_filterMap.mp (List.mem_filter.mp hDecision).1
  obtain ⟨hAnchor, hInstant, hGeo⟩ := dueAnchor_sound hDue
  unfold ExactRunner.key at hKey
  simp only [FireKey.mk.injEq, true_and, hAnchor] at hKey
  obtain ⟨hId, hDate⟩ := hKey
  have hSame : other = anchor := hIds other (List.mem_filter.mp hOther).1 hId
  subst hSame
  refine ⟨hDue, ?_⟩
  obtain ⟨instant, _, hFire, hCome, _⟩ :=
    hInstant (hGeo (by simp [hKind, AnchorKind.isSolar]))
  rw [effectiveZone_clock hKind, anchorFireInstant_clock hKind, hDate] at hFire
  cases hFire
  exact hCome

theorem foldl_before (hAbsent : state.log ⟨runner.projectId, anchor.id, base⟩ = none)
    (hEarlier : ∀ now ∈ cycleInstants events, now < clockFireInstant anchor time runner.zone base) :
    (events.foldl runner.apply state).log ⟨runner.projectId, anchor.id, base⟩ = none := by
  let Absent (state : CycleState) : Prop := state.log ⟨runner.projectId, anchor.id, base⟩ = none
  refine List.foldlRecOn (motive := Absent) events _ hAbsent fun state hState event hEvent => ?_
  by_cases hCycle : ∃ now, event = .cycle now
  · obtain ⟨now, rfl⟩ := hCycle
    have hNow := hEarlier now (mem_cycleInstants hEvent)
    refine List.foldlRecOn (motive := Absent) _ _ hState fun state hState decision hDecision => ?_
    refine (claimAnchorAttempt_effect runner _ state now decision).2 (fun hKey => ?_) hState
    have hCome := (decision_of_key hKind hIds hDecision hKey.symm).2
    omega
  · exact (apply_effect runner _ state fun now hEq => hCycle ⟨now, hEq⟩).2 hState

omit hKind hIds in
theorem foldl_claims {key : FireKey} {decisions : List AnchorDecision}
    (hOwn : ∀ other ∈ decisions, runner.key other = key → other = decision)
    (hKey : runner.key decision = key) (hGeo : decision.hasGeo = true)
    (hGrace : decision.withinGrace = true) (hMem : decision ∈ decisions)
    (hAbsent : state.log key = none) :
    1 ≤ (decisions.foldl (runner.claimAnchorAttempt now) state).claims.count key := by
  induction decisions generalizing state with
  | nil => cases hMem
  | cons head decisions ih =>
    by_cases hHead : runner.key head = key
    · -- The first decision with the key claims it; nothing takes the claim back.
      have hSame : head = decision := hOwn head List.mem_cons_self hHead
      subst hSame
      have hClaimed : 1 ≤ (runner.claimAnchorAttempt now state head).claims.count key := by
        have hStatus : claimStatus head = (.failed, none) := by
          simp [claimStatus, hGeo, hGrace]
        simp [ExactRunner.claimAnchorAttempt, hStatus, claimExactTimeFire, hAbsent, hKey]
      exact foldl_claimAnchorAttempt_invariant (fun state => 1 ≤ state.claims.count key)
        (fun before after hEffect hOne => le_trans hOne hEffect.claims_le) now decisions
        hClaimed
    · apply ih
      · exact (List.forall_mem_cons.mp hOwn).2
      · refine List.mem_of_ne_of_mem ?_ hMem
        rintro rfl
        exact hHead hKey
      · exact (claimAnchorAttempt_effect runner key state now head).2 (Ne.symm hHead) hAbsent

end Clock

/-- **Every instant is claimed.**  For cycles no further apart than the grace, a
clock anchor's base date whose instant lies after the first cycle and at or
before the last is decided within grace by some cycle, and its key is claimed for
a capture: at least once, and at most once more than it was released. -/
theorem clock_anchor_claimed (runner : ExactRunner) (anchor : Anchor) (time : ClockTime)
    (hMem : anchor ∈ runner.anchors) (hEnabled : anchor.enabled = true)
    (hKind : anchor.kind = .clock time)
    (hIds : ∀ other ∈ runner.anchors, other.id = anchor.id → other = anchor)
    (hSpaced : SpacedChanges runner.zone) (events : List CycleEvent) (first last : Int)
    (hFirst : (cycleInstants events).head? = some first) (hLast : last ∈ cycleInstants events)
    (hPaced : Paced (cycleInstants events))
    (hActive : ∀ floor, runner.activeSince = some floor → floor ≤ first) (base instant : Int)
    (hInstant : anchorFireInstant anchor base runner.zone runner.place = some instant)
    (hAfter : first < instant) (hReached : instant ≤ last) (log : FireLog)
    (hAbsent : log ⟨runner.projectId, anchor.id, base⟩ = none) :
    (∃ now ∈ cycleInstants events, ∃ decision ∈ dueAnchors runner.anchors now runner.zone
        runner.place exactTimeGrace runner.solarZone,
      decision.anchor = anchor ∧ decision.localDate = base ∧ decision.withinGrace = true) ∧
    1 ≤ (events.foldl runner.apply ⟨log, [], []⟩).claims.count ⟨runner.projectId, anchor.id, base⟩ ∧
    (events.foldl runner.apply ⟨log, [], []⟩).claims.count ⟨runner.projectId, anchor.id, base⟩ ≤
      (events.foldl runner.apply ⟨log, [], []⟩).releases.count
        ⟨runner.projectId, anchor.id, base⟩ + 1 := by
  rw [anchorFireInstant_clock hKind] at hInstant
  cases hInstant
  -- A cycle just before the first one starts the chain.
  have hChain : Paced ((first - 1) :: cycleInstants events) := by
    cases hCycles : cycleInstants events with
    | nil =>
      rw [hCycles] at hFirst
      cases hFirst
    | cons head rest =>
      rw [hCycles] at hFirst hPaced
      cases hFirst
      refine List.isChain_cons_cons.mpr ⟨?_, hPaced⟩
      unfold exactTimeGrace second
      omega
  obtain ⟨before, now, after, rfl, hEarlier, hCome, hGrace⟩ :=
    exists_crossing hChain (by omega) hLast hReached
  have hDue : dueAnchor anchor now runner.zone runner.place exactTimeGrace runner.solarZone =
      some ⟨anchor, base, some (clockFireInstant anchor time runner.zone base), true, true⟩ :=
    dueAnchor_within_grace hKind hSpaced hCome hGrace
  have hReported := mem_dueAnchors hMem hEnabled hDue
  have hExpected : (⟨anchor, base, some (clockFireInstant anchor time runner.zone base), true,
      true⟩ : AnchorDecision) ∈ runner.decisions now := by
    refine List.mem_filter.mpr ⟨hReported, ?_⟩
    rw [Option.all_eq_true]
    intro floor hFloor
    have hLow := hActive floor hFloor
    simp only [Option.all_some, decide_eq_true_eq]
    omega
  refine ⟨⟨now, mem_cycleInstants (by simp), _, hReported, rfl, rfl, rfl⟩, ?_, ?_⟩
  · rw [List.foldl_append, List.foldl_cons]
    apply foldl_invariant (fun state => 1 ≤ state.claims.count ⟨runner.projectId, anchor.id, base⟩)
      (fun _ _ hEffect hOne => le_trans hOne hEffect.claims_le)
    apply foldl_claims _ rfl rfl rfl hExpected (foldl_before hKind hIds hAbsent hEarlier)
    intro other hOther hKey
    have hOwn := (decision_of_key hKind hIds hOther hKey).1
    rw [hDue] at hOwn
    exact (Option.some.inj hOwn).symm
  · have hBalanced : Balanced ⟨runner.projectId, anchor.id, base⟩ ⟨log, [], []⟩ :=
      ⟨by simp, fun _ => by simp⟩
    exact (foldl_invariant _ (fun _ _ => Balanced.effect) _ hBalanced).held

/-! ## A night in spring -/

def nightRunner : ExactRunner :=
  ⟨1, [nightAnchor], springZone, none, none, none⟩

/-- Two cycles around the moment the clock resumes, and the outcome of the
capture. -/
def nightEvents : List CycleEvent :=
  [.cycle (3540 * second), .cycle (3660 * second), .captured ⟨1, "night", 0⟩ 1]

/-- The skipped anchor fires when the clock resumes, and is claimed once. -/
theorem clock_anchor_claimed_in_gap :
    (∃ now ∈ cycleInstants nightEvents, ∃ decision ∈ dueAnchors [nightAnchor] now springZone
        none exactTimeGrace none,
      decision.anchor = nightAnchor ∧ decision.localDate = 0 ∧ decision.withinGrace = true) ∧
    1 ≤ (nightEvents.foldl nightRunner.apply ⟨fun _ => none, [], []⟩).claims.count ⟨1, "night", 0⟩ ∧
    (nightEvents.foldl nightRunner.apply ⟨fun _ => none, [], []⟩).claims.count ⟨1, "night", 0⟩ ≤
      (nightEvents.foldl nightRunner.apply ⟨fun _ => none, [], []⟩).releases.count
        ⟨1, "night", 0⟩ + 1 := by
  have hPaced : Paced (cycleInstants nightEvents) := by
    unfold Paced
    decide +kernel
  have hIds : ∀ other ∈ nightRunner.anchors, other.id = nightAnchor.id → other = nightAnchor := by
    intro other hOther _
    exact List.mem_singleton.mp hOther
  have hInstant : anchorFireInstant nightAnchor 0 springZone none = some (3600 * second) := by
    decide +kernel
  exact clock_anchor_claimed nightRunner nightAnchor (.ofFin 2 30)
    List.mem_cons_self rfl rfl hIds springZone_spaced nightEvents (3540 * second)
    (3660 * second) rfl (by simp [nightEvents, cycleInstants, CycleEvent.instant?]) hPaced
    nofun 0 (3600 * second) hInstant (by decide) (by decide)
    (fun _ => none) rfl

def fullDiskEvents : List CycleEvent :=
  [.cycle (3540 * second), .cycle (3660 * second), .released ⟨1, "night", 0⟩,
    .cycle (3720 * second)]

/-- The claim of the first cycle after the instant is released, and the next
cycle claims the key again. -/
theorem clock_anchor_claimed_twice :
    Paced (cycleInstants fullDiskEvents) ∧
      anchorFireInstant nightAnchor 0 springZone none = some (3600 * second) ∧
      (fullDiskEvents.foldl nightRunner.apply ⟨fun _ => none, [], []⟩).claims.count
        ⟨1, "night", 0⟩ = 2 := by
  unfold Paced
  exact ⟨by decide +kernel, by decide +kernel, by decide +kernel⟩

end TimelapseManager.Capture
