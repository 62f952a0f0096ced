import TimelapseManager.Capture.AnchorAttempts

/-!
# What a step of an anchor worker can do

The fire-log row of a key is a permit to write its frame.  A worker *holds* the row between the
claim and the outcome, is a *claimant* while it may still write or will give the row back
unwritten, is a *party* if it holds the row or its frame write is still queued, and *wrote* if its
frame is stored and the row does not say so.

`workerStep_stepsTo` is the inversion lemma of the system: a step lets no role grow and changes
nothing else, or is one of the six changes of the log or the frames listed in `Effect`.
-/

namespace TimelapseManager.Capture

open Function (update)

/-! ## Roles -/

def Worker.Holds (worker : Worker) : Prop :=
  match worker.stage with
  | .gated _ | .capturing _ | .writing _ | .failing _ | .releasing => True
  | _ => False

/-- The worker may still write its frame, or is about to hand its row back
without having written one. -/
def Worker.Claimant (worker : Worker) : Prop :=
  match worker.stage with
  | .gated _ | .capturing _ | .releasing => True
  | _ => worker.hop = .queued

def Worker.Party (worker : Worker) : Prop :=
  worker.Holds ∨ worker.hop = .queued

/-- The frame is written and the row does not say so yet. -/
def Worker.Wrote (worker : Worker) : Prop :=
  match worker.hop with
  | .written _ | .noted _ | .lost => True
  | _ => False

def Worker.Consistent (worker : Worker) : Prop :=
  match worker.stage with
  | .claiming | .reclaiming | .gated _ | .capturing _ | .releasing => worker.hop = .idle
  | _ => True

open Worker (Holds Claimant Party Wrote Consistent)

variable {worker after before : Worker}

theorem Worker.Claimant.party (hClaimant : worker.Claimant) : worker.Party := by
  unfold Claimant at hClaimant
  unfold Party Holds
  split at hClaimant <;> simp_all

theorem Worker.claimant_of_queued (hQueued : worker.hop = .queued) : worker.Claimant := by
  unfold Claimant
  split
  · trivial
  · trivial
  · trivial
  · exact hQueued

theorem Worker.Claimant.queued (hClaimant : worker.Claimant) (hUnheld : ¬ worker.Holds) :
    worker.hop = .queued := by
  unfold Claimant at hClaimant
  unfold Holds at hUnheld
  split at hClaimant <;> simp_all

def Plays (role : Worker → Prop) (key : FireKey) (worker : Option Worker) : Prop :=
  ∃ found, worker = some found ∧ found.key = key ∧ role found

theorem plays_some {role : Worker → Prop} {key : FireKey} :
    Plays role key (some worker) ↔ worker.key = key ∧ role worker := by
  simp [Plays]

theorem Plays.mono {first second : Worker → Prop} {key : FireKey} {worker : Option Worker}
    (hRole : ∀ found, first found → second found) (hPlays : Plays first key worker) :
    Plays second key worker := by
  obtain ⟨found, hFound, hKey, hFirst⟩ := hPlays
  exact ⟨found, hFound, hKey, hRole found hFirst⟩

/-! ## What one step of a worker can do -/

/-- The worker changes and neither the log nor the frames do; no role grows. -/
structure Shrinks (before after : Worker) : Prop where
  holds : after.Holds → before.Holds
  claimant : after.Claimant → before.Claimant
  wrote : after.Wrote ↔ before.Wrote
  queued : after.hop = .queued → before.Party

/-- `_reclaim_anchor_retry` would give the worker the row. -/
def Worker.Takes (worker : Worker) (log : FireLog) : Prop :=
  ∃ attempts, (reclaimAnchorRetry log worker.key worker.now worker.decision.withinGrace).2 =
    .claimed attempts

inductive Effect (log : FireLog) (frames : List (FireKey × Nat)) (worker : Worker) :
    AttemptStep → FireLog → List (FireKey × Nat) → Worker → Prop
  | quiet {label : AttemptStep} {after : Worker} (hShrinks : Shrinks worker after) :
      Effect log frames worker label log frames after
  | inserted {label : AttemptStep} {fire : Fire} {after : Worker}
      (hAbsent : log worker.key = none) (hHop : after.hop = .idle)
      (hStatus : after.Holds → fire.status = .failed) :
      Effect log frames worker label (update log worker.key (some fire)) frames after
  | reclaimed {index : Nat} {next : FireLog} {after : Worker} (hTakes : worker.Takes log)
      (hMoves : MovesRow log next worker.key .retryPending .failed) (hHop : after.hop = .idle) :
      Effect log frames worker (.reclaim index) next frames after
  | finalized {label : AttemptStep} {next : FireLog} {after : Worker}
      (hMoves : MovesRow log next worker.key .retryPending .failed)
      (hShrinks : Shrinks worker after) :
      Effect log frames worker label next frames after
  | written {label : AttemptStep} (hQueued : worker.hop = .queued) (frameId : Nat) :
      Effect log frames worker label log (frames ++ [(worker.key, frameId)])
        { worker with hop := .written frameId }
  | marked {label : AttemptStep} {frameId : Nat} {after : Worker} (hWrote : worker.Wrote)
      (hHop : after.hop = .closed) (hHolds : after.Holds → worker.Holds)
      (hNotClaimant : ¬ after.Claimant) :
      Effect log frames worker label
        (recordExactTimeOutcome log worker.key .captured (some frameId) none) frames after
  | left {label : AttemptStep} {next : FireLog} {after : Worker} (hHolds : worker.Holds)
      (hNotHolds : ¬ after.Holds) (hHop : after.hop = worker.hop)
      (hClaimant : after.Claimant → worker.Claimant)
      (hNext : next = log ∨ ∃ new, MovesRow log next worker.key .failed new) :
      Effect log frames worker label next frames after
  | released {label : AttemptStep} {after : Worker} (hClaimant : worker.Claimant)
      (hNotParty : ¬ after.Party) (hNotWrote : ¬ after.Wrote) :
      Effect log frames worker label (releaseExactTimeFire log worker.key) frames after

theorem Shrinks.of_held (hHolds : before.Holds) (hClaimant : after.Claimant → before.Claimant)
    (hWrote : after.Wrote ↔ before.Wrote) : Shrinks before after :=
  ⟨fun _ => hHolds, hClaimant, hWrote, fun _ => Or.inl hHolds⟩

theorem Shrinks.of_unheld (hUnheld : ¬ after.Holds)
    (hQueued : after.hop = .queued → before.hop = .queued) (hWrote : after.Wrote ↔ before.Wrote) :
    Shrinks before after where
  holds := fun hHolds => absurd hHolds hUnheld
  claimant := fun hClaimant => Worker.claimant_of_queued (hQueued (hClaimant.queued hUnheld))
  wrote := hWrote
  queued := fun hHop => Or.inr (hQueued hHop)

theorem Shrinks.of_same_stage (hStage : after.stage = before.stage)
    (hQueued : after.hop = .queued → before.hop = .queued) (hWrote : after.Wrote ↔ before.Wrote) :
    Shrinks before after where
  holds := by
    unfold Holds
    rw [hStage]
    exact id
  claimant := by
    unfold Claimant
    rw [hStage]
    split
    · exact id
    · exact id
    · exact id
    · exact hQueued
  wrote := hWrote
  queued := fun hHop => Or.inr (hQueued hHop)

structure StepsTo (log : FireLog) (frames : List (FireKey × Nat)) (worker : Worker)
    (label : AttemptStep) (next : FireLog) (nextFrames : List (FireKey × Nat))
    (after : Worker) : Prop where
  effect : Effect log frames worker label next nextFrames after
  key : after.key = worker.key
  consistent : after.Consistent

section Inversion

variable {log : FireLog} {frames : List (FireKey × Nat)} {worker : Worker} {index : Nat}

theorem Shrinks.finish (worker : Worker) : Shrinks worker { worker with stage := .finished } :=
  Shrinks.of_unheld id id Iff.rfl

section

variable (hConsistent : worker.Consistent)
include hConsistent

theorem Worker.Consistent.idle (hStage : worker.stage = .claiming ∨ worker.stage = .reclaiming ∨
      worker.stage = .releasing ∨
      ∃ attempts, worker.stage = .gated attempts ∨ worker.stage = .capturing attempts) :
    worker.hop = .idle := by
  unfold Consistent at hConsistent
  rcases hStage with hStage | hStage | hStage | ⟨attempts, hStage | hStage⟩ <;>
    simpa [hStage] using hConsistent

theorem Worker.Consistent.of_same_stage {other : Worker}
    (hHop : worker.hop ≠ .idle) (hStage : other.stage = worker.stage) : other.Consistent := by
  unfold Consistent at *
  split at hConsistent <;> simp_all

end

variable {label : AttemptStep}

theorem claim_stepsTo (hIdle : worker.hop = .idle) :
    StepsTo log frames worker label (worker.claim log).1 frames (worker.claim log).2 := by
  unfold Worker.claim
  dsimp only
  split
  next claimed hClaim =>
    obtain ⟨hAbsent, rfl⟩ := claimExactTimeFire_eq_some hClaim
    split
    next hStatus =>
      refine ⟨.inserted hAbsent hIdle (fun _ => hStatus), rfl, ?_⟩
      unfold Consistent Worker.resume
      split <;> simp_all
    · exact ⟨.inserted hAbsent hIdle (fun hHolds => hHolds.elim), rfl, trivial⟩
  · split
    · exact ⟨.quiet (Shrinks.finish worker), rfl, trivial⟩
    · exact ⟨.quiet (Shrinks.of_unheld id id Iff.rfl), rfl, hIdle⟩

theorem reclaim_stepsTo (hIdle : worker.hop = .idle) : StepsTo log frames worker (.reclaim index)
    (worker.reclaim log).1 frames (worker.reclaim log).2 := by
  have hMoves := reclaimAnchorRetry_moves log worker.key worker.now worker.decision.withinGrace
  unfold Worker.reclaim
  split
  next taken attempts hClaim =>
    have hTakes : worker.Takes log := ⟨attempts, congrArg Prod.snd hClaim⟩
    rw [hClaim] at hMoves
    rcases hMoves with ⟨_, hNotClaimed⟩ | hMoved
    · exact absurd rfl (hNotClaimed attempts)
    · refine ⟨.reclaimed hTakes hMoved hIdle, rfl, ?_⟩
      unfold Consistent Worker.resume
      split <;> simp_all
  next kept claim _ hClaim =>
    rw [hClaim] at hMoves
    rcases hMoves with ⟨hSame, _⟩ | hMoved
    · have hLog : kept = log := hSame
      rw [hLog]
      exact ⟨.quiet (Shrinks.finish worker), rfl, trivial⟩
    · exact ⟨.finalized hMoved (Shrinks.finish worker), rfl, trivial⟩

theorem Shrinks.of_early {after : Worker}
    (hStage : ∃ attempts, worker.stage = .gated attempts ∨ worker.stage = .capturing attempts)
    (hWrote : after.Wrote ↔ worker.Wrote) : Shrinks worker after := by
  obtain ⟨attempts, hStage | hStage⟩ := hStage
  all_goals exact .of_held (by simp [Holds, hStage]) (by simp [Claimant, hStage]) hWrote

theorem Stage.wake_cases (stage next : Stage) :
    ((∃ attempts, stage = .writing attempts) ∧ stage.wake next = next) ∨
      stage.wake next = stage := by
  unfold Stage.wake
  split
  · rename_i attempts
    exact Or.inl ⟨⟨attempts, rfl⟩, rfl⟩
  · exact Or.inr rfl

section

variable (hConsistent : worker.Consistent) {frameId : Nat} (hNoted : worker.hop = .noted frameId)
include hConsistent hNoted

/-- A waiting coroutine goes on to its audit event, any other one stays. -/
theorem mark_stepsTo : StepsTo log frames worker label
    (recordExactTimeOutcome log worker.key .captured (some frameId) none) frames
    { worker with hop := .closed, stage := worker.stage.wake .auditing } := by
  have hHop : worker.hop ≠ .idle := by simp [hNoted]
  have hWrote : worker.Wrote := by simp [Wrote, hNoted]
  rcases worker.stage.wake_cases .auditing with ⟨_, hWakes⟩ | hStays
  · rw [hWakes]
    exact ⟨.marked hWrote rfl (fun hHolds => hHolds.elim) (by simp [Claimant]), rfl, trivial⟩
  · rw [hStays]
    refine ⟨.marked hWrote rfl (fun hHolds => hHolds) (fun hClaimant => ?_), rfl,
      hConsistent.of_same_stage hHop rfl⟩
    unfold Consistent at hConsistent
    unfold Claimant at hClaimant
    split at hClaimant <;> simp_all

theorem markFails_stepsTo : StepsTo log frames worker label log frames
    { worker with hop := .lost, stage := worker.stage.wake .finished } := by
  have hHop : worker.hop ≠ .idle := by simp [hNoted]
  rcases worker.stage.wake_cases .finished with ⟨_, hWakes⟩ | hStays
  · rw [hWakes]
    exact ⟨.quiet (Shrinks.of_unheld id (by simp) (by simp [Wrote, hNoted])), rfl, trivial⟩
  · rw [hStays]
    exact ⟨.quiet (Shrinks.of_same_stage rfl (by simp) (by simp [Wrote, hNoted])), rfl,
      hConsistent.of_same_stage hHop rfl⟩

end

theorem WriteHop.leave_cases (hop : WriteHop) (dropped : Bool) :
    hop.leave dropped = hop ∨ (hop = .queued ∧ hop.leave dropped = .closed) := by
  unfold WriteHop.leave
  split
  · exact Or.inr ⟨rfl, rfl⟩
  · exact Or.inl rfl

variable {dropped : Bool}

theorem Shrinks.leave {stage : Stage} (hHolds : worker.Holds)
    (hStage : ({ worker with stage := stage } : Worker).Claimant → worker.hop = .queued) :
    Shrinks worker { worker with stage := stage, hop := worker.hop.leave dropped } := by
  rcases worker.hop.leave_cases dropped with hSame | ⟨hQueued, hClosed⟩
  · rw [hSame]
    exact .of_held hHolds (fun hClaimant => Worker.claimant_of_queued (hStage hClaimant)) Iff.rfl
  · rw [hClosed]
    exact .of_held hHolds (fun _ => Worker.claimant_of_queued hQueued)
      (by simp [Wrote, hQueued])

theorem workerStep_stepsTo {next : FireLog} {nextFrames : List (FireKey × Nat)} {after : Worker}
    (hConsistent : worker.Consistent)
    (hStep : workerStep log frames worker label = some (next, nextFrames, after)) :
    StepsTo log frames worker label next nextFrames after := by
  have hFinish : StepsTo log frames worker label log frames { worker with stage := .finished } :=
    ⟨.quiet (Shrinks.finish worker), rfl, trivial⟩
  have hStays : StepsTo log frames worker label log frames { worker with cancelled := true } :=
    ⟨.quiet (Shrinks.of_same_stage rfl id Iff.rfl), rfl, hConsistent⟩
  unfold workerStep at hStep
  split at hStep
  case h_1 hStage =>
    cases hStep
    exact claim_stepsTo (hConsistent.idle (Or.inl hStage))
  case h_2 hStage =>
    cases hStep
    exact reclaim_stepsTo (hConsistent.idle (Or.inr (Or.inl hStage)))
  case h_3 hStage =>
    cases hStep
    have hIdle : worker.hop = .idle := hConsistent.idle (by simp [hStage])
    refine ⟨.quiet (Shrinks.of_early (by simp [hStage]) Iff.rfl), rfl, ?_⟩
    unfold Consistent
    split <;> simp_all
  case h_4 hStage =>
    cases hStep
    have hIdle : worker.hop = .idle := hConsistent.idle (by simp [hStage])
    exact ⟨.quiet (Shrinks.of_early (by simp [hStage]) (by simp [Wrote, hIdle])), rfl, trivial⟩
  case h_5 hStage | h_6 hStage | h_14 hStage | h_15 hStage =>
    cases hStep
    exact ⟨.quiet (Shrinks.of_early (by simp [hStage]) Iff.rfl), rfl, trivial⟩
  case h_7 hQueued =>
    cases hStep
    exact ⟨.written hQueued _, rfl, hConsistent.of_same_stage (by simp [hQueued]) rfl⟩
  case h_8 hStage hQueued =>
    cases hStep
    refine ⟨.quiet (Shrinks.of_held (by simp [Holds, hStage]) (fun _ => ?_)
      (by simp [Wrote, hQueued])), rfl, trivial⟩
    exact Worker.claimant_of_queued hQueued
  case h_9 hQueued _ =>
    cases hStep
    exact ⟨.quiet (Shrinks.of_same_stage rfl (fun _ => hQueued)
      (by simp [Wrote, hQueued])), rfl, hConsistent.of_same_stage (by simp [hQueued]) rfl⟩
  case h_10 hWritten =>
    cases hStep
    exact ⟨.quiet (Shrinks.of_same_stage rfl (by simp) (by simp [Wrote, hWritten])),
      rfl, hConsistent.of_same_stage (by simp [hWritten]) rfl⟩
  case h_11 hNoted =>
    cases hStep
    exact mark_stepsTo hConsistent hNoted
  case h_12 hNoted =>
    cases hStep
    exact markFails_stepsTo hConsistent hNoted
  case h_13 | h_16 | h_17 | h_21 | h_22 | h_23 =>
    cases hStep
    exact hFinish
  case h_18 hStage _ =>
    cases hStep
    exact ⟨.quiet (Shrinks.leave (by simp [Holds, hStage]) id), rfl, trivial⟩
  case h_19 hStage =>
    cases hStep
    refine ⟨.left (by simp [Holds, hStage]) id rfl
      (fun hClaimant => Worker.claimant_of_queued hClaimant) ?_, rfl, trivial⟩
    unfold handleAnchorFailure scheduleAnchorRetry finalizeInSession
    split <;> exact updateWhere_moves fun _ hFits => hFits.1
  case h_20 hStage =>
    cases hStep
    have hIdle : worker.hop = .idle := hConsistent.idle (Or.inr (Or.inr (Or.inl hStage)))
    exact ⟨.released (by simp [Claimant, hStage])
      (by simp [Party, Holds, hIdle]) (by simp [Wrote, hIdle]), rfl, trivial⟩
  case h_24 hStage =>
    cases hStep
    exact ⟨.quiet (Shrinks.leave (by simp [Holds, hStage]) id), rfl, trivial⟩
  case h_25 | h_26 | h_27 =>
    split at hStep <;> cases hStep
    · exact hFinish
    · exact hStays
  case h_28 =>
    cases hStep
    exact hStays
  case h_29 => cases hStep

end Inversion

end TimelapseManager.Capture
