import TimelapseManager.Capture.AnchorEffects

/-!
# At most one frame per anchor and day

The row of the fire-log is a permit: whoever inserts it, or takes it out of `retry_pending`, may
write a frame.  A permit is handed on when the attempt fails, and that is where the system breaks:
an attempt that timed out in its frame write hands its permit on and keeps writing.

* `Once` is the invariant of one key: the parties of its permit, the row and the frames written.
* `anchor_captured_at_most_once` is about the runs in which no retry is taken while the frame write
  of an abandoned attempt is still to come, `anchor_captured_twice` a run in which one is.
-/

namespace TimelapseManager.Capture

open Runs
open Function (update update_of_ne update_self)
open Worker (Holds Claimant Party Wrote Consistent)

/-! ## The invariant of one key -/

/-- The invariant of one key: its row, the number of its frames, the workers. -/
structure Once (row : Option Fire) (count : Nat) (key : FireKey)
    (workers : Nat → Option Worker) : Prop where
  /-- A held row is provisional, or its frame was marked meanwhile. -/
  present : ∀ index, Plays Holds key (workers index) →
    ∃ fire, row = some fire ∧ (fire.status = .failed ∨ fire.status = .captured)
  partyUnique : ∀ first second, Plays Party key (workers first) →
    Plays Party key (workers second) → first = second
  unwritten : ∀ index, Plays Claimant key (workers index) → count = 0
  absent : row = none → count = 0 ∧ ∀ index, ¬ Plays Claimant key (workers index)
  /-- A frame the row does not show belongs to a hop that is still to mark it. -/
  recorded : count ≠ 0 → (∃ index, Plays Wrote key (workers index)) ∨
    ∃ fire, row = some fire ∧ fire.status = .captured
  witnessed : ∀ index, Plays Wrote key (workers index) → count ≠ 0
  atMostOne : count ≤ 1

variable {index : Nat} {key : FireKey} {worker after : Worker} {workers : Nat → Option Worker}
  {fire : Fire} {label : AttemptStep}

theorem plays_update {role : Worker → Prop} {other : Nat}
    (hPlays : Plays role key (update workers index (some worker) other)) :
    (other = index ∧ worker.key = key ∧ role worker) ∨
      (other ≠ index ∧ Plays role key (workers other)) := by
  by_cases hOther : other = index
  · subst hOther
    rw [update_self, plays_some] at hPlays
    exact Or.inl ⟨rfl, hPlays⟩
  · rw [update_of_ne hOther] at hPlays
    exact Or.inr ⟨hOther, hPlays⟩

/-! ## What a step does to the invariant -/

section Effects

variable {row : Option Fire} {count : Nat} {key : FireKey} {workers : Nat → Option Worker}
  {index : Nat}

theorem plays_of_shrinks {role : Worker → Prop} {other : Nat}
    (hShrinks : Plays role key (some worker) → Plays role key (workers index))
    (hPlays : Plays role key (update workers index (some worker) other)) :
    Plays role key (workers other) := by
  rcases plays_update hPlays with ⟨hSame, hRole⟩ | ⟨_, hRole⟩
  · rw [hSame]
    exact hShrinks (plays_some.mpr hRole)
  · exact hRole

structure Quiet (key : FireKey) (before : Option Worker) (after : Worker) : Prop where
  holds : Plays Holds key (some after) → Plays Holds key before
  claimant : Plays Claimant key (some after) → Plays Claimant key before
  party : Plays Party key (some after) → Plays Party key before
  wrote : Plays Wrote key (some after) ↔ Plays Wrote key before

section

variable (hOnce : Once row count key workers)
include hOnce

theorem Once.quiet (hQuiet : Quiet key (workers index) worker) :
    Once row count key (update workers index (some worker)) := { hOnce with
  present := by
    intro other hPlays
    exact hOnce.present other (plays_of_shrinks hQuiet.holds hPlays)
  partyUnique := by
    intro first second hFirst hSecond
    exact hOnce.partyUnique first second (plays_of_shrinks hQuiet.party hFirst)
      (plays_of_shrinks hQuiet.party hSecond)
  unwritten := by
    intro other hPlays
    exact hOnce.unwritten other (plays_of_shrinks hQuiet.claimant hPlays)
  absent := by
    intro hRow
    obtain ⟨hCount, hNone⟩ := hOnce.absent hRow
    exact ⟨hCount, fun other hPlays => hNone other (plays_of_shrinks hQuiet.claimant hPlays)⟩
  recorded := by
    intro hCount
    rcases hOnce.recorded hCount with ⟨other, hWrote⟩ | hCaptured
    · left
      by_cases hOther : other = index
      · subst hOther
        exact ⟨other, by rw [update_self]; exact hQuiet.wrote.mpr hWrote⟩
      · exact ⟨other, by rw [update_of_ne hOther]; exact hWrote⟩
    · exact Or.inr hCaptured
  witnessed := by
    intro other hPlays
    exact hOnce.witnessed other (plays_of_shrinks hQuiet.wrote.mp hPlays) }

/-- Nobody holds a row that is pending, so it may be closed by anybody. -/
theorem Once.finalize {pending : Fire} (hRow : row = some pending)
    (hPending : pending.status = .retryPending) (hQuiet : Quiet key (workers index) worker) :
    Once (some fire) count key (update workers index (some worker)) := by
  have hLeft := hOnce.quiet hQuiet
  have hNot : pending.status ≠ .failed ∧ pending.status ≠ .captured := by
    rw [hPending]
    exact ⟨nofun, nofun⟩
  refine { hLeft with present := ?_, absent := nofun, recorded := ?_ }
  · intro other hPlays
    obtain ⟨held, hHeld, hStatus⟩ := hLeft.present other hPlays
    cases hRow.symm.trans hHeld
    exact (hStatus.elim hNot.1 hNot.2).elim
  · intro hCount
    rcases hLeft.recorded hCount with hWrote | ⟨found, hFound, hCaptured⟩
    · exact Or.inl hWrote
    · cases hRow.symm.trans hFound
      exact absurd hCaptured hNot.2

theorem Once.acquire
    (hNobody : ∀ other, ¬ Plays Party key (workers other)) (hCount : count = 0)
    (hHop : worker.hop = .idle) (hStatus : worker.Holds → fire.status = .failed) :
    Once (some fire) count key (update workers index (some worker)) := { hOnce with
  present := by
    intro other hPlays
    rcases plays_update hPlays with ⟨_, _, hHolds⟩ | ⟨_, hPlays⟩
    · exact ⟨fire, rfl, Or.inl (hStatus hHolds)⟩
    · exact absurd (hPlays.mono fun _ hHolds => Or.inl hHolds) (hNobody other)
  partyUnique := by
    intro first second hFirst hSecond
    rcases plays_update hFirst with ⟨hFirst, _⟩ | ⟨_, hFirst⟩
    · rcases plays_update hSecond with ⟨hSecond, _⟩ | ⟨_, hSecond⟩
      · rw [hFirst, hSecond]
      · exact absurd hSecond (hNobody second)
    · exact absurd hFirst (hNobody first)
  unwritten := fun _ _ => hCount
  absent := by
    intro hRow
    cases hRow
  recorded := fun hWritten => absurd hCount hWritten
  witnessed := by
    intro other hPlays
    rcases plays_update hPlays with ⟨_, _, hWrote⟩ | ⟨_, hWrote⟩
    · simp [Wrote, hHop] at hWrote
    · exact hOnce.witnessed other hWrote }

/-- A party of the row is the only one, so what is a party after its step is this worker. -/
theorem Once.alone {role : Worker → Prop} {other : Nat} (hRole : ∀ found, role found → found.Party)
    (hParty : Plays Party key (workers index))
    (hPlays : Plays role key (update workers index (some after) other)) : role after := by
  rcases plays_update hPlays with ⟨_, _, hNew⟩ | ⟨hOther, hOld⟩
  · exact hNew
  · exact absurd (hOnce.partyUnique other index (hOld.mono hRole) hParty) hOther

theorem Once.write (hWorker : workers index = some worker)
    (hKey : worker.key = key) (hConsistent : worker.Consistent) (hQueued : worker.hop = .queued)
    (frameId : Nat) :
    Once row (count + 1) key (update workers index (some { worker with hop := .written frameId })) := by
  have hLate : ∀ hop, ({ worker with hop := hop } : Worker).Claimant → hop = .queued := by
    intro hop hClaimant
    unfold Claimant at hClaimant
    unfold Consistent at hConsistent
    split at hClaimant <;> simp_all
  have hClaimant : Plays Claimant key (workers index) :=
    ⟨worker, hWorker, hKey, Worker.claimant_of_queued hQueued⟩
  have hParty : Plays Party key (workers index) := hClaimant.mono fun _ => Worker.Claimant.party
  have hCount : count = 0 := hOnce.unwritten index hClaimant
  constructor
  · intro other hPlays
    refine hOnce.present other (plays_of_shrinks (fun hNew => ?_) hPlays)
    exact ⟨worker, hWorker, hKey, (plays_some.mp hNew).2⟩
  · intro first second hFirst hSecond
    exact hOnce.partyUnique first second (plays_of_shrinks (fun _ => hParty) hFirst)
      (plays_of_shrinks (fun _ => hParty) hSecond)
  · intro other hPlays
    -- The one that writes was the only claimant.
    cases hLate _ (hOnce.alone (fun _ => Worker.Claimant.party) hParty hPlays)
  · intro hRow
    exact absurd hClaimant ((hOnce.absent hRow).2 index)
  · intro _
    left
    exact ⟨index, by rw [update_self]; exact plays_some.mpr ⟨hKey, trivial⟩⟩
  · intro _ _
    omega
  · omega

theorem Once.mark (hWorker : workers index = some worker)
    (hKey : worker.key = key) (hWrote : worker.Wrote) (hHop : after.hop = .closed)
    (hHolds : after.Holds → worker.Holds) (hNotClaimant : ¬ after.Claimant)
    (hStatus : fire.status = .captured) :
    Once (some fire) count key (update workers index (some after)) := by
  have hCount : count ≠ 0 := hOnce.witnessed index ⟨worker, hWorker, hKey, hWrote⟩
  -- Nobody that still claims the row has a frame, and this one has.
  have hNoClaimant : ∀ other, ¬ Plays Claimant key (update workers index (some after) other) := by
    intro other hPlays
    rcases plays_update hPlays with ⟨_, _, hNew⟩ | ⟨_, hOld⟩
    · exact hNotClaimant hNew
    · exact hCount (hOnce.unwritten other hOld)
  have hParty : Plays Party key (some after) → Plays Party key (workers index) := by
    rintro ⟨found, hFound, _, hRole⟩
    cases hFound
    refine ⟨worker, hWorker, hKey, ?_⟩
    rcases hRole with hNew | hQueued
    · exact Or.inl (hHolds hNew)
    · rw [hHop] at hQueued
      cases hQueued
  constructor
  · intro _ _
    exact ⟨fire, rfl, Or.inr hStatus⟩
  · intro first second hFirst hSecond
    exact hOnce.partyUnique first second (plays_of_shrinks hParty hFirst)
      (plays_of_shrinks hParty hSecond)
  · intro other hPlays
    exact absurd hPlays (hNoClaimant other)
  · intro hRow
    cases hRow
  · intro _
    exact Or.inr ⟨fire, rfl, hStatus⟩
  · intro _ _
    exact hCount
  · exact hOnce.atMostOne

theorem Once.leave (hWorker : workers index = some worker)
    (hKey : worker.key = key) (hAfterKey : after.key = key) (hHolds : worker.Holds)
    (hNotHolds : ¬ after.Holds) (hHop : after.hop = worker.hop)
    (hClaimant : after.Claimant → worker.Claimant) {next : Option Fire} (hNext : next = row ∨
      ∃ before fire, row = some before ∧ before.status = .failed ∧ next = some fire) :
    Once next count key (update workers index (some after)) := by
  have hParty : Plays Party key (workers index) :=
    ⟨worker, hWorker, hKey, Or.inl hHolds⟩
  have hQuiet : Quiet key (workers index) after := by
    constructor
    · intro hNew
      exact absurd (plays_some.mp hNew).2 hNotHolds
    · intro hNew
      exact ⟨worker, hWorker, hKey, hClaimant (plays_some.mp hNew).2⟩
    · exact fun _ => hParty
    · unfold Wrote
      rw [hWorker, plays_some, plays_some, hHop, hKey, hAfterKey]
  rcases hNext with rfl | ⟨before, fire, rfl, hFailed, rfl⟩
  · exact hOnce.quiet hQuiet
  · have hLeft := hOnce.quiet hQuiet
    constructor
    · intro other hPlays
      -- The holder that leaves was the only one.
      exact absurd (hOnce.alone (fun _ => Or.inl) hParty hPlays) hNotHolds
    · exact hLeft.partyUnique
    · exact hLeft.unwritten
    · intro hRow
      cases hRow
    · intro hCount
      rcases hLeft.recorded hCount with hWrote | ⟨found, hRow, hCaptured⟩
      · exact Or.inl hWrote
      · -- A provisional row is not a captured one.
        cases hRow
        rw [hFailed] at hCaptured
        cases hCaptured
    · exact hLeft.witnessed
    · exact hLeft.atMostOne

theorem Once.release (hWorker : workers index = some worker)
    (hKey : worker.key = key) (hClaimant : worker.Claimant) (hNotParty : ¬ after.Party)
    (hNotWrote : ¬ after.Wrote) : Once none count key (update workers index (some after)) := by
  have hOld : Plays Claimant key (workers index) := ⟨worker, hWorker, hKey, hClaimant⟩
  have hCount : count = 0 := hOnce.unwritten index hOld
  have hNobody : ∀ other, ¬ Plays Party key (update workers index (some after) other) := by
    intro other hPlays
    exact hNotParty (hOnce.alone (fun _ => id) (hOld.mono fun _ => Worker.Claimant.party) hPlays)
  constructor
  · intro other hPlays
    exact absurd (hPlays.mono fun _ => Or.inl) (hNobody other)
  · intro first _ hFirst _
    exact absurd hFirst (hNobody first)
  · exact fun _ _ => hCount
  · intro _
    exact ⟨hCount, fun other hPlays =>
      hNobody other (hPlays.mono fun _ => Worker.Claimant.party)⟩
  · exact fun hWritten => absurd hCount hWritten
  · intro other hPlays
    rcases plays_update hPlays with ⟨_, _, hNew⟩ | ⟨_, hWrote⟩
    · exact absurd hNew hNotWrote
    · exact hOnce.witnessed other hWrote
  · exact hOnce.atMostOne

end

end Effects

/-! ## Steps of the system -/

/-- Every worker is consistent, and every key has its invariant. -/
structure AttemptState.Sound (state : AttemptState) : Prop where
  consistent : ∀ index worker, state.workers index = some worker → worker.Consistent
  once : ∀ key, Once (state.log key) (state.frameCount key) key state.workers

theorem AttemptState.Sound.initial : AttemptState.initial.Sound := by
  have hNobody : ∀ role key index, ¬ Plays role key (AttemptState.initial.workers index) := by
    rintro role key index ⟨found, hFound, _⟩
    cases hFound
  constructor
  · intro index worker hWorker
    cases hWorker
  · intro key
    constructor
    · exact fun index hPlays => absurd hPlays (hNobody _ _ _)
    · exact fun first _ hFirst _ => absurd hFirst (hNobody _ _ _)
    · exact fun index hPlays => absurd hPlays (hNobody _ _ _)
    · exact fun _ => ⟨rfl, hNobody _ _⟩
    · exact fun hCount => absurd rfl hCount
    · exact fun index hPlays => absurd hPlays (hNobody _ _ _)
    · exact Nat.zero_le 1

/-- The condition under which the permit is safe: a pending retry is taken only
when every earlier attempt of its key has either written no frame or marked the
row. -/
def RetriesSettled (state : AttemptState) : AttemptStep → Prop
  | .reclaim index => ∀ worker, state.workers index = some worker → worker.Takes state.log →
      ∀ other found, state.workers other = some found → found.key = worker.key →
        found.hop = .idle ∨ found.hop = .closed
  | _ => True

theorem Once.free_of_settled {row : Option Fire} {count : Nat} (hOnce : Once row count key workers)
    (hRow : row = some fire) (hPending : fire.status = .retryPending)
    (hSettled : ∀ other found, workers other = some found → found.key = key →
      found.hop = .idle ∨ found.hop = .closed) :
    (∀ other, ¬ Plays Party key (workers other)) ∧ count = 0 := by
  have hDone : ∀ other found, workers other = some found → found.key = key →
      found.hop ≠ .queued ∧ ¬ found.Wrote := by
    intro other found hFound hKey
    rcases hSettled other found hFound hKey with hHop | hHop <;> simp [Wrote, hHop]
  constructor
  · rintro other ⟨found, hFound, hKey, hHolds | hQueued⟩
    · obtain ⟨held, hHeld, hStatus⟩ := hOnce.present other ⟨found, hFound, hKey, hHolds⟩
      rw [hRow] at hHeld
      cases hHeld
      rw [hPending] at hStatus
      rcases hStatus with hStatus | hStatus <;> cases hStatus
    · exact (hDone other found hFound hKey).1 hQueued
  · by_contra hCount
    rcases hOnce.recorded hCount with
      ⟨other, found, hFound, hKey, hWrote⟩ | ⟨marked, hMarked, hStatus⟩
    · exact (hDone other found hFound hKey).2 hWrote
    · rw [hRow] at hMarked
      cases hMarked
      rw [hPending] at hStatus
      cases hStatus

theorem Once.free_of_absent {row : Option Fire} {count : Nat} (hOnce : Once row count key workers)
    (hRow : row = none) : (∀ other, ¬ Plays Party key (workers other)) ∧ count = 0 := by
  obtain ⟨hCount, hNone⟩ := hOnce.absent hRow
  refine ⟨?_, hCount⟩
  rintro other ⟨found, hFound, hKey, hHolds | hQueued⟩
  · obtain ⟨fire, hFire, _⟩ := hOnce.present other ⟨found, hFound, hKey, hHolds⟩
    rw [hRow] at hFire
    cases hFire
  · exact hNone other ⟨found, hFound, hKey, Worker.claimant_of_queued hQueued⟩

theorem Effect.other {log next : FireLog} {frames nextFrames : List (FireKey × Nat)}
    (hEffect : Effect log frames worker label next nextFrames after) (hOther : key ≠ worker.key) :
    next key = log key ∧
      nextFrames.countP (fun frame => frame.1 = key) =
        frames.countP fun frame => frame.1 = key := by
  cases hEffect with
  | quiet => exact ⟨rfl, rfl⟩
  | inserted => exact ⟨update_of_ne hOther _ log, rfl⟩
  | reclaimed _ hMoves => exact ⟨hMoves.other hOther, rfl⟩
  | finalized hMoves => exact ⟨hMoves.other hOther, rfl⟩
  | written =>
    refine ⟨rfl, ?_⟩
    simp [hOther.symm]
  | marked =>
    refine ⟨?_, rfl⟩
    rcases recordExactTimeOutcome_moves log worker.key .captured _ none with hSame | ⟨old, hMoves⟩
    · rw [hSame.2]
    · exact hMoves.other hOther
  | left _ _ _ _ hNext =>
    refine ⟨?_, rfl⟩
    rcases hNext with hSame | ⟨new, hMoves⟩
    · rw [hSame]
    · exact hMoves.other hOther
  | released => exact ⟨by rw [releaseExactTimeFire, update_of_ne hOther], rfl⟩

theorem Shrinks.quiet (hShrinks : Shrinks worker after) (hWorker : workers index = some worker)
    (hKey : after.key = worker.key) : Quiet worker.key (workers index) after := by
  rw [hWorker]
  constructor
  · intro hPlays
    exact plays_some.mpr ⟨rfl, hShrinks.holds (plays_some.mp hPlays).2⟩
  · intro hPlays
    exact plays_some.mpr ⟨rfl, hShrinks.claimant (plays_some.mp hPlays).2⟩
  · intro hPlays
    rcases (plays_some.mp hPlays).2 with hHolds | hQueued
    · exact plays_some.mpr ⟨rfl, Or.inl (hShrinks.holds hHolds)⟩
    · exact plays_some.mpr ⟨rfl, hShrinks.queued hQueued⟩
  · rw [plays_some, plays_some, hKey, hShrinks.wrote]

theorem Once.effect {log next : FireLog} {frames nextFrames : List (FireKey × Nat)}
    (hEffect : Effect log frames worker label next nextFrames after)
    (hWorker : workers index = some worker) (hConsistent : worker.Consistent)
    (hKey : after.key = worker.key)
    (hOnce : Once (log worker.key) (frames.countP fun frame => frame.1 = worker.key)
      worker.key workers)
    (hSettled : (∃ reclaimed, label = .reclaim reclaimed) → worker.Takes log →
      ∀ other found, workers other = some found → found.key = worker.key →
        found.hop = .idle ∨ found.hop = .closed) :
    Once (next worker.key) (nextFrames.countP fun frame => frame.1 = worker.key) worker.key
      (update workers index (some after)) := by
  cases hEffect with
  | quiet hShrinks => exact hOnce.quiet (hShrinks.quiet hWorker hKey)
  -- Both ways into the row find it free: it is absent, or every earlier attempt has settled.
  | inserted hAbsent hHop hStatus =>
    obtain ⟨hNobody, hCount⟩ := hOnce.free_of_absent hAbsent
    rw [update_self]
    exact hOnce.acquire hNobody hCount hHop hStatus
  | reclaimed hTakes hMoves hHop =>
    obtain ⟨⟨fire, hRow, hPending⟩, taken, hTaken, hFailed⟩ := hMoves.self
    obtain ⟨hNobody, hCount⟩ := hOnce.free_of_settled hRow hPending (hSettled ⟨_, rfl⟩ hTakes)
    rw [hTaken]
    exact hOnce.acquire hNobody hCount hHop (fun _ => hFailed)
  | finalized hMoves hShrinks =>
    obtain ⟨⟨fire, hRow, hPending⟩, closed, hClosed, -⟩ := hMoves.self
    rw [hClosed]
    exact hOnce.finalize hRow hPending (hShrinks.quiet hWorker hKey)
  | written hQueued frameId =>
    simpa using hOnce.write hWorker rfl hConsistent hQueued frameId
  | marked hWrote hHop hHolds hNotClaimant =>
    rename_i frameId
    have hCount := hOnce.witnessed index ⟨worker, hWorker, rfl, hWrote⟩
    rcases recordExactTimeOutcome_moves log worker.key .captured (some frameId) none with
      ⟨hAbsent, _⟩ | ⟨old, hMoves⟩
    · -- The row cannot be gone, since the frame is there.
      exact absurd (hOnce.absent hAbsent).1 hCount
    · obtain ⟨_, fire, hRow, hStatus⟩ := hMoves.self
      rw [hRow]
      exact hOnce.mark hWorker rfl hWrote hHop hHolds hNotClaimant hStatus
  | left hHolds hNotHolds hHop hClaimant hNext =>
    apply hOnce.leave hWorker rfl hKey hHolds hNotHolds hHop hClaimant
    rcases hNext with hSame | ⟨new, hMoves⟩
    · exact Or.inl (by rw [hSame])
    · obtain ⟨⟨before, hBefore, hFailed⟩, fire, hFire, _⟩ := hMoves.self
      exact Or.inr ⟨before, fire, hBefore, hFailed, hFire⟩
  | released hClaimant hNotParty hNotWrote =>
    rw [releaseExactTimeFire, update_self]
    exact hOnce.release hWorker rfl hClaimant hNotParty hNotWrote

theorem Quiet.of_nobody {before : Option Worker} (hParty : ¬ Plays Party key (some after))
    (hWrote : ¬ Plays Wrote key (some after)) (hBefore : ¬ Plays Wrote key before) :
    Quiet key before after where
  holds := fun hPlays => absurd (hPlays.mono fun _ => Or.inl) hParty
  claimant := fun hPlays => absurd (hPlays.mono fun _ => Worker.Claimant.party) hParty
  party := fun hPlays => absurd hPlays hParty
  wrote := iff_of_false hWrote hBefore

theorem update_consistent (hAll : ∀ other worker, workers other = some worker → worker.Consistent)
    (hAfter : after.Consistent) {other : Nat}
    (hWorker : update workers index (some after) other = some worker) : worker.Consistent := by
  by_cases hOther : other = index
  · subst hOther
    rw [update_self] at hWorker
    cases hWorker
    exact hAfter
  · rw [update_of_ne hOther] at hWorker
    exact hAll other worker hWorker

theorem attempts_sound {start stop : AttemptState} (hSound : start.Sound)
    (hStep : Guarded Attempts RetriesSettled start label stop) : stop.Sound := by
  obtain ⟨hStep, hSettled⟩ := hStep
  unfold Attempts Steps attemptStep at hStep
  split at hStep
  · -- A new worker.
    rename_i index projectId decision now hFree
    cases hStep
    have hNew : (⟨projectId, decision, now, .claiming, .idle, false⟩ : Worker).Consistent := rfl
    constructor
    · intro other worker hWorker
      exact update_consistent hSound.consistent hNew hWorker
    · intro key
      apply (hSound.once key).quiet
      rw [show start.workers index = none from hFree]
      exact Quiet.of_nobody (by simp [plays_some, Party, Holds]) (by simp [plays_some, Wrote])
        (by simp [Plays])
  · cases hStep
  · rename_i worker hWorker
    obtain ⟨⟨next, nextFrames, after⟩, hOwn, hStop⟩ := Option.map_eq_some_iff.mp hStep
    cases hStop
    have hConsistent := hSound.consistent _ _ hWorker
    have hSteps := workerStep_stepsTo hConsistent hOwn
    constructor
    · intro other found hFound
      exact update_consistent hSound.consistent hSteps.consistent hFound
    · intro key
      -- The step is one of the worker on its own key; the others see nothing of it.
      by_cases hKey : key = worker.key
      · subst hKey
        apply Once.effect hSteps.effect hWorker hConsistent hSteps.key (hSound.once worker.key)
        rintro ⟨reclaimed, rfl⟩ hTakes
        exact hSettled worker hWorker hTakes
      · obtain ⟨hRow, hFrames⟩ := hSteps.effect.other hKey
        show Once (next key) (nextFrames.countP fun frame => frame.1 = key) key _
        rw [hRow, hFrames]
        have hOther : ∀ role (found : Worker), found.key = worker.key →
            ¬ Plays role key (some found) := by
          intro role found hFound hPlays
          exact hKey ((plays_some.mp hPlays).1.symm.trans hFound)
        apply (hSound.once key).quiet
        rw [show start.workers _ = _ from hWorker]
        exact Quiet.of_nobody (hOther _ _ hSteps.key) (hOther _ _ hSteps.key) (hOther _ _ rfl)

/-- **At most one frame per anchor and local date**, in every state that is
reached while no retry is taken before the earlier attempts of its key have
settled. -/
theorem anchor_captured_at_most_once {labels : List AttemptStep} {state : AttemptState}
    (hRun : Run (Guarded Attempts RetriesSettled) AttemptState.initial labels state)
    (key : FireKey) : state.frameCount key ≤ 1 := by
  have hSound : state.Sound := by
    apply hRun.invariant AttemptState.Sound _ AttemptState.Sound.initial
    intro start label stop hStart hStep
    exact attempts_sound hStart hStep
  exact (hSound.once key).atMostOne

/-! ## A retry that overtakes its predecessor -/

def noonAnchor : Anchor :=
  .atTime "noon" (.ofFin 12 0)

def noonDecision : AnchorDecision :=
  ⟨noonAnchor, 0, some (43200 * second), true, true⟩

/-- The camera is unreachable in the first attempt, and a later cycle finds the
row pending. -/
def firstAttemptFails : List AttemptStep :=
  [.start 0 1 noonDecision (43200 * second), .claim 0, .fail 0,
    .handle 0 (43210 * second) (1790 * second) false "camera unreachable",
    .start 1 1 noonDecision (43240 * second), .claim 1]

def retryCaptures : List AttemptStep :=
  [.gate 1 true, .capture 1, .write 1, .note 1, .mark 1, .audit 1]

/-- A run with a retry: the retry is taken after the first attempt has failed
without a write, and one frame is written. -/
theorem anchor_captured_at_most_once_retried :
    ∃ state, Run (Guarded Attempts RetriesSettled) AttemptState.initial
        (firstAttemptFails ++ .reclaim 1 :: retryCaptures) state ∧
      state.frameCount ⟨1, "noon", 0⟩ = 1 ∧ state.frameCount ⟨1, "noon", 0⟩ ≤ 1 := by
  obtain ⟨pending, hPending⟩ : ∃ pending,
      exec attemptStep AttemptState.initial firstAttemptFails = some pending := ⟨_, rfl⟩
  obtain ⟨taken, hTaken⟩ : ∃ taken, attemptStep pending (.reclaim 1) = some taken := by
    cases hPending
    exact ⟨_, rfl⟩
  obtain ⟨state, hState⟩ : ∃ state, exec attemptStep taken retryCaptures = some state := by
    cases hPending
    cases hTaken
    exact ⟨_, rfl⟩
  have hFirst : Run (Guarded Attempts RetriesSettled) AttemptState.initial firstAttemptFails
      pending := by
    apply Run.of_exec _ hPending
    simp [firstAttemptFails, RetriesSettled]
  have hRest : Run (Guarded Attempts RetriesSettled) taken retryCaptures state := by
    apply Run.of_exec _ hState
    simp [retryCaptures, RetriesSettled]
  have hSettled : RetriesSettled pending (.reclaim 1) := by
    cases hPending
    intro worker _ _ other found hFound _
    by_cases hOne : other = 1
    · subst hOne
      cases hFound
      exact Or.inl rfl
    · by_cases hZero : other = 0
      · subst hZero
        cases hFound
        exact Or.inl rfl
      · simp [hOne, hZero, AttemptState.initial, AttemptStep.index] at hFound
  have hRun := hFirst.append (Run.cons ⟨hTaken, hSettled⟩ hRest)
  refine ⟨state, hRun, ?_, anchor_captured_at_most_once hRun _⟩
  cases hPending
  cases hTaken
  cases hState
  decide

/-- The frame write of the first attempt is still queued when the attempt times
out after two minutes; its retry captures, and then the abandoned hop goes on. -/
def abandonedWrite : List AttemptStep :=
  [.start 0 1 noonDecision (43200 * second), .claim 0, .gate 0 true, .capture 0,
    .timeout 0 false, .handle 0 (43320 * second) (1680 * second) false "attempt timed out",
    .start 1 1 noonDecision (43340 * second), .claim 1, .reclaim 1, .gate 1 true,
    .capture 1, .write 1, .note 1, .mark 1, .write 0]

/-- Two frames for one anchor and one day. -/
theorem anchor_captured_twice :
    ∃ state, Run Attempts AttemptState.initial abandonedWrite state ∧
      state.frameCount ⟨1, "noon", 0⟩ = 2 :=
  Run.exists_of_exec (by decide +kernel)

end TimelapseManager.Capture
