import TimelapseManager.Capture.Transitions

/-!
# When the open stretches of a range are exact

Over a range with one UTC offset the local clock never jumps, so the gate changes at campaign
bounds, sun anchors, midnights and window edges only.  A range can still lie in the second pass of
a repeated hour: its wall times are converted to the first pass, and their instants are not
sampled.  `openStretches_exact_iff` says that this is all that can go wrong.
-/

namespace TimelapseManager.Capture

open Sampling

/-- The sampled instants of a range: its start and the candidates inside it. -/
def edges (schedule : Schedule) (place : Option Place) (start stop : Int) : List Int :=
  (iterCandidates schedule place start (spanDays start stop)).filter (· < stop)

theorem stop_lt_horizon (start stop : Int) : stop < start + (spanDays start stop : Int) * day := by
  unfold spanDays day second
  omega

variable {instant start stop : Int} {place : Option Place} {schedule : Schedule}

theorem mem_edges :
    instant ∈ edges schedule place start stop ↔
      Announced schedule place start (spanDays start stop) instant ∧
        start < instant ∧ instant < stop := by
  have hHorizon := stop_lt_horizon start stop
  unfold edges
  rw [List.mem_filter, mem_iterCandidates, decide_eq_true_eq]
  constructor
  · rintro ⟨⟨hAnnounced, hLater, _⟩, hStop⟩
    exact ⟨hAnnounced, hLater, hStop⟩
  · rintro ⟨hAnnounced, hLater, hStop⟩
    exact ⟨⟨hAnnounced, hLater, by omega⟩, hStop⟩

/-! ## One offset over the range -/

def ConstantOffset (zone : Zone) (start stop : Int) : Prop :=
  ∀ instant, start ≤ instant → instant < stop →
    zone.utcoffset (instant / second) = zone.utcoffset (start / second)

theorem ConstantOffset.localReading_eq {zone : Zone} (hOffset : ConstantOffset zone start stop)
    (hLow : start ≤ instant) (hHigh : instant < stop) :
    zone.localReading instant = zone.localReading start + (instant - start) := by
  unfold Zone.localReading
  rw [hOffset instant hLow hHigh]
  omega

/-! ## Exactness -/

/-- Sorted, non-empty, never touching stretches, whose union is the set of open
instants of the range. -/
structure ExactStretches (schedule : Schedule) (place : Option Place) (start stop : Int)
    (pieces : List (Int × Int)) : Prop where
  separated : Separated pieces
  covered : ∀ instant, Covered pieces instant ↔
    start ≤ instant ∧ instant < stop ∧ isWithinWindow schedule place instant = true

theorem openStretches_exact_iff_announced (hRange : start < stop) :
    ExactStretches schedule place start stop (openStretches schedule place start stop) ↔
      ∀ instant, start < instant → instant < stop →
        Change (isWithinWindow schedule place) instant →
          Announced schedule place start (spanDays start stop) instant := by
  have hNotEmpty : ¬ stop ≤ start := by omega
  by_cases hOpen : schedule.isAlwaysOpen = true
  · have hWhole : openStretches schedule place start stop = [(start, stop)] := by
      simp [openStretches, hNotEmpty, hOpen]
    rw [hWhole]
    constructor
    · intro _ instant _ _ hChange
      refine absurd ?_ hChange
      rw [isWithinWindow_of_isAlwaysOpen hOpen, isWithinWindow_of_isAlwaysOpen hOpen]
    · intro _
      constructor
      · constructor
        · simpa using hRange
        · simp
      · intro instant
        simp [Covered, isWithinWindow_of_isAlwaysOpen hOpen]
  · have hSampled : openStretches schedule place start stop =
        stretches (isWithinWindow schedule place) start stop (edges schedule place start stop) := by
      simp [openStretches, hNotEmpty, hOpen, edges]
    have hSorted : (start :: edges schedule place start stop).Pairwise (· < ·) := by
      constructor
      · intro instant hMem
        exact (mem_edges.mp hMem).2.1
      · exact (iterCandidates_sorted schedule place start (spanDays start stop)).filter _
    have hBelow : ∀ point ∈ start :: edges schedule place start stop, point < stop :=
      List.forall_mem_cons.mpr ⟨hRange, fun point hEdge => (mem_edges.mp hEdge).2.2⟩
    have hExact : (∀ instant, Covered (stretches (isWithinWindow schedule place) start stop
          (edges schedule place start stop)) instant ↔
        start ≤ instant ∧ instant < stop ∧ isWithinWindow schedule place instant = true) ↔ _ :=
      stretches_exact_iff hSorted hBelow
    rw [hSampled]
    constructor
    · intro hStretches instant hLow hHigh hChange
      exact (mem_edges.mp (hExact.mp hStretches.covered instant hLow hHigh hChange)).1
    · intro hAnnounced
      constructor
      · exact stretches_separated hSorted hBelow
      · apply hExact.mpr
        intro instant hLow hHigh hChange
        exact mem_edges.mpr ⟨hAnnounced instant hLow hHigh hChange, hLow, hHigh⟩

/-- **Open stretches.**  Over a range with one UTC offset `open_stretches` is
exact if and only if every change of the gate inside the range is in the first
pass of its wall time, or is announced anyway. -/
theorem openStretches_exact_iff (schedule : Schedule) (place : Option Place)
    (start stop : Int) (hRange : start < stop)
    (hOffset : ConstantOffset schedule.timezone start stop) :
    ExactStretches schedule place start stop (openStretches schedule place start stop) ↔
      ∀ instant, start < instant → instant < stop →
        Change (isWithinWindow schedule place) instant →
          FirstPass schedule.timezone instant ∨
            Announced schedule place start (spanDays start stop) instant := by
  rw [openStretches_exact_iff_announced hRange]
  constructor
  · intro hAnnounced instant hLow hHigh hChange
    exact Or.inr (hAnnounced instant hLow hHigh hChange)
  · intro hSeen instant hLow hHigh hChange
    rcases hSeen instant hLow hHigh hChange with hFirst | hAnnounced
    · have hRunning : schedule.timezone.utcoffset ((instant - 1) / second) =
          schedule.timezone.utcoffset (instant / second) := by
        rw [hOffset instant hLow.le hHigh, hOffset (instant - 1) (by omega) (by omega)]
      have hReading := hOffset.localReading_eq hLow.le hHigh
      refine announced_of_mem ?_ ?_ (mem_dayCandidates_of_change ⟨hRunning, hFirst⟩ hChange)
      · unfold Zone.localDay day second
        omega
      · unfold Zone.localDay spanDays day second
        omega
    · exact hAnnounced

/-! ## Ranges around a repeated hour -/

theorem fallBackZone_firstPass (hBefore : instant < 3600 * second) :
    FirstPass fallBackZone instant := by
  unfold FirstPass Zone.localReading fallBackZone Zone.oneChange Zone.stepOffset second at *
  simp only [Bool.false_eq_true, if_false]
  rw [if_pos (by omega), if_pos (by omega)]

theorem overlap_constantOffset (hSide : stop ≤ 3600 * second ∨ 3600 * second ≤ start) :
    ConstantOffset overlapSchedule.timezone start stop := by
  intro instant hLow hHigh
  show Zone.stepOffset 7200 3600 3600 (instant / second) =
    Zone.stepOffset 7200 3600 3600 (start / second)
  unfold Zone.stepOffset second at *
  rcases hSide with hBefore | hAfter
  · rw [if_pos (by omega), if_pos (by omega)]
  · rw [if_neg (by omega), if_neg (by omega)]

/-- The five hours up to the change have one offset, and their stretches are
exact. -/
theorem openStretches_exact_iff_first_pass :
    -14400 * second < 3600 * second ∧
      ConstantOffset overlapSchedule.timezone (-14400 * second) (3600 * second) ∧
      ExactStretches overlapSchedule none (-14400 * second) (3600 * second)
        (openStretches overlapSchedule none (-14400 * second) (3600 * second)) := by
  have hRange : -14400 * second < 3600 * second := by decide
  have hOffset : ConstantOffset overlapSchedule.timezone (-14400 * second) (3600 * second) :=
    overlap_constantOffset (Or.inl (le_refl _))
  refine ⟨hRange, hOffset, ?_⟩
  apply (openStretches_exact_iff overlapSchedule none _ _ hRange hOffset).mpr
  intro instant _ hHigh _
  exact Or.inl (fallBackZone_firstPass hHigh)

/-- The hour after the change, the second pass of 02:00 to 03:00, has one offset.
The gate opens at its half, but both edges of the window are converted to
instants outside the range, and no stretch is reported. -/
theorem openStretches_misses_second_pass :
    3600 * second < 7200 * second ∧
      ConstantOffset overlapSchedule.timezone (3600 * second) (7200 * second) ∧
      ¬ ExactStretches overlapSchedule none (3600 * second) (7200 * second)
        (openStretches overlapSchedule none (3600 * second) (7200 * second)) := by
  have hRange : 3600 * second < 7200 * second := by decide
  have hOffset : ConstantOffset overlapSchedule.timezone (3600 * second) (7200 * second) :=
    overlap_constantOffset (Or.inr (le_refl _))
  have hChange : Change (isWithinWindow overlapSchedule none) (5400 * second) := by
    intro hSame
    have hOpen : isWithinWindow overlapSchedule none (5400 * second) = true := by
      decide
    rw [← hSame, overlap_gate, fallBackZone_localTime] at hOpen
    revert hOpen
    decide
  refine ⟨hRange, hOffset, ?_⟩
  rw [openStretches_exact_iff_announced hRange]
  intro hAnnounced
  have hListed := hAnnounced (5400 * second) (by decide) (by decide) hChange
  exact overlap_not_announced _ _ (by decide) (by decide) hListed

end TimelapseManager.Capture
