import TimelapseManager.Capture.Schedule

/-!
# When the search for the next transition is exact

The gate is a function of the instant, of the local date and of the local time of day, so it can
change at a campaign bound or a sun anchor, at a local midnight or window edge while the local
clock runs on, and whenever the clock is put forward or back.  The candidates cover the first kind,
and of the second kind the instants that `fold=0` denotes; `nextTransition_exact_iff` says that the
search is exact if and only if the change it has to find is one of these.
-/

namespace TimelapseManager.Capture

open Sampling

/-! ## The candidates as a set -/

/-- The instants a search starting at `now` looks at: campaign bounds, and on
each scanned local date the `fold=0` instants of midnight and of the window
edges, and the sun anchors. -/
def Announced (schedule : Schedule) (place : Option Place) (now : Int) (horizonDays : Nat)
    (instant : Int) : Prop :=
  schedule.startDate = some instant ∨ schedule.endDate = some instant ∨
    ∃ offset : Nat, offset ≤ horizonDays ∧
      instant ∈ dayCandidates schedule place (schedule.timezone.localDay now + (offset : Int))

variable {horizonDays : Nat} {instant now : Int} {place : Option Place} {schedule : Schedule}
  {zone : Zone}

theorem mem_iterCandidates :
    instant ∈ iterCandidates schedule place now horizonDays ↔
      Announced schedule place now horizonDays instant ∧ now < instant ∧
        instant ≤ now + (horizonDays : Int) * day := by
  rw [iterCandidates, List.mem_insertionSort, List.mem_dedup, List.mem_filter]
  simp [allCandidates, Announced]

theorem iterCandidates_sorted (schedule : Schedule) (place : Option Place) (now : Int)
    (horizonDays : Nat) : (iterCandidates schedule place now horizonDays).Pairwise (· < ·) := by
  have hSorted : (iterCandidates schedule place now horizonDays).Pairwise (· ≤ ·) :=
    List.pairwise_insertionSort _ _
  have hNodup : (iterCandidates schedule place now horizonDays).Nodup :=
    (List.perm_insertionSort _ _).nodup_iff.mpr (List.nodup_dedup _)
  exact (hSorted.and hNodup).imp fun hBoth => lt_of_le_of_ne hBoth.1 hBoth.2

/-! ## Instants at which the local clock runs on -/

def FirstPass (zone : Zone) (instant : Int) : Prop :=
  zone.wallOffset false (zone.localReading instant / second) = zone.utcoffset (instant / second)

/-- The offset does not jump at the instant, and it is the first pass of its wall
time. -/
structure Steady (zone : Zone) (instant : Int) : Prop where
  running : zone.utcoffset ((instant - 1) / second) = zone.utcoffset (instant / second)
  firstPass : FirstPass zone instant

theorem local_pred
    (hRunning : zone.utcoffset ((instant - 1) / second) = zone.utcoffset (instant / second))
    (hTime : zone.localTime instant ≠ 0) :
    zone.localDay (instant - 1) = zone.localDay instant ∧
      zone.localTime (instant - 1) = zone.localTime instant - 1 := by
  have hPred : zone.localReading (instant - 1) = zone.localReading instant - 1 := by
    unfold Zone.localReading
    rw [hRunning]
    omega
  unfold Zone.localTime at hTime ⊢
  unfold Zone.localDay
  unfold day second at *
  omega

/-! ## Where the gate can change -/

theorem Window.contains_ne {window : Window} {time : Int}
    (hNe : window.contains (time - 1) ≠ window.contains time) :
    time = window.startTime.micros ∨ time = window.endTime.micros := by
  by_contra hNot
  apply hNe
  unfold Window.contains
  simp only
  rw [Bool.eq_iff_iff]
  split
  · rfl
  · split
    · simp only [Bool.and_eq_true, decide_eq_true_eq]
      omega
    · simp only [Bool.or_eq_true, decide_eq_true_eq, ge_iff_le]
      omega

theorem inSunWindow_ne {date : Int}
    (hNe : inSunWindow schedule place date (now - 1) ≠ inSunWindow schedule place date now) :
    now ∈ sunCandidates schedule place date := by
  unfold inSunWindow at hNe
  unfold sunCandidates
  split at hNe
  · exact absurd rfl hNe
  · exact absurd rfl hNe
  · rename_i openAnchor closeAnchor place hSun
    rw [hSun]
    simp only at hNe ⊢
    split at hNe
    · rename_i sunrise sunset hTimes
      simp only [List.mem_cons, List.not_mem_nil, or_false]
      by_contra hNot
      apply hNe
      rw [Bool.eq_iff_iff]
      split
      · simp only [Bool.and_eq_true, decide_eq_true_eq]
        omega
      · simp only [Bool.or_eq_true, decide_eq_true_eq, ge_iff_le]
        omega
    · exact absurd rfl hNe

theorem exists_ne_of_any_ne {α : Type*} {items : List α} {first second : α → Bool}
    (hNe : items.any first ≠ items.any second) : ∃ item ∈ items, first item ≠ second item := by
  by_contra! hSame
  apply hNe
  rw [Bool.eq_iff_iff, List.any_eq_true, List.any_eq_true]
  refine exists_congr fun item => and_congr_right fun hItem => ?_
  rw [hSame item hItem]

theorem mem_dayCandidates_of_time (hFirst : FirstPass schedule.timezone instant) {wall : ClockTime}
    (hWall : wall ∈ schedule.wallTimes)
    (hTime : schedule.timezone.localTime instant = wall.micros) :
    instant ∈ dayCandidates schedule place (schedule.timezone.localDay instant) := by
  apply List.mem_append_left
  refine List.mem_map.mpr ⟨wall, hWall, ?_⟩
  unfold localWallToUtc
  rw [← hTime, ← schedule.timezone.localReading_eq]
  unfold Zone.toUtc
  rw [show schedule.timezone.wallOffset false _ = _ from hFirst, Zone.localReading]
  omega

theorem mem_dayCandidates_of_inAnyWindow (hFirst : FirstPass schedule.timezone instant)
    (hNe : schedule.inAnyWindow place (schedule.timezone.localDay instant)
        (schedule.timezone.localTime instant - 1) (instant - 1) ≠
      schedule.inAnyWindow place (schedule.timezone.localDay instant)
        (schedule.timezone.localTime instant) instant) :
    instant ∈ dayCandidates schedule place (schedule.timezone.localDay instant) := by
  by_cases hSun : inSunWindow schedule place (schedule.timezone.localDay instant)
      (instant - 1) = inSunWindow schedule place (schedule.timezone.localDay instant) instant
  · have hAny : (schedule.windows.any fun window =>
          window.contains (schedule.timezone.localTime instant - 1)) ≠
        schedule.windows.any fun window =>
          window.contains (schedule.timezone.localTime instant) := by
      intro hSame
      apply hNe
      unfold Schedule.inAnyWindow
      rw [hSame, hSun]
    obtain ⟨window, hWindow, hContains⟩ := exists_ne_of_any_ne hAny
    have hEdges : window.startTime ∈ schedule.wallTimes ∧ window.endTime ∈ schedule.wallTimes := by
      constructor <;> refine List.mem_cons_of_mem _ (List.mem_flatMap.mpr ⟨window, hWindow, ?_⟩)
      · simp
      · simp
    rcases Window.contains_ne hContains with hStart | hEnd
    · exact mem_dayCandidates_of_time hFirst hEdges.1 hStart
    · exact mem_dayCandidates_of_time hFirst hEdges.2 hEnd
  · exact List.mem_append_right _ (inSunWindow_ne hSun)

theorem mem_dayCandidates_of_change (hSteady : Steady schedule.timezone instant)
    (hChange : Change (isWithinWindow schedule place) instant) :
    schedule.startDate = some instant ∨ schedule.endDate = some instant ∨
      instant ∈ dayCandidates schedule place (schedule.timezone.localDay instant) := by
  by_cases hMidnight : schedule.timezone.localTime instant = 0
  · -- Midnight is a candidate of every date.
    right; right
    apply mem_dayCandidates_of_time hSteady.firstPass (List.mem_cons_self)
    rw [hMidnight]
    decide
  obtain ⟨hDay, hTime⟩ := local_pred hSteady.running hMidnight
  by_contra hNot
  simp only [not_or] at hNot
  apply hChange
  have hBound : ∀ date : Option Int, date ≠ some instant →
      (date.any fun bound => instant - 1 < bound) = (date.any fun bound => instant < bound) ∧
        (date.any fun bound => bound ≤ instant - 1) = date.any fun bound => bound ≤ instant := by
    intro date hDate
    cases date with
    | none => exact ⟨rfl, rfl⟩
    | some bound =>
      have hNe : bound ≠ instant := fun hEq => hDate (congrArg some hEq)
      simp only [Option.any_some, decide_eq_decide]
      omega
  have hWindows : schedule.inAnyWindow place (schedule.timezone.localDay instant)
      (schedule.timezone.localTime instant - 1) (instant - 1) =
        schedule.inAnyWindow place (schedule.timezone.localDay instant)
          (schedule.timezone.localTime instant) instant := by
    by_contra hNe
    exact hNot.2.2 (mem_dayCandidates_of_inAnyWindow hSteady.firstPass hNe)
  unfold isWithinWindow
  simp only [(hBound _ hNot.1).1, (hBound _ hNot.2.1).2, hDay, hTime, hWindows]

/-! ## Gates that never change -/

theorem weekday_lt (date : Int) : weekday date < 7 := by
  unfold weekday
  omega

theorem allowsWeekday_of_full (hMask : schedule.dayOfWeekMask = fullWeekMask) (date : Int) :
    schedule.allowsWeekday date = true := by
  have hLt := weekday_lt date
  unfold Schedule.allowsWeekday
  rw [hMask]
  generalize weekday date = index at hLt
  interval_cases index <;> decide

theorem isWithinWindow_of_isAlwaysOpen (hOpen : schedule.isAlwaysOpen = true) (place : Option Place)
    (now : Int) : isWithinWindow schedule place now = true := by
  unfold Schedule.isAlwaysOpen at hOpen
  simp only [Bool.or_eq_true, decide_eq_true_eq, Bool.and_eq_true, List.isEmpty_iff,
    Option.isNone_iff_eq_none] at hOpen
  rcases hOpen with hDisabled | ⟨⟨⟨⟨hWindows, hSun⟩, hMask⟩, hStart⟩, hEnd⟩
  · simp [isWithinWindow, hDisabled]
  · simp [isWithinWindow, hStart, hEnd, allowsWeekday_of_full hMask, Schedule.inAnyWindow,
      hWindows, hSun]

theorem isWithinWindow_of_ended {bound : Int} (hEnabled : schedule.enabled ≠ false)
    (hEnd : schedule.endDate = some bound) (hNow : bound ≤ now) :
    isWithinWindow schedule place now = false := by
  simp [isWithinWindow, hEnabled, hEnd, hNow]

/-! ## `next_transition` -/

theorem isWithinWindow_of_settled (hSettled : schedule.isAlwaysOpen = true ∨
      (schedule.endDate.any fun bound => bound ≤ now) = true) (hNow : now ≤ instant) :
    isWithinWindow schedule place instant = isWithinWindow schedule place now := by
  by_cases hOpen : schedule.isAlwaysOpen = true
  · rw [isWithinWindow_of_isAlwaysOpen hOpen, isWithinWindow_of_isAlwaysOpen hOpen]
  · have hEnabled : schedule.enabled ≠ false := by
      intro hDisabled
      exact hOpen (by simp [Schedule.isAlwaysOpen, hDisabled])
    obtain ⟨bound, hEnd, hBound⟩ := (Option.any_eq_true _ _).mp (hSettled.resolve_left hOpen)
    have hLe : bound ≤ now := by simpa using hBound
    rw [isWithinWindow_of_ended hEnabled hEnd hLe, isWithinWindow_of_ended hEnabled hEnd (by omega)]

theorem nextTransition_exact_iff_announced (schedule : Schedule) (place : Option Place)
    (now : Int) :
    Exact (isWithinWindow schedule place) now (now + (maxScanDays : Int) * day)
        (nextTransition schedule place now).2 ↔
      ∀ instant, FirstChange (isWithinWindow schedule place) now instant →
        instant ≤ now + (maxScanDays : Int) * day →
          Announced schedule place now maxScanDays instant := by
  by_cases hSettled : schedule.isAlwaysOpen = true ∨
      (schedule.endDate.any fun bound => bound ≤ now) = true
  · have hNone : (nextTransition schedule place now).2 = none := by
      unfold nextTransition
      split_ifs with hOpen hEnded
      · rfl
      · rfl
      · exact absurd hSettled (not_or.mpr ⟨hOpen, hEnded⟩)
    rw [hNone]
    constructor
    · intro _ instant hFirst
      exact absurd (isWithinWindow_of_settled hSettled hFirst.later.le) hFirst.differs
    · intro _ instant hNow _
      exact isWithinWindow_of_settled hSettled hNow
  · rw [not_or] at hSettled
    have hScan : (nextTransition schedule place now).2 =
        scan (isWithinWindow schedule place) now
          (iterCandidates schedule place now maxScanDays) := by
      unfold nextTransition
      simp [hSettled.1, hSettled.2]
    rw [hScan, scan_exact_iff (iterCandidates_sorted schedule place now maxScanDays)
      (fun point hPoint => (mem_iterCandidates.mp hPoint).2)]
    constructor
    · intro hListed instant hFirst hLimit
      exact (mem_iterCandidates.mp (hListed instant hFirst hLimit)).1
    · intro hAnnounced instant hFirst hLimit
      exact mem_iterCandidates.mpr ⟨hAnnounced instant hFirst hLimit, hFirst.later, hLimit⟩

/-- An instant at which the search sees a change: the local clock runs on there,
in the first pass of its wall time, and its date is scanned. -/
structure Regular (schedule : Schedule) (now instant : Int) : Prop where
  steady : Steady schedule.timezone instant
  scanned : schedule.timezone.localDay now ≤ schedule.timezone.localDay instant ∧
    schedule.timezone.localDay instant ≤ schedule.timezone.localDay now + (maxScanDays : Int)

theorem announced_of_mem
    (hLow : schedule.timezone.localDay now ≤ schedule.timezone.localDay instant)
    (hHigh : schedule.timezone.localDay instant ≤
      schedule.timezone.localDay now + (horizonDays : Int))
    (hMem : schedule.startDate = some instant ∨ schedule.endDate = some instant ∨
      instant ∈ dayCandidates schedule place (schedule.timezone.localDay instant)) :
    Announced schedule place now horizonDays instant := by
  refine hMem.imp_right (Or.imp_right fun hDay => ?_)
  refine ⟨(schedule.timezone.localDay instant - schedule.timezone.localDay now).toNat, by omega, ?_⟩
  rw [Int.toNat_of_nonneg (by omega), add_sub_cancel]
  exact hDay

/-- **The next transition.**  The reported state is always the gate's, and the
reported instant is exact up to 400 days if and only if the gate's first change
within 400 days, if there is one, happens on a scanned date while the local
clock runs on in the first pass of its wall time, or is announced anyway. -/
theorem nextTransition_exact_iff (schedule : Schedule) (place : Option Place) (now : Int) :
    ((nextTransition schedule place now).1 = isWithinWindow schedule place now ∧
      Exact (isWithinWindow schedule place) now (now + (maxScanDays : Int) * day)
        (nextTransition schedule place now).2) ↔
      ∀ instant, FirstChange (isWithinWindow schedule place) now instant →
        instant ≤ now + (maxScanDays : Int) * day →
          Regular schedule now instant ∨ Announced schedule place now maxScanDays instant := by
  have hState : (nextTransition schedule place now).1 = isWithinWindow schedule place now := by
    unfold nextTransition
    split
    · rfl
    · split <;> rfl
  rw [nextTransition_exact_iff_announced]
  constructor
  · rintro ⟨_, hAnnounced⟩ instant hFirst hLimit
    exact Or.inr (hAnnounced instant hFirst hLimit)
  · intro hSeen
    refine ⟨hState, fun instant hFirst hLimit => ?_⟩
    rcases hSeen instant hFirst hLimit with hRegular | hAnnounced
    · exact announced_of_mem hRegular.scanned.1 hRegular.scanned.2
        (mem_dayCandidates_of_change hRegular.steady hFirst.change)
    · exact hAnnounced

/-! ## A window in a repeated hour -/

def overlapSchedule : Schedule where
  enabled := true
  timezone := fallBackZone
  windows := [⟨⟨2, 30, by decide, by decide⟩, ⟨3, 30, by decide, by decide⟩⟩]
  sunWindow := none
  dayOfWeekMask := fullWeekMask
  maskLe := by decide
  startDate := none
  endDate := none

theorem overlap_gate (instant : Int) :
    isWithinWindow overlapSchedule none instant = true ↔
      9000 * second ≤ fallBackZone.localTime instant ∧
        fallBackZone.localTime instant < 12600 * second := by
  have hWeekday : overlapSchedule.allowsWeekday (fallBackZone.localDay instant) = true :=
    allowsWeekday_of_full rfl _
  have hGate : isWithinWindow overlapSchedule none instant =
      (⟨⟨2, 30, by decide, by decide⟩, ⟨3, 30, by decide, by decide⟩⟩ : Window).contains
        (fallBackZone.localTime instant) := by
    simp [isWithinWindow, overlapSchedule, Schedule.inAnyWindow] at hWeekday ⊢
    simp [hWeekday]
  rw [hGate]
  unfold Window.contains
  rw [if_neg (by decide), if_pos (by decide)]
  simp only [Bool.and_eq_true, decide_eq_true_eq]
  rfl

theorem fallBackZone_localTime (instant : Int) :
    fallBackZone.localTime instant =
      (instant + (if instant < 3600 * second then 7200 else 3600) * second) % day := by
  have hOffset : fallBackZone.utcoffset (instant / second) =
      if instant < 3600 * second then 7200 else 3600 := by
    show Zone.stepOffset 7200 3600 3600 (instant / second) = _
    unfold Zone.stepOffset second
    refine if_congr ?_ rfl rfl
    omega
  unfold Zone.localTime Zone.localReading
  rw [hOffset]

theorem overlap_firstChange :
    FirstChange (isWithinWindow overlapSchedule none) (1800 * second) (3600 * second) := by
  have hOpen : ∀ instant, 1800 * second ≤ instant → instant < 3600 * second →
      isWithinWindow overlapSchedule none instant = true := by
    intro instant hLow hHigh
    rw [overlap_gate, fallBackZone_localTime, if_pos hHigh]
    unfold second day second at *
    omega
  refine ⟨by decide, ?_, ?_⟩
  · rw [hOpen _ (le_refl _) (by decide), ne_eq, overlap_gate, fallBackZone_localTime]
    decide
  · intro instant hLow hHigh
    rw [hOpen instant hLow hHigh, hOpen _ (le_refl _) (by decide)]

theorem overlap_not_announced (now : Int) (horizonDays : Nat) (hLow : 1800 * second < instant)
    (hHigh : instant < 9000 * second) :
    ¬ Announced overlapSchedule none now horizonDays instant := by
  rintro (hStart | hEnd | ⟨offset, _, hMem⟩)
  · cases hStart
  · cases hEnd
  · generalize overlapSchedule.timezone.localDay now + (offset : Int) = date at hMem
    simp only [dayCandidates, Schedule.wallTimes, sunCandidates, overlapSchedule,
      List.flatMap_cons, List.flatMap_nil, List.append_nil, List.map_cons, List.map_nil,
      List.mem_cons, List.not_mem_nil, or_false, localWallToUtc, Zone.toUtc, fallBackZone,
      Zone.oneChange, ClockTime.micros, ClockTime.midnight, day, second] at hMem hLow hHigh
    simp at hMem
    omega

/-- Half past two, before the clock is put back: the search reports half past
three of the second pass, but the gate closes when the clock is put back. -/
theorem nextTransition_misses_fold :
    ¬ ((nextTransition overlapSchedule none (1800 * second)).1 =
        isWithinWindow overlapSchedule none (1800 * second) ∧
      Exact (isWithinWindow overlapSchedule none) (1800 * second)
        (1800 * second + (maxScanDays : Int) * day)
        (nextTransition overlapSchedule none (1800 * second)).2) := by
  have hLimit : 3600 * second ≤ 1800 * second + (maxScanDays : Int) * day := by
    simp only [maxScanDays, day, second]
    norm_num
  have hMissed : ¬ Announced overlapSchedule none (1800 * second) maxScanDays
      (3600 * second) := overlap_not_announced _ _ (by decide) (by decide)
  rw [nextTransition_exact_iff_announced]
  exact fun hReport => hMissed (hReport.2 _ overlap_firstChange hLimit)

end TimelapseManager.Capture
