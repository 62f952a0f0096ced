import TimelapseManager.Capture.Anchors

/-!
# The fire instants of a clock anchor

A timezone whose offset changes are small and far apart has at most one change near a wall time,
and PEP 495 says how `zoneinfo` reads the wall time there.  So a clock anchor fires at the first
second whose local reading is at or past its wall time (`clockFireInstant_eq`): at the wall time
itself, at its first occurrence if it is repeated, and when the clock resumes if it is skipped.
-/

namespace TimelapseManager.Capture

open Sampling

/-- Offset changes of less than eleven hours, at least four days apart. -/
structure SpacedChanges (zone : Zone) : Prop where
  small : ∀ moment, -39600 < zone.utcoffset moment - zone.utcoffset (moment - 1) ∧
    zone.utcoffset moment - zone.utcoffset (moment - 1) < 39600
  apart : ∀ first second, first < second → Change zone.utcoffset first →
    Change zone.utcoffset second → 345600 ≤ second - first

/-- At most one offset change within 48 hours of a wall second. -/
def OneChangeNear (zone : Zone) (wall : Int) : Prop :=
  ∀ first second, wall - 172800 < first → first < second → second ≤ wall + 172800 →
    Change zone.utcoffset first → ¬Change zone.utcoffset second

variable {moment : Int}

namespace SpacedChanges

variable {zone : Zone} (hSpaced : SpacedChanges zone)
include hSpaced

theorem drift {start stop : Int} (hRange : start ≤ stop) (hShort : stop - start ≤ 345600) :
    -39600 < zone.utcoffset stop - zone.utcoffset start ∧
      zone.utcoffset stop - zone.utcoffset start < 39600 := by
  rcases hRange.eq_or_lt with hEq | hLt
  · subst hEq
    omega
  · obtain ⟨change, hStart, hStop, hOld, hNew⟩ := exists_step hLt (by
      intro first second hFirst hLt hSecond hChange hOther
      have hApart := hSpaced.apart first second hLt hChange hOther
      omega)
    rw [hOld start (le_refl start) hStart, hNew stop hStop (le_refl stop)]
    exact hSpaced.small change

theorem eq_of_change {change : Int} (hChange : Change zone.utcoffset change)
    (hLow : change ≤ moment) (hHigh : moment - change < 345600) :
    zone.utcoffset moment = zone.utcoffset change := by
  apply eq_of_no_change _ hLow (le_refl moment)
  intro other hOther hLe hBoth
  have hApart := hSpaced.apart change other hOther hChange hBoth
  omega

theorem near (wall : Int) : OneChangeNear zone wall := by
  intro first second hFirst hLt hSecond hChange hOther
  have hApart := hSpaced.apart first second hLt hChange hOther
  omega

end SpacedChanges

theorem OneChangeNear.wallOffset_eq {zone : Zone} {wall : Int} (hNear : OneChangeNear zone wall) :
    ∃ change, wall - 172800 < change ∧ change ≤ wall + 172800 ∧
      (∀ moment, wall - 172800 ≤ moment → moment < change →
        zone.utcoffset moment = zone.utcoffset (change - 1)) ∧
      (∀ moment, change ≤ moment → moment ≤ wall + 172800 →
        zone.utcoffset moment = zone.utcoffset change) ∧
      (zone.wallOffset false wall =
        if wall < change + max (zone.utcoffset (change - 1)) (zone.utcoffset change)
        then zone.utcoffset (change - 1) else zone.utcoffset change) ∧
      (zone.wallOffset true wall =
        if wall < change + min (zone.utcoffset (change - 1)) (zone.utcoffset change)
        then zone.utcoffset (change - 1) else zone.utcoffset change) := by
  obtain ⟨change, hLow, hHigh, hOld, hNew⟩ := exists_step (by omega) hNear
  refine ⟨change, hLow, hHigh, hOld, hNew, ?_, ?_⟩
  · rw [zone.pep495 false wall change hLow.le hHigh hOld hNew]
    simp
  · rw [zone.pep495 true wall change hLow.le hHigh hOld hNew]
    simp

/-! ## The bisection -/

/-- The loop finds the second at which the new offset begins. -/
theorem bisectOffset_eq {zone : Zone} {postOffset change lo hi : Int} (hLow : lo < change)
    (hHigh : change ≤ hi)
    (hOld : ∀ moment, lo ≤ moment → moment < change → zone.utcoffset moment ≠ postOffset)
    (hNew : ∀ moment, change ≤ moment → moment ≤ hi → zone.utcoffset moment = postOffset) :
    bisectOffset zone postOffset lo hi = change := by
  fun_induction bisectOffset zone postOffset lo hi with
  | case1 lo hi hWide mid hPost ih =>
    -- The middle has the new offset: the change is not after it.
    have hMid : change ≤ mid := by
      by_contra hBefore
      exact hOld mid (by omega) (by omega) hPost
    exact ih hLow hMid hOld fun moment hMoment hLe => hNew moment hMoment (by omega)
  | case2 lo hi hWide mid hPre ih =>
    have hMid : mid < change := by
      by_contra hAfter
      exact hPre (hNew mid (by omega) (by omega))
    exact ih hMid hHigh (fun moment hMoment hLt => hOld moment (by omega) hLt) hNew
  | case3 lo hi hNarrow => omega

/-! ## The first second at or past a wall time -/

/-- The first second, within two days before it, whose local reading is at or
past a wall second.  It reads the wall time exactly, or the clock jumps there. -/
structure FirstReach (zone : Zone) (wall moment : Int) : Prop where
  near : wall - 86400 < moment ∧ moment < wall + 86400
  reached : wall ≤ moment + zone.utcoffset moment
  before : ∀ earlier, wall - 172800 ≤ earlier → earlier < moment →
    earlier + zone.utcoffset earlier < wall
  exact : moment + zone.utcoffset moment = wall ∨ Change zone.utcoffset moment

def clockFireSecond (anchor : Anchor) (time : ClockTime) (date : Int) : Int :=
  date * 86400 + ((time.hour * 60 + time.minute : Nat) : Int) * 60 + anchor.offsetMinutes * 60

theorem clockFireLocal_eq (anchor : Anchor) (time : ClockTime) (date : Int) :
    clockFireLocal anchor time date = clockFireSecond anchor time date * second := by
  unfold clockFireLocal clockFireSecond ClockTime.micros Anchor.offset day
  ring

theorem toUtc_mul_second (zone : Zone) (fold : Bool) (wall : Int) :
    zone.toUtc fold (wall * second) = (wall - zone.wallOffset fold wall) * second := by
  unfold Zone.toUtc
  rw [Int.mul_ediv_cancel wall (by decide : second ≠ 0)]
  ring

theorem localReading_mul_second (zone : Zone) (moment : Int) :
    zone.localReading (moment * second) = (moment + zone.utcoffset moment) * second := by
  unfold Zone.localReading
  rw [Int.mul_ediv_cancel moment (by decide : second ≠ 0)]
  ring

theorem wallTimeExists_iff (zone : Zone) (wall : Int) :
    wallTimeExists zone (wall * second) = true ↔
      zone.utcoffset (wall - zone.wallOffset false wall) = zone.wallOffset false wall := by
  unfold wallTimeExists
  rw [toUtc_mul_second, localReading_mul_second, decide_eq_true_eq]
  unfold second
  omega

section Instants

variable {zone : Zone} {wall : Int}

section Near

variable (hNear : OneChangeNear zone wall)
include hNear

theorem FirstReach.of_exists
    (hExists : zone.utcoffset (wall - zone.wallOffset false wall) = zone.wallOffset false wall) :
    FirstReach zone wall (wall - zone.wallOffset false wall) := by
  obtain ⟨change, hLow, hHigh, hOld, hNew, hFold, _⟩ := hNear.wallOffset_eq
  have hBound := zone.bounded (wall - zone.wallOffset false wall)
  have hReads : wall - zone.wallOffset false wall +
      zone.utcoffset (wall - zone.wallOffset false wall) = wall := by omega
  refine ⟨by omega, hReads.ge, ?_, Or.inl hReads⟩
  intro earlier hEarlier hLt
  by_cases hOldSide : earlier < change
  · rw [hOld earlier hEarlier hOldSide]
    split at hFold
    · omega
    · -- Read with the new offset: both readings of the change are past.
      omega
  · -- Both seconds are past the change, so they have one offset.
    have hSame := hNew (wall - zone.wallOffset false wall) (by omega) (by omega)
    have hOffset := hNew earlier (by omega) (by omega)
    omega

theorem FirstReach.of_gap (hMissing : zone.utcoffset (wall - zone.wallOffset false wall) ≠
      zone.wallOffset false wall) :
    ∃ moment, FirstReach zone wall moment ∧ Change zone.utcoffset moment ∧
      (∀ other, other + zone.utcoffset other ≠ wall) ∧
      bisectOffset zone (zone.utcoffset (wall - zone.wallOffset false wall))
        (wall - zone.wallOffset true wall) (wall - zone.wallOffset false wall) = moment := by
  obtain ⟨change, hLow, hHigh, hOld, hNew, hFold, hOther⟩ := hNear.wallOffset_eq
  have hOldBound := zone.bounded (change - 1)
  have hNewBound := zone.bounded change
  have hBefore : wall < change + max (zone.utcoffset (change - 1)) (zone.utcoffset change) := by
    by_contra hPast
    rw [if_neg hPast] at hFold
    rw [hFold] at hMissing
    exact hMissing (hNew _ (by omega) (by omega))
  rw [if_pos hBefore] at hFold
  rw [hFold] at hMissing
  have hSkipped : change + zone.utcoffset (change - 1) ≤ wall := by
    by_contra hEarly
    exact hMissing (hOld _ (by omega) (by omega))
  -- The clock was put forward over the wall time.
  have hForward : zone.utcoffset (change - 1) < zone.utcoffset change := by
    by_contra hNotForward
    omega
  have hPost : zone.utcoffset (wall - zone.utcoffset (change - 1)) = zone.utcoffset change :=
    hNew _ (by omega) (by omega)
  have hChange : Change zone.utcoffset change := by
    unfold Change
    omega
  refine ⟨change, ⟨by omega, by omega, ?_, Or.inr hChange⟩, hChange, ?_, ?_⟩
  · intro earlier hEarlier hLt
    rw [hOld earlier hEarlier hLt]
    omega
  · intro other hReads
    have hBound := zone.bounded other
    by_cases hOldSide : other < change
    · have hOffset := hOld other (by omega) hOldSide
      omega
    · have hOffset := hNew other (by omega) (by omega)
      omega
  · rw [hFold, hOther] at *
    rw [hPost]
    apply bisectOffset_eq
    · omega
    · omega
    · intro moment hMoment hLt
      rw [hOld moment (by omega) hLt]
      omega
    · intro moment hMoment hLe
      exact hNew moment hMoment (by omega)

end Near

theorem firstValidInstantAfterGap_eq (zone : Zone) (wall : Int) :
    firstValidInstantAfterGap zone (wall * second) =
      bisectOffset zone (zone.utcoffset (wall - zone.wallOffset false wall))
        (wall - zone.wallOffset true wall) (wall - zone.wallOffset false wall) * second := by
  unfold firstValidInstantAfterGap
  simp only [toUtc_mul_second, Int.mul_ediv_cancel _ (by decide : second ≠ 0)]

theorem clockFireInstant_eq (anchor : Anchor) (time : ClockTime) (date : Int)
    (hNear : OneChangeNear zone (clockFireSecond anchor time date)) :
    ∃ moment, clockFireInstant anchor time zone date = moment * second ∧
      FirstReach zone (clockFireSecond anchor time date) moment := by
  unfold clockFireInstant
  simp only [clockFireLocal_eq, wallTimeExists_iff]
  split
  · rename_i hExists
    exact ⟨_, toUtc_mul_second zone false _, FirstReach.of_exists hNear hExists⟩
  · rename_i hMissing
    obtain ⟨moment, hReach, -, -, hBisect⟩ := FirstReach.of_gap hNear hMissing
    refine ⟨moment, ?_, hReach⟩
    rw [firstValidInstantAfterGap_eq, hBisect]

variable (hSpaced : SpacedChanges zone)
include hSpaced

theorem FirstReach.reading_lt (hReach : FirstReach zone wall moment) :
    moment + zone.utcoffset moment < wall + 39600 := by
  have hNear := hReach.near
  have hEarlier := hReach.before (moment - 1) (by omega) (by omega)
  have hSmall := hSpaced.small moment
  omega

theorem FirstReach.next_day {next : Int} (hReach : FirstReach zone wall moment)
    (hNext : FirstReach zone (wall + 86400) next) : moment + 46800 ≤ next := by
  have hNear := hReach.near
  have hNextNear := hNext.near
  have hReached := hNext.reached
  have hReading := hReach.reading_lt hSpaced
  have hLater : moment < next := by
    by_contra hNotLater
    rcases (not_lt.mp hNotLater).eq_or_lt with hEq | hLt
    · rw [hEq] at hReached
      omega
    · have hEarlier := hReach.before next (by omega) hLt
      omega
  rcases hReach.exact with hReads | hChange
  · have hDrift := hSpaced.drift hLater.le (by omega)
    omega
  · have hSame := hSpaced.eq_of_change hChange hLater.le (by omega)
    omega

theorem FirstReach.reading_near {later : Int} (hReach : FirstReach zone wall moment)
    (hLow : moment ≤ later) (hHigh : later < moment + 1800) :
    wall - 39600 < later + zone.utcoffset later ∧ later + zone.utcoffset later < wall + 41400 := by
  have hReached := hReach.reached
  have hReading := hReach.reading_lt hSpaced
  rcases hReach.exact with hReads | hChange
  · have hDrift := hSpaced.drift hLow (by omega)
    omega
  · have hSame := hSpaced.eq_of_change hChange hLow (by omega)
    omega

end Instants

/-! ## The least instant -/

section Least

variable {zone : Zone} {wall : Int}

theorem FirstReach.isLeast (hReach : FirstReach zone wall moment) :
    IsLeast {instant | wall * second ≤ zone.localReading instant} (moment * second) := by
  constructor
  · have hReached := hReach.reached
    change wall * second ≤ zone.localReading (moment * second)
    rw [localReading_mul_second]
    unfold second
    omega
  · intro instant hInstant
    by_contra hEarly
    -- Two days before, no offset reaches the wall time.
    have hBefore : instant / second + zone.utcoffset (instant / second) < wall := by
      by_cases hFar : wall - 172800 ≤ instant / second
      · exact hReach.before _ hFar (by unfold second at *; omega)
      · have hBound := zone.bounded (instant / second)
        omega
    change wall * second ≤ zone.localReading instant at hInstant
    unfold Zone.localReading at hInstant
    generalize zone.utcoffset (instant / second) = offset at hBefore hInstant
    unfold second at *
    omega

theorem reads_iff {instant : Int} :
    zone.localReading instant = wall * second ↔
      ∃ moment, instant = moment * second ∧ moment + zone.utcoffset moment = wall := by
  constructor
  · intro hReads
    refine ⟨instant / second, ?_⟩
    unfold Zone.localReading at hReads
    generalize zone.utcoffset (instant / second) = offset at hReads ⊢
    unfold second at *
    omega
  · rintro ⟨moment, rfl, rfl⟩
    exact localReading_mul_second zone moment

end Least

/-- A clock anchor fires at the least instant whose local reading is at or past its wall time.
Where some instant reads the wall time, this is the ordinary conversion and the first such instant;
where none does, it is the transition, and no further round of the bisection changes it. -/
theorem anchorFireInstant_least {anchor : Anchor} {time : ClockTime}
    (hKind : anchor.kind = .clock time) (date : Int) (zone : Zone) (place : Option Place)
    (hNear : OneChangeNear zone (clockFireSecond anchor time date)) :
    let wall := clockFireLocal anchor time date
    ∃ fire, anchorFireInstant anchor date zone place = some fire ∧
      IsLeast {instant | wall ≤ zone.localReading instant} fire ∧
      ((∃ instant, zone.localReading instant = wall) →
        fire = zone.toUtc false wall ∧ IsLeast {instant | zone.localReading instant = wall} fire) ∧
      ((∀ instant, zone.localReading instant ≠ wall) →
        ∃ change, Change zone.utcoffset change ∧ fire = change * second) := by
  intro wall
  refine ⟨clockFireInstant anchor time zone date, by simp [anchorFireInstant, hKind], ?_⟩
  have hWall : wall = clockFireSecond anchor time date * second := clockFireLocal_eq _ _ _
  unfold clockFireInstant
  simp only [← show wall = clockFireLocal anchor time date from rfl, hWall, wallTimeExists_iff]
  generalize clockFireSecond anchor time date = target at hNear ⊢
  split
  · rename_i hExists
    have hReach := FirstReach.of_exists hNear hExists
    have hReads : zone.localReading (zone.toUtc false (target * second)) = target * second := by
      rw [toUtc_mul_second]
      exact reads_iff.mpr ⟨_, rfl, by omega⟩
    have hLeast := hReach.isLeast
    rw [← toUtc_mul_second] at hLeast
    refine ⟨hLeast, fun _ => ⟨rfl, hReads, ?_⟩, fun hNone => absurd hReads (hNone _)⟩
    intro instant hInstant
    exact hLeast.2 hInstant.ge
  · rename_i hMissing
    obtain ⟨moment, hReach, hChange, hNone, hBisect⟩ := FirstReach.of_gap hNear hMissing
    rw [firstValidInstantAfterGap_eq, hBisect]
    refine ⟨hReach.isLeast, ?_, fun _ => ⟨moment, hChange, rfl⟩⟩
    rintro ⟨instant, hReads⟩
    obtain ⟨other, -, hOther⟩ := reads_iff.mp hReads
    exact absurd hOther (hNone other)

/-! A night in spring. -/

theorem springZone_spaced : SpacedChanges springZone := by
  have hOffset : ∀ moment, springZone.utcoffset moment =
      if moment < 3600 then 3600 else 7200 := fun _ => rfl
  have hOnly : ∀ moment, Sampling.Change springZone.utcoffset moment → moment = 3600 := by
    intro moment hChange
    by_contra hOther
    apply hChange
    rw [hOffset, hOffset]
    split <;> split <;> omega
  constructor
  · intro moment
    rw [hOffset, hOffset]
    split <;> split <;> omega
  · intro first second hLt hFirst hSecond
    rw [hOnly first hFirst, hOnly second hSecond] at hLt
    omega

/-- An anchor at 02:30, a wall time that is skipped on day `0`. -/
def nightAnchor : Anchor :=
  .atTime "night" (.ofFin 2 30)

/-- It fires when the clock resumes. -/
theorem anchorFireInstant_least_in_gap :
    anchorFireInstant nightAnchor 0 springZone none = some (3600 * second) ∧
      IsLeast {instant | 9000 * second ≤ springZone.localReading instant} (3600 * second) := by
  obtain ⟨fire, hFire, hLeast, -, -⟩ :=
    anchorFireInstant_least (show nightAnchor.kind = .clock _ from rfl) 0 springZone none
      (springZone_spaced.near _)
  have hInstant : anchorFireInstant nightAnchor 0 springZone none = some (3600 * second) := by
    decide +kernel
  rw [hInstant] at hFire
  cases hFire
  exact ⟨hInstant, hLeast⟩

end TimelapseManager.Capture
