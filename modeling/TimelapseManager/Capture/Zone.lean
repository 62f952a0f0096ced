import Mathlib

/-!
# Instants, local clocks and timezones

An instant is an integer number of microseconds since the epoch, the resolution of `datetime`, and
a local clock reading the microseconds since the local epoch.

A `Zone` is what the evaluators use of a `zoneinfo.ZoneInfo`: the UTC offset in force at a UTC
second, and the offset assigned to a wall-clock second under each `fold`.  `pep495` ties the two
together: where at most one offset change lies within 48 hours of a wall time, `fold=0` keeps the
old offset up to the later, and `fold=1` up to the earlier of the two wall readings of the change.
So a skipped wall time is read with the old offset under `fold=0`, and a repeated one denotes its
first occurrence.
-/

namespace TimelapseManager.Capture

def second : Int := 1000000

def day : Int := 86400 * second

/-- The UTC offset function of a timezone, in seconds, and its reading of wall
times. -/
structure Zone where
  /-- The offset in force at a UTC second. -/
  utcoffset : Int → Int
  /-- The offset assigned to a wall-clock second under a `fold`. -/
  wallOffset : Bool → Int → Int
  /-- `datetime` refuses offsets of a day or more. -/
  bounded : ∀ moment, -86400 < utcoffset moment ∧ utcoffset moment < 86400
  pep495 : ∀ (fold : Bool) (wall change : Int),
    wall - 172800 ≤ change → change ≤ wall + 172800 →
    (∀ moment, wall - 172800 ≤ moment → moment < change →
      utcoffset moment = utcoffset (change - 1)) →
    (∀ moment, change ≤ moment → moment ≤ wall + 172800 → utcoffset moment = utcoffset change) →
    wallOffset fold wall =
      if wall < change + (if fold then min (utcoffset (change - 1)) (utcoffset change)
        else max (utcoffset (change - 1)) (utcoffset change))
      then utcoffset (change - 1) else utcoffset change

namespace Zone

/-- `astimezone(tz)`: the wall-clock reading at an instant. -/
def localReading (zone : Zone) (instant : Int) : Int :=
  instant + zone.utcoffset (instant / second) * second

/-- `astimezone(UTC)` of a wall-clock reading under a `fold`. -/
def toUtc (zone : Zone) (fold : Bool) (wall : Int) : Int :=
  wall - zone.wallOffset fold (wall / second) * second

def localDay (zone : Zone) (instant : Int) : Int :=
  zone.localReading instant / day

def localTime (zone : Zone) (instant : Int) : Int :=
  zone.localReading instant % day

theorem localReading_eq (zone : Zone) (instant : Int) :
    zone.localReading instant = zone.localDay instant * day + zone.localTime instant := by
  rw [Int.mul_comm]
  exact (Int.mul_ediv_add_emod _ _).symm

def stepOffset (before change after moment : Int) : Int :=
  if moment < change then before else after

theorem stepOffset_pep495 {before change after : Int} (hBefore : -86400 < before ∧ before < 86400)
    (hAfter : -86400 < after ∧ after < 86400) (fold : Bool) (wall other : Int)
    (hLow : wall - 172800 ≤ other) (hHigh : other ≤ wall + 172800)
    (hOld : ∀ moment, wall - 172800 ≤ moment → moment < other →
      stepOffset before change after moment = stepOffset before change after (other - 1))
    (hNew : ∀ moment, other ≤ moment → moment ≤ wall + 172800 →
      stepOffset before change after moment = stepOffset before change after other) :
    (if wall < change + (if fold then min before after else max before after)
      then before else after) =
      if wall < other + (if fold
          then min (stepOffset before change after (other - 1))
            (stepOffset before change after other)
          else max (stepOffset before change after (other - 1))
            (stepOffset before change after other))
      then stepOffset before change after (other - 1)
      else stepOffset before change after other := by
  by_cases hEqual : before = after
  · subst hEqual
    simp [stepOffset]
  -- With two different offsets the change is `other` itself, or far away.
  have hPlace : other = change ∨ (change ≤ wall - 172800 ∧ change < other) ∨
      wall + 172800 < change := by
    by_contra hNot
    rcases lt_trichotomy other change with hLt | hEq | hGt
    · have hSame := hNew (wall + 172800) hHigh (le_refl _)
      rw [stepOffset, stepOffset, if_neg (by omega), if_pos hLt] at hSame
      exact hEqual hSame.symm
    · exact hNot (Or.inl hEq)
    · have hSame := hOld (wall - 172800) (le_refl _) (by omega)
      rw [stepOffset, stepOffset, if_pos (by omega), if_neg (by omega)] at hSame
      exact hEqual hSame
  rcases hPlace with rfl | ⟨hFar, hLater⟩ | hFar
  · rw [show stepOffset before other after (other - 1) = before from if_pos (by omega),
      show stepOffset before other after other = after from if_neg (by omega)]
  · rw [show stepOffset before change after (other - 1) = after from if_neg (by omega),
      show stepOffset before change after other = after from if_neg (by omega),
      if_neg (by omega)]
    simp
  · rw [show stepOffset before change after (other - 1) = before from if_pos (by omega),
      show stepOffset before change after other = before from if_pos (by omega),
      if_pos (by omega)]
    simp

/-- A zone with one offset change.  A fixed-offset zone is the case
`before = after`. -/
def oneChange (before change after : Int) (hBefore : -86400 < before ∧ before < 86400)
    (hAfter : -86400 < after ∧ after < 86400) : Zone where
  utcoffset := stepOffset before change after
  wallOffset := fun fold wall =>
    if wall < change + (if fold then min before after else max before after)
    then before else after
  bounded := by
    intro moment
    unfold stepOffset
    split
    · exact hBefore
    · exact hAfter
  pep495 := stepOffset_pep495 hBefore hAfter

def utc : Zone where
  utcoffset := fun _ => 0
  wallOffset := fun _ _ => 0
  bounded := fun _ => by omega
  pep495 := by
    intro fold wall change _ _ _ _
    exact (ite_self _).symm

end Zone

/-- A zone that puts its clock forward from 02:00 to 03:00, one hour into the UTC day `0`. -/
def springZone : Zone :=
  Zone.oneChange 3600 3600 7200 (by decide) (by decide)

/-- A zone that puts its clock back from 03:00 to 02:00, one hour into the UTC day `0`. -/
def fallBackZone : Zone :=
  Zone.oneChange 7200 3600 3600 (by decide) (by decide)

/-- `date.weekday()` of a day number: Monday is `0`, and day `0` is a Thursday. -/
def weekday (date : Int) : Nat :=
  ((date + 3) % 7).toNat

end TimelapseManager.Capture
