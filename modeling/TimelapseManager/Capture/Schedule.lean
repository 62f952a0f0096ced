import TimelapseManager.Capture.Zone
import TimelapseManager.Lib.Sampling

/-!
# Capture-gating schedules

`capture/schedule.py`: the gate `is_within_window`, the search for its next change
`next_transition`, and the open stretches of a range `open_stretches`.

A `Place` is what the evaluator sees of astral at one latitude and longitude: for each local date a
sunrise and a sunset instant or none, and the noon tiebreak for the days without.  The two searches
evaluate the gate at the instants of `iterCandidates` only, which are built from local wall times,
each converted to *one* instant under `fold=0`.
-/

namespace TimelapseManager.Capture

open Sampling

/-! ## Schedules -/

structure ClockTime where
  hour : Nat
  minute : Nat
  hourLt : hour < 24
  minuteLt : minute < 60
  deriving DecidableEq

def ClockTime.micros (time : ClockTime) : Int :=
  ((time.hour * 60 + time.minute : Nat) : Int) * 60 * second

/-- So that every literal hour and minute is built with one instance. -/
instance neZeroHours : NeZero 24 := inferInstance

instance neZeroMinutes : NeZero 60 := inferInstance

def ClockTime.ofFin (hour : Fin 24) (minute : Fin 60) : ClockTime :=
  ⟨hour, minute, hour.isLt, minute.isLt⟩

def ClockTime.midnight : ClockTime := ⟨0, 0, by decide, by decide⟩

structure Window where
  startTime : ClockTime
  endTime : ClockTime
  deriving DecidableEq

def Window.contains (window : Window) (current : Int) : Bool :=
  let start := window.startTime.micros
  let stop := window.endTime.micros
  if start = stop then true
  else if start < stop then start ≤ current && current < stop
  else current ≥ start || current < stop

inductive SunEvent
  | sunrise
  | sunset
  deriving DecidableEq, Repr

structure SunAnchor where
  anchor : SunEvent
  offsetMinutes : Int
  deriving DecidableEq, Repr

/-- A parsed schedule.  `parse_schedule` resolves the timezone and checks every
clock time and the range of the mask. -/
structure Schedule where
  enabled : Bool
  timezone : Zone
  windows : List Window
  sunWindow : Option (SunAnchor × SunAnchor)
  dayOfWeekMask : Nat
  maskLe : dayOfWeekMask ≤ 127
  startDate : Option Int
  endDate : Option Int

def fullWeekMask : Nat := 127

variable (schedule : Schedule)

def Schedule.isAlwaysOpen : Bool :=
  schedule.enabled = false || (schedule.windows.isEmpty && schedule.sunWindow.isNone &&
    schedule.dayOfWeekMask = fullWeekMask && schedule.startDate.isNone &&
    schedule.endDate.isNone)

/-- What astral answers at one location, in one timezone: `compute_sun_times`,
`_sun_is_up_at_noon` and `compute_solar_noon`, by local date. -/
structure Place where
  sunTimes : Int → Option Int × Option Int
  sunIsUpAtNoon : Int → Bool
  solarNoon : Int → Option Int

/-! ## The gate -/

def anchorInstant (anchor : SunAnchor) (sunrise sunset : Int) : Int :=
  (match anchor.anchor with
    | .sunrise => sunrise
    | .sunset => sunset) + anchor.offsetMinutes * 60 * second

variable (place : Option Place)

/-- `_in_sun_window`, at an instant whose local date is `onDate`. -/
def inSunWindow (onDate now : Int) : Bool :=
  match schedule.sunWindow, place with
  | none, _ => false
  | some _, none => false
  | some (openAnchor, closeAnchor), some place =>
    match place.sunTimes onDate with
    | (some sunrise, some sunset) =>
      let openAt := anchorInstant openAnchor sunrise sunset
      let closeAt := anchorInstant closeAnchor sunrise sunset
      if openAt ≤ closeAt then openAt ≤ now && now < closeAt
      else now ≥ openAt || now < closeAt
    | _ => place.sunIsUpAtNoon onDate

def Schedule.allowsWeekday (date : Int) : Bool :=
  (schedule.dayOfWeekMask >>> weekday date) % 2 = 1

/-- Clock windows and sun window together; without either the whole day. -/
def Schedule.inAnyWindow (date time now : Int) : Bool :=
  let hasClock := !schedule.windows.isEmpty
  let hasSun := schedule.sunWindow.isSome
  if !hasClock && !hasSun then true
  else
    (hasClock && schedule.windows.any fun window => window.contains time) ||
      (hasSun && inSunWindow schedule place date now)

/-- `is_within_window`: whether the gate is open at the instant `now`. -/
def isWithinWindow (now : Int) : Bool :=
  if schedule.enabled = false then true
  else if (schedule.startDate.any fun bound => now < bound) then false
  else if (schedule.endDate.any fun bound => bound ≤ now) then false
  else
    let date := schedule.timezone.localDay now
    if !schedule.allowsWeekday date then false
    else schedule.inAnyWindow place date (schedule.timezone.localTime now) now

/-! ## Candidates -/

def maxScanDays : Nat := 400

def localWallToUtc (zone : Zone) (date : Int) (wall : ClockTime) : Int :=
  zone.toUtc false (date * day + wall.micros)

/-- The wall times at which a clock window or the weekday can flip. -/
def Schedule.wallTimes : List ClockTime :=
  .midnight :: schedule.windows.flatMap fun window => [window.startTime, window.endTime]

/-- The sun anchors of one local date, when the sun rises and sets on it. -/
def sunCandidates (date : Int) : List Int :=
  match schedule.sunWindow, place with
  | some (openAnchor, closeAnchor), some place =>
    match place.sunTimes date with
    | (some sunrise, some sunset) =>
      [anchorInstant openAnchor sunrise sunset, anchorInstant closeAnchor sunrise sunset]
    | _ => []
  | _, _ => []

def dayCandidates (date : Int) : List Int :=
  (schedule.wallTimes.map fun wall => localWallToUtc schedule.timezone date wall) ++
    sunCandidates schedule place date

def allCandidates (now : Int) (horizonDays : Nat) : List Int :=
  schedule.startDate.toList ++ schedule.endDate.toList ++
    (List.range (horizonDays + 1)).flatMap fun (offset : Nat) =>
      dayCandidates schedule place (schedule.timezone.localDay now + (offset : Int))

/-- `_iter_candidates`: the distinct candidates in `(now, horizon]`, sorted. -/
def iterCandidates (now : Int) (horizonDays : Nat) : List Int :=
  (((allCandidates schedule place now horizonDays).filter fun candidate =>
    now < candidate && candidate ≤ now + (horizonDays : Int) * day).dedup).insertionSort (· ≤ ·)

/-! ## The two searches -/

/-- `next_transition`: the state of the gate and the first candidate at which it
differs. -/
def nextTransition (now : Int) : Bool × Option Int :=
  let openNow := isWithinWindow schedule place now
  if schedule.isAlwaysOpen then (openNow, none)
  else if (schedule.endDate.any fun bound => bound ≤ now) then (openNow, none)
  else
    (openNow, scan (isWithinWindow schedule place) now
      (iterCandidates schedule place now maxScanDays))

def spanDays (start stop : Int) : Nat :=
  ((stop - start) / day + 1).toNat

/-- `open_stretches`: the open stretches of `[start, stop)`. -/
def openStretches (start stop : Int) : List (Int × Int) :=
  if stop ≤ start then []
  else if schedule.isAlwaysOpen then [(start, stop)]
  else
    stretches (isWithinWindow schedule place) start stop
      ((iterCandidates schedule place start (spanDays start stop)).filter (· < stop))

end TimelapseManager.Capture
