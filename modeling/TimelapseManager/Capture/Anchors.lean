import TimelapseManager.Capture.Schedule

/-!
# Exact-time anchors

`capture/anchors.py`: when an anchor fires, which anchors are due at an instant,
and how long a failed attempt waits for its retry.

A clock anchor fires at its wall time on a base date, shifted by its offset.  A
wall time that `fold=0` does not round-trip was skipped by the local clock; it is
replaced by the moment the clock resumes, which `_first_valid_instant_after_gap`
finds by bisection over whole seconds.

A solar anchor fires at what astral answers in the zone that governs it; a
missing location is `none`.
-/

namespace TimelapseManager.Capture

/-! ## Anchors -/

/-- The kind of an anchor.  `parse_anchors` keeps a time for clock anchors only. -/
inductive AnchorKind
  | clock (time : ClockTime)
  | solarNoon
  | sunrise
  | sunset
  deriving DecidableEq

def AnchorKind.isSolar : AnchorKind → Bool
  | .clock _ => false
  | .solarNoon | .sunrise | .sunset => true

/-- A parsed anchor.  `_parse_offset` bounds the offset to twelve hours. -/
structure Anchor where
  id : String
  kind : AnchorKind
  offsetMinutes : Int
  enabled : Bool
  offsetBounded : -720 ≤ offsetMinutes ∧ offsetMinutes ≤ 720
  deriving DecidableEq

/-- An enabled clock anchor without an offset. -/
def Anchor.atTime (id : String) (time : ClockTime) : Anchor :=
  ⟨id, .clock time, 0, true, by decide⟩

def Anchor.offset (anchor : Anchor) : Int :=
  anchor.offsetMinutes * 60 * second

def exactTimeGrace : Int := 30 * 60 * second

/-! ## Fire instants -/

/-- `_clock_fire_local`: the wall reading a clock anchor fires at. -/
def clockFireLocal (anchor : Anchor) (time : ClockTime) (date : Int) : Int :=
  date * day + time.micros + anchor.offset

/-- `_wall_time_exists`: the reading round-trips through UTC under `fold=0`. -/
def wallTimeExists (zone : Zone) (wall : Int) : Bool :=
  zone.localReading (zone.toUtc false wall) = wall

/-- The loop of `_first_valid_instant_after_gap`, over POSIX seconds.  Every round makes `hi - lo`
smaller, so the loop ends. -/
def bisectOffset (zone : Zone) (postOffset lo hi : Int) : Int :=
  if 1 < hi - lo then
    let mid := (lo + hi) / 2
    if zone.utcoffset mid = postOffset then bisectOffset zone postOffset lo mid
    else bisectOffset zone postOffset mid hi
  else hi
termination_by (hi - lo).toNat

/-- `_first_valid_instant_after_gap`, as the UTC instant it denotes.  Wall times
and offsets are whole seconds, so the timestamps are too. -/
def firstValidInstantAfterGap (zone : Zone) (wall : Int) : Int :=
  let before := zone.toUtc true wall
  let after := zone.toUtc false wall
  let postOffset := zone.utcoffset (after / second)
  bisectOffset zone postOffset (before / second) (after / second) * second

def clockFireInstant (anchor : Anchor) (time : ClockTime) (zone : Zone) (date : Int) : Int :=
  let fireLocal := clockFireLocal anchor time date
  if wallTimeExists zone fireLocal then zone.toUtc false fireLocal
  else firstValidInstantAfterGap zone fireLocal

def anchorFireInstant (anchor : Anchor) (date : Int) (zone : Zone) (place : Option Place) :
    Option Int :=
  match anchor.kind with
  | .clock time => some (clockFireInstant anchor time zone date)
  | .solarNoon => place.bind fun place => (place.solarNoon date).map (· + anchor.offset)
  | .sunrise => place.bind fun place => (place.sunTimes date).1.map (· + anchor.offset)
  | .sunset => place.bind fun place => (place.sunTimes date).2.map (· + anchor.offset)

/-! ## Due anchors -/

/-- A due-now decision.  The local date is the base date the fire is keyed to. -/
structure AnchorDecision where
  anchor : Anchor
  localDate : Int
  instant : Option Int
  withinGrace : Bool
  hasGeo : Bool
  deriving DecidableEq

def effectiveZone (anchor : Anchor) (zone : Zone) (solarZone : Option Zone) : Zone :=
  if anchor.kind.isSolar then solarZone.getD zone else zone

/-- One round of the loop over base dates: keep the most recent due instant, with
its base. -/
def keepDue (now : Int) (fire : Int → Option Int) (due : Option (Int × Int)) (base : Int) :
    Option (Int × Int) :=
  match fire base with
  | none => due
  | some instant =>
    if now < instant then due
    else
      match due with
      | none => some (instant, base)
      | some (best, _) => if best < instant then some (instant, base) else due

/-- The decision of one enabled anchor, or none while nothing is due. -/
def dueAnchor (anchor : Anchor) (now : Int) (zone : Zone) (place : Option Place) (grace : Int)
    (solarZone : Option Zone) : Option AnchorDecision :=
  let effective := effectiveZone anchor zone solarZone
  let today := effective.localDay now
  if anchor.kind.isSolar && place.isNone then
    some ⟨anchor, today, none, false, false⟩
  else
    match [today + 1, today, today - 1].foldl
        (keepDue now fun base => anchorFireInstant anchor base effective place) none with
    | none => none
    | some (instant, base) => some ⟨anchor, base, some instant, now ≤ instant + grace, true⟩

def dueAnchors (anchors : List Anchor) (now : Int) (zone : Zone) (place : Option Place)
    (grace : Int) (solarZone : Option Zone) : List AnchorDecision :=
  (anchors.filter fun anchor => anchor.enabled).filterMap fun anchor =>
    dueAnchor anchor now zone place grace solarZone

/-! ## Retries -/

def anchorRetryBase : Int := 15 * second

def anchorMaxAttempts : Nat := 7

def anchorAuthMaxAttempts : Nat := 2

def anchorRetryGraceMargin : Int := 30 * second

/-- `anchor_retry_delay`: the wait before the next attempt, or `none` when the
failure is final. -/
def anchorRetryDelay (attempts : Nat) (remaining : Int) (auth : Bool) : Option Int :=
  let limit := if auth then anchorAuthMaxAttempts else anchorMaxAttempts
  if attempts < 1 || limit ≤ attempts then none
  else
    let delay := anchorRetryBase * 2 ^ (attempts - 1)
    if remaining - anchorRetryGraceMargin < delay then none else some delay

end TimelapseManager.Capture
