import TimelapseManager.Capture.AnchorInstants

/-!
# Which base date is due

`due_anchors` scans yesterday, today and tomorrow and keeps the latest instant
that is not in the future.  For a clock anchor the instants increase with the
base date, so the date it keeps is the last one whose instant has come; and
within the grace after an instant its base date is one of the three.

* `dueAnchor_sound`: no decision before its instant.
* `dueAnchor_within_grace`: within the grace after the instant of a base date,
  the decision is keyed to that date and within grace.
-/

namespace TimelapseManager.Capture

/-! ## The loop over base dates -/

variable {base now grace : Int} {fire : Int → Int} {place : Option Place} {solarZone : Option Zone}

/-- What the loop keeps is the instant of a scanned base date, and it has come. -/
theorem keepDue_sound {fire : Int → Option Int} {bases scanned : List Int}
    (hBases : bases ⊆ scanned) {due : Option (Int × Int)}
    (hDue : ∀ instant base, due = some (instant, base) →
      base ∈ scanned ∧ fire base = some instant ∧ instant ≤ now)
    {instant : Int} (hKept : bases.foldl (keepDue now fire) due = some (instant, base)) :
    base ∈ scanned ∧ fire base = some instant ∧ instant ≤ now := by
  induction bases generalizing due with
  | nil => exact hDue instant base hKept
  | cons head bases ih =>
    obtain ⟨hHead, hRest⟩ := List.cons_subset.mp hBases
    refine ih hRest ?_ hKept
    intro instant base hStep
    unfold keepDue at hStep
    split at hStep
    · exact hDue instant base hStep
    · rename_i found hFound
      split at hStep
      · exact hDue instant base hStep
      · rename_i hCome
        split at hStep
        · cases hStep
          exact ⟨hHead, hFound, by omega⟩
        · split at hStep
          · cases hStep
            exact ⟨hHead, hFound, by omega⟩
          · exact hDue instant base hStep

theorem keepDue_future {due : Option (Int × Int)} (hFuture : now < fire base) :
    keepDue now (fun date => some (fire date)) due base = due := by
  simp [keepDue, hFuture]

theorem keepDue_first (hCome : fire base ≤ now) :
    keepDue now (fun date => some (fire date)) none base = some (fire base, base) := by
  have hNotFuture : ¬ now < fire base := by omega
  simp [keepDue, hNotFuture]

theorem keepDue_earlier {best kept : Int} (hEarlier : fire base ≤ best) :
    keepDue now (fun date => some (fire date)) (some (best, kept)) base = some (best, kept) := by
  have hNotLater : ¬ best < fire base := by omega
  simp [keepDue, hNotLater]

theorem keepDue_bases {today : Int} (hMono : StrictMono fire)
    (hScanned : today - 1 ≤ base ∧ base ≤ today + 1) (hCome : fire base ≤ now)
    (hNext : now < fire (base + 1)) :
    [today + 1, today, today - 1].foldl (keepDue now fun date => some (fire date)) none =
      some (fire base, base) := by
  have hFuture : ∀ date, base < date → now < fire date := by
    intro date hLater
    exact lt_of_lt_of_le hNext (hMono.monotone (by omega))
  have hEarlier : ∀ date, date < base → fire date ≤ fire base :=
    fun date hDate => (hMono hDate).le
  have hCases : base = today + 1 ∨ base = today ∨ base = today - 1 := by omega
  simp only [List.foldl_cons, List.foldl_nil]
  rcases hCases with rfl | rfl | rfl
  · rw [keepDue_first hCome, keepDue_earlier (hEarlier today (by omega)),
      keepDue_earlier (hEarlier (today - 1) (by omega))]
  · rw [keepDue_future (hFuture (base + 1) (by omega)), keepDue_first hCome,
      keepDue_earlier (hEarlier (base - 1) (by omega))]
  · rw [keepDue_future (hFuture (today + 1) (by omega)),
      keepDue_future (hFuture today (by omega)), keepDue_first hCome]

/-! ## Decisions -/

/-- A decision with an instant is for a scanned base date whose instant has come. -/
theorem dueAnchor_sound {anchor : Anchor} {zone : Zone} {decision : AnchorDecision}
    (hDue : dueAnchor anchor now zone place grace solarZone = some decision) :
    decision.anchor = anchor ∧
      (decision.hasGeo = true → ∃ instant, decision.instant = some instant ∧
        anchorFireInstant anchor decision.localDate (effectiveZone anchor zone solarZone) place =
          some instant ∧ instant ≤ now ∧
        (effectiveZone anchor zone solarZone).localDay now - 1 ≤ decision.localDate) ∧
      (anchor.kind.isSolar = false → decision.hasGeo = true) := by
  unfold dueAnchor at hDue
  simp only at hDue
  split at hDue
  · rename_i hNoGeo
    cases hDue
    refine ⟨rfl, nofun, ?_⟩
    intro hClock
    simp [hClock] at hNoGeo
  · split at hDue
    · cases hDue
    · rename_i instant base hKept
      cases hDue
      obtain ⟨hScanned, hFire, hCome⟩ :=
        keepDue_sound (List.Subset.refl _) (fun _ _ hNone => by cases hNone) hKept
      refine ⟨rfl, fun _ => ⟨instant, rfl, hFire, hCome, ?_⟩, fun _ => rfl⟩
      simp only [List.mem_cons, List.not_mem_nil, or_false] at hScanned
      dsimp only
      omega

section Clock

variable {anchor : Anchor} {time : ClockTime} (hKind : anchor.kind = .clock time) {zone : Zone}
include hKind

theorem anchorFireInstant_clock (date : Int) (place : Option Place) :
    anchorFireInstant anchor date zone place = some (clockFireInstant anchor time zone date) := by
  simp [anchorFireInstant, hKind]

theorem effectiveZone_clock (solarZone : Option Zone) :
    effectiveZone anchor zone solarZone = zone := by
  simp [effectiveZone, hKind, AnchorKind.isSolar]

theorem dueAnchor_clock (hMono : StrictMono (clockFireInstant anchor time zone))
    (hScanned : zone.localDay now - 1 ≤ base ∧ base ≤ zone.localDay now + 1)
    (hCome : clockFireInstant anchor time zone base ≤ now)
    (hNext : now < clockFireInstant anchor time zone (base + 1)) :
    dueAnchor anchor now zone place grace solarZone =
      some ⟨anchor, base, some (clockFireInstant anchor time zone base),
        now ≤ clockFireInstant anchor time zone base + grace, true⟩ := by
  have hSolar : anchor.kind.isSolar = false := by simp [hKind, AnchorKind.isSolar]
  have hFire : (fun date => anchorFireInstant anchor date zone place) =
      fun date => some (clockFireInstant anchor time zone date) := by
    funext date
    exact anchorFireInstant_clock hKind date place
  unfold dueAnchor
  simp only [effectiveZone_clock hKind, hSolar, Bool.false_and, Bool.false_eq_true, if_false, hFire]
  rw [keepDue_bases hMono hScanned hCome hNext]

variable (hSpaced : SpacedChanges zone)
include hSpaced

variable (anchor time) in
omit hKind in
theorem clockFireInstant_next (date : Int) :
    clockFireInstant anchor time zone date + 46800 * second ≤
      clockFireInstant anchor time zone (date + 1) := by
  obtain ⟨moment, hMoment, hReach⟩ := clockFireInstant_eq anchor time date (hSpaced.near _)
  obtain ⟨next, hNext, hNextReach⟩ := clockFireInstant_eq anchor time (date + 1) (hSpaced.near _)
  have hWall : clockFireSecond anchor time (date + 1) =
      clockFireSecond anchor time date + 86400 := by
    unfold clockFireSecond
    ring
  rw [hWall] at hNextReach
  have hLater := hReach.next_day hSpaced hNextReach
  rw [hMoment, hNext]
  unfold second
  omega

omit hKind in
theorem clockFireInstant_strictMono : StrictMono (clockFireInstant anchor time zone) := by
  apply strictMono_int_of_lt_succ
  intro date
  have hNext := clockFireInstant_next anchor time hSpaced date
  unfold second at hNext
  omega

omit hKind in
theorem base_scanned (hCome : clockFireInstant anchor time zone base ≤ now)
    (hGrace : now < clockFireInstant anchor time zone base + exactTimeGrace) :
    zone.localDay now - 1 ≤ base ∧ base ≤ zone.localDay now + 1 := by
  obtain ⟨moment, hMoment, hReach⟩ := clockFireInstant_eq anchor time base (hSpaced.near _)
  have hLow : moment ≤ now / second := by
    unfold second at *
    omega
  have hHigh : now / second < moment + 1800 := by
    unfold exactTimeGrace second at *
    omega
  have hNear := hReach.reading_near hSpaced hLow hHigh
  have hHour := time.hourLt
  have hMinute := time.minuteLt
  have hOffset := anchor.offsetBounded
  unfold clockFireSecond at hNear
  unfold Zone.localDay Zone.localReading day
  generalize zone.utcoffset (now / second) = offset at hNear ⊢
  unfold second at *
  omega

theorem dueAnchor_within_grace (hCome : clockFireInstant anchor time zone base ≤ now)
    (hGrace : now < clockFireInstant anchor time zone base + exactTimeGrace) :
    dueAnchor anchor now zone place exactTimeGrace solarZone =
      some ⟨anchor, base, some (clockFireInstant anchor time zone base), true, true⟩ := by
  have hLater := clockFireInstant_next anchor time hSpaced base
  have hNext : now < clockFireInstant anchor time zone (base + 1) := by
    unfold exactTimeGrace second at *
    omega
  rw [dueAnchor_clock hKind (clockFireInstant_strictMono hSpaced)
    (base_scanned hSpaced hCome hGrace) hCome hNext, decide_eq_true hGrace.le]

end Clock

theorem mem_dueAnchors {anchors : List Anchor} {anchor : Anchor} {zone : Zone}
    {decision : AnchorDecision} (hMem : anchor ∈ anchors) (hEnabled : anchor.enabled = true)
    (hDue : dueAnchor anchor now zone place grace solarZone = some decision) :
    decision ∈ dueAnchors anchors now zone place grace solarZone :=
  List.mem_filterMap.mpr ⟨anchor, List.mem_filter.mpr ⟨hMem, hEnabled⟩, hDue⟩

/-! ## A fixed offset -/

def FixedOffset (zone : Zone) (offset : Int) : Prop :=
  ∀ moment, zone.utcoffset moment = offset

/-- The last base date whose instant has come, in a zone of a fixed offset. -/
def lastBase (anchor : Anchor) (time : ClockTime) (zone : Zone) (now : Int) : Int :=
  (zone.localReading now - time.micros - anchor.offset) / day

theorem lastBase_bounds (anchor : Anchor) (time : ClockTime) (zone : Zone) (now : Int) :
    lastBase anchor time zone now ≤ zone.localDay now + 1 ∧
      (time.micros + anchor.offset ≤ day + zone.localTime now ↔
        zone.localDay now - 1 ≤ lastBase anchor time zone now) := by
  have hOffset := anchor.offsetBounded
  have hHour := time.hourLt
  have hMinute := time.minuteLt
  have hReading := zone.localReading_eq now
  have hTime : 0 ≤ zone.localTime now ∧ zone.localTime now < day :=
    ⟨Int.emod_nonneg _ (by decide), Int.emod_lt_of_pos _ (by decide)⟩
  unfold lastBase Anchor.offset ClockTime.micros at *
  generalize zone.localDay now = today at *
  generalize zone.localTime now = current at *
  unfold day second at *
  omega

section Fixed

variable {zone : Zone} {offset : Int} (hFixed : FixedOffset zone offset) {anchor : Anchor}
  {time : ClockTime}
include hFixed

theorem clockFireInstant_fixed (date : Int) :
    clockFireInstant anchor time zone date = clockFireLocal anchor time date - offset * second := by
  have hWall : ∀ wall, zone.wallOffset false wall = offset := by
    intro wall
    rw [zone.pep495 false wall wall (by omega) (by omega)
      (fun _ _ _ => (hFixed _).trans (hFixed _).symm)
      (fun _ _ _ => (hFixed _).trans (hFixed _).symm), hFixed, hFixed, ite_self]
  have hExists : wallTimeExists zone (clockFireLocal anchor time date) = true := by
    simp [wallTimeExists, Zone.localReading, Zone.toUtc, hWall, hFixed _]
  simp [clockFireInstant, hExists, Zone.toUtc, hWall]

theorem fire_le_iff {date : Int} :
    clockFireInstant anchor time zone date ≤ now ↔ date ≤ lastBase anchor time zone now := by
  rw [clockFireInstant_fixed hFixed, lastBase, Int.le_ediv_iff_mul_le (by decide)]
  unfold clockFireLocal Zone.localReading
  rw [hFixed]
  omega

theorem clockFireInstant_fixed_strictMono : StrictMono (clockFireInstant anchor time zone) := by
  intro date later hLater
  rw [clockFireInstant_fixed hFixed, clockFireInstant_fixed hFixed]
  unfold clockFireLocal day second
  omega

end Fixed

/-- With a fixed offset a clock anchor has a last base date whose instant has come.  Its decision is
reported exactly while that date is not before yesterday, which it never is for an anchor that fires
on its base date or earlier. -/
theorem last_instant_reported {anchors : List Anchor} {anchor : Anchor} {time : ClockTime}
    (hMem : anchor ∈ anchors) (hEnabled : anchor.enabled = true)
    (hKind : anchor.kind = .clock time) {zone : Zone} {offset : Int}
    (hFixed : FixedOffset zone offset) (now grace : Int) (place : Option Place)
    (solarZone : Option Zone) :
    ∃ base fire, anchorFireInstant anchor base zone place = some fire ∧ fire ≤ now ∧
      (∀ date instant, anchorFireInstant anchor date zone place = some instant →
        instant ≤ now → instant ≤ fire) ∧
      (⟨anchor, base, some fire, now ≤ fire + grace, true⟩ ∈
          dueAnchors anchors now zone place grace solarZone ↔
        time.micros + anchor.offset ≤ day + zone.localTime now) := by
  have hMono : StrictMono (clockFireInstant anchor time zone) :=
    clockFireInstant_fixed_strictMono hFixed
  have hCome : clockFireInstant anchor time zone (lastBase anchor time zone now) ≤ now :=
    (fire_le_iff hFixed).mpr (le_refl _)
  obtain ⟨hHigh, hRecent⟩ := lastBase_bounds anchor time zone now
  refine ⟨lastBase anchor time zone now, _, anchorFireInstant_clock hKind _ place, hCome, ?_, ?_⟩
  · intro date instant hInstant hPast
    rw [anchorFireInstant_clock hKind] at hInstant
    cases hInstant
    exact hMono.monotone ((fire_le_iff hFixed).mp hPast)
  · rw [hRecent]
    constructor
    · intro hReported
      obtain ⟨other, -, hDue⟩ := List.mem_filterMap.mp hReported
      obtain ⟨rfl, hScanned, -⟩ := dueAnchor_sound hDue
      obtain ⟨-, -, -, -, hLow⟩ := hScanned rfl
      rwa [effectiveZone_clock hKind] at hLow
    · intro hLow
      have hNext : now < clockFireInstant anchor time zone (lastBase anchor time zone now + 1) := by
        rw [← not_le, fire_le_iff hFixed]
        omega
      exact mem_dueAnchors hMem hEnabled (dueAnchor_clock hKind hMono ⟨hLow, hHigh⟩ hCome hNext)

theorem utc_fixed : FixedOffset Zone.utc 0 := fun _ => rfl

/-- An anchor at 23:00 that fires at 11:00 on the next day. -/
def lateAnchor : Anchor :=
  ⟨"late", .clock (.ofFin 23 0), 720, true, by decide⟩

/-- At noon its instant of an hour ago is reported. -/
theorem last_instant_reported_at_noon :
    ∃ base fire, anchorFireInstant lateAnchor base Zone.utc none = some fire ∧
      fire ≤ 43200 * second ∧
      ⟨lateAnchor, base, some fire, 43200 * second ≤ fire + exactTimeGrace, true⟩ ∈
        dueAnchors [lateAnchor] (43200 * second) Zone.utc none exactTimeGrace none := by
  obtain ⟨base, fire, hFire, hPast, -, hReported⟩ :=
    last_instant_reported (List.mem_singleton_self lateAnchor) rfl rfl utc_fixed
      (43200 * second) exactTimeGrace none none
  exact ⟨base, fire, hFire, hPast, hReported.mpr (by decide +kernel)⟩

/-- An hour before its next instant nothing is reported, although yesterday's may have been missed:
its base date is the day before. -/
theorem late_instant_unreported :
    anchorFireInstant lateAnchor (-2) Zone.utc none = some (-46800 * second) ∧
      dueAnchors [lateAnchor] (36000 * second) Zone.utc none exactTimeGrace none = [] ∧
      dueAnchors [lateAnchor] (1800 * second) Zone.utc none exactTimeGrace none = [] := by
  decide +kernel

end TimelapseManager.Capture
