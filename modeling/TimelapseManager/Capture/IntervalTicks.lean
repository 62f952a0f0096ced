import TimelapseManager.Capture.CadenceInvariant

/-!
# Counting the captures of open stretches

`_interval_ticks` of `capture/cadence.py` estimates what an interval runner does in the open
stretches of its gate.  Both count from the later of the opening and the instant that is due, but
the runner keeps the grid it was launched on, while the estimate goes on from the opening.

In a stretch the runner takes one capture for each slot of its grid inside the stretch, and one at
the opening if a slot has passed since the last closing (`serveStretches_append`).  So the two agree
from stretch to stretch exactly if the estimate counts as many (`ticks_eq_captures`).
-/

namespace TimelapseManager.Capture

/-! ## The estimate -/

/-- A round of `_interval_ticks`: the ticks so far, and the next instant that is due. -/
def countStretch (interval start : ℚ) (counted : ℚ × ℚ) (stretch : ℚ × ℚ) : ℚ × ℚ :=
  if stretch.1 = start then (counted.1 + (stretch.2 - stretch.1) / interval, stretch.2)
  else
    let first := max stretch.1 counted.2
    if first < stretch.2 then
      let count := ⌈(stretch.2 - first) / interval⌉
      (counted.1 + count, first + count * interval)
    else counted

/-- `_interval_ticks` over the open stretches of a gate that is not always open. -/
def intervalTicks (interval start : ℚ) (stretches : List (ℚ × ℚ)) : ℚ :=
  (stretches.foldl (countStretch interval start) (0, start)).1

/-! ## The runner -/

/-- The captures of a runner that is awake at `now`, in a stretch that closes at `closes`, and the
slot it is left with.  It wakes at each slot; captures take no time and succeed. -/
def serve (config : RunnerConfig) (closes : ℚ) : ℕ → ℚ → ℚ → ℕ × ℚ
  | 0, _, due => (0, due)
  | fuel + 1, now, due =>
    if closes ≤ now then (0, due)
    else
      match (planNext now true (some closes) (some config.interval) config.maxIdle now (some due)
          none none).action with
      | .wait => serve config closes fuel due due
      | .capture =>
        let slot := advanceDue (some due) config.interval now
        let rest := serve config closes fuel slot slot
        (rest.1 + 1, rest.2)

def serveStretch (config : RunnerConfig) (fuel : ℕ) (served : ℕ × ℚ) (stretch : ℚ × ℚ) : ℕ × ℚ :=
  let more := serve config stretch.2 fuel stretch.1 served.2
  (served.1 + more.1, more.2)

/-- A runner launched at `start`: it wakes at each opening. -/
def serveStretches (config : RunnerConfig) (fuel : ℕ) (start : ℚ) (stretches : List (ℚ × ℚ)) :
    ℕ × ℚ :=
  stretches.foldl (serveStretch config fuel) (0, start)

theorem planNext_due (config : RunnerConfig) (closes now due : ℚ) :
    (planNext now true (some closes) (some config.interval) config.maxIdle now (some due)
      none none).action = if due ≤ now then .capture else .wait := by
  by_cases hDue : due ≤ now
  · simp [planNext, hDue]
  · simp [planNext, hDue]

/-! ## The grid -/

section Slots

variable (config : RunnerConfig) (start : ℚ)

def slotAt (number : ℤ) : ℚ := start + number * config.interval

/-- The number of the first slot at or after an instant. -/
def firstFrom (now : ℚ) : ℤ := ⌈(now - start) / config.interval⌉

/-- The number of the first slot after an instant. -/
def firstAfter (now : ℚ) : ℤ := ⌊(now - start) / config.interval⌋ + 1

/-- How many slots lie strictly inside a stretch. -/
def slotsInside (stretch : ℚ × ℚ) : ℕ :=
  (firstFrom config start stretch.2 - firstAfter config start stretch.1).toNat

variable {config start} {now closes opens : ℚ} {number : ℤ}

theorem le_slotAt_iff : now ≤ slotAt config start number ↔ firstFrom config start now ≤ number := by
  rw [firstFrom, Int.ceil_le, div_le_iff₀ config.intervalPos, sub_le_iff_le_add', slotAt]

theorem lt_slotAt_iff :
    now < slotAt config start number ↔ firstAfter config start now ≤ number := by
  rw [firstAfter, Int.add_one_le_iff, Int.floor_lt, div_lt_iff₀ config.intervalPos,
    sub_lt_iff_lt_add', slotAt]

theorem slots_sub : (now - slotAt config start number) / config.interval =
    (now - start) / config.interval - number := by
  have hInterval := config.intervalPos.ne'
  unfold slotAt
  field_simp
  ring

/-- The runner goes on to the first slot after the instant it captures at. -/
theorem advanceDue_slotAt (hPast : slotAt config start number ≤ now) :
    advanceDue (some (slotAt config start number)) config.interval now =
      slotAt config start (firstAfter config start now) := by
  simp only [advanceDue, Option.getD_some, if_neg (not_lt.mpr hPast), slots_sub,
    Int.floor_sub_intCast]
  unfold slotAt firstAfter
  push_cast
  ring

theorem firstAfter_slotAt : firstAfter config start (slotAt config start number) = number + 1 := by
  have hInterval := config.intervalPos.ne'
  have hNumber : (slotAt config start number - start) / config.interval = number := by
    unfold slotAt
    field_simp
    ring
  rw [firstAfter, hNumber, Int.floor_intCast]

/-- From a slot on, every slot before the closing is served. -/
theorem serve_slotAt {fuel : ℕ} (hFuel : (firstFrom config start closes - number).toNat < fuel) :
    serve config closes fuel (slotAt config start number) (slotAt config start number) =
      ((firstFrom config start closes - number).toNat,
        slotAt config start (max number (firstFrom config start closes))) := by
  induction fuel generalizing number with
  | zero => omega
  | succ fuel ih =>
    unfold serve
    split
    next hClosed =>
      rw [le_slotAt_iff] at hClosed
      rw [Int.toNat_eq_zero.mpr (by omega), max_eq_left hClosed]
    next hOpen =>
      rw [le_slotAt_iff] at hOpen
      rw [planNext_due, if_pos le_rfl, advanceDue_slotAt le_rfl, firstAfter_slotAt]
      have hRest : (firstFrom config start closes - (number + 1)).toNat < fuel := by omega
      simp only [ih hRest]
      rw [max_eq_right (by omega), max_eq_right (by omega)]
      congr 1
      omega

/-- A stretch that opens with the first slot after it due, or an earlier one. -/
theorem serve_slot_due {fuel : ℕ} (hOpen : opens < closes)
    (hDue : number ≤ firstAfter config start opens)
    (hFuel : slotsInside config start (opens, closes) + 1 < fuel) :
    serve config closes fuel opens (slotAt config start number) =
      (slotsInside config start (opens, closes) +
          if slotAt config start number ≤ opens then 1 else 0,
        slotAt config start (firstFrom config start closes)) := by
  obtain ⟨fuel, rfl⟩ : ∃ less, fuel = less + 1 := ⟨fuel - 1, by omega⟩
  have hCloses : firstAfter config start opens ≤ firstFrom config start closes :=
    lt_slotAt_iff.mp (lt_of_lt_of_le hOpen (le_slotAt_iff.mpr le_rfl))
  simp only [slotsInside] at hFuel ⊢
  rw [serve, if_neg (not_le.mpr hOpen), planNext_due]
  by_cases hPast : slotAt config start number ≤ opens
  · rw [if_pos hPast, if_pos hPast]
    simp only [advanceDue_slotAt hPast]
    rw [serve_slotAt (by omega), max_eq_right hCloses]
  · -- No slot has passed: the first one after the opening is due.
    have hNumber : number = firstAfter config start opens :=
      le_antisymm hDue (lt_slotAt_iff.mp (not_le.mp hPast))
    rw [if_neg hPast, if_neg hPast]
    simp only
    rw [hNumber, serve_slotAt (by omega), max_eq_right hCloses, Nat.add_zero]

end Slots

/-! ## Stretch by stretch -/

/-- The captures from `now` on, one each interval, up to the closing. -/
def capturesUntil (config : RunnerConfig) (closes now : ℚ) : ℕ :=
  ⌈(closes - now) / config.interval⌉.toNat

/-- The instant that the estimate takes for the next one due after some stretches. -/
def estimatedDue (interval start : ℚ) (stretches : List (ℚ × ℚ)) : ℚ :=
  (stretches.foldl (countStretch interval start) (0, start)).2

def lastClosing (start : ℚ) (stretches : List (ℚ × ℚ)) : ℚ :=
  (stretches.getLast?.map Prod.snd).getD start

section Stretches

variable {config : RunnerConfig} {start : ℚ} {earlier stretches : List (ℚ × ℚ)} {stretch : ℚ × ℚ}

/-- What the estimate counts in one more stretch. -/
theorem intervalTicks_append (hLater : start < stretch.1) :
    intervalTicks config.interval start (earlier ++ [stretch]) =
      intervalTicks config.interval start earlier +
        capturesUntil config stretch.2
          (max stretch.1 (estimatedDue config.interval start earlier)) := by
  unfold intervalTicks estimatedDue
  rw [List.foldl_append, List.foldl_cons, List.foldl_nil, countStretch, if_neg hLater.ne']
  generalize earlier.foldl (countStretch config.interval start) (0, start) = counted
  dsimp only
  have hPos := config.intervalPos
  split
  next hOpen =>
    have hCount : 0 ≤ ⌈(stretch.2 - max stretch.1 counted.2) / config.interval⌉ :=
      Int.ceil_nonneg (div_nonneg (sub_nonneg.mpr hOpen.le) hPos.le)
    rw [capturesUntil, ← Int.cast_natCast, Int.toNat_of_nonneg hCount]
  next hClosed =>
    have hNone : capturesUntil config stretch.2 (max stretch.1 counted.2) = 0 := by
      rw [capturesUntil, Int.toNat_eq_zero, Int.ceil_le, Int.cast_zero]
      exact div_nonpos_of_nonpos_of_nonneg (sub_nonpos.mpr (not_lt.mp hClosed)) hPos.le
    rw [hNone, Nat.cast_zero, add_zero]

/-- What the runner does in one more stretch: a capture for each slot inside it, and one for those
that have passed since the last closing. -/
theorem serveStretches_append {fuel : ℕ}
    (hDue : (serveStretches config fuel start earlier).2 =
      slotAt config start (firstFrom config start (lastClosing start earlier)))
    (hAfter : lastClosing start earlier ≤ stretch.1) (hOpen : stretch.1 < stretch.2)
    (hFuel : slotsInside config start stretch + 1 < fuel) :
    serveStretches config fuel start (earlier ++ [stretch]) =
      ((serveStretches config fuel start earlier).1 + (slotsInside config start stretch +
          if slotAt config start (firstFrom config start (lastClosing start earlier)) ≤ stretch.1
          then 1 else 0),
        slotAt config start (firstFrom config start stretch.2)) := by
  have hFirst : firstFrom config start (lastClosing start earlier) ≤
      firstAfter config start stretch.1 :=
    le_slotAt_iff.mp (hAfter.trans (lt_slotAt_iff.mpr le_rfl).le)
  rw [serveStretches, List.foldl_append, List.foldl_cons, List.foldl_nil, ← serveStretches,
    serveStretch, hDue, serve_slot_due hOpen hFirst hFuel]

theorem lastClosing_append : lastClosing start (earlier ++ [stretch]) = stretch.2 := by
  simp [lastClosing]

/-- The stretches of a gate after the start, one after the other. -/
structure Stretches (start : ℚ) (stretches : List (ℚ × ℚ)) : Prop where
  later : ∀ stretch ∈ stretches, start < stretch.1 ∧ stretch.1 < stretch.2
  disjoint : stretches.Pairwise fun first second => first.2 ≤ second.1

variable (hStretches : Stretches start stretches)
include hStretches

theorem Stretches.lastClosing_le {index : ℕ} (hIndex : index < stretches.length) :
    lastClosing start (stretches.take index) ≤ stretches[index].1 := by
  have hPairs := hStretches.disjoint.sublist (List.take_sublist (index + 1) stretches)
  rw [List.take_succ_eq_append_getElem hIndex] at hPairs
  have hEarlier := (List.pairwise_append.mp hPairs).2.2
  unfold lastClosing
  cases hLast : (stretches.take index).getLast? with
  | none => exact (hStretches.later _ (List.getElem_mem hIndex)).1.le
  | some last =>
    exact hEarlier last (List.mem_of_getLast? hLast) _ (List.mem_singleton_self _)

/-- After every stretch the first slot at or after its closing is due. -/
theorem Stretches.due {fuel : ℕ}
    (hFuel : ∀ stretch ∈ stretches, slotsInside config start stretch + 1 < fuel)
    {count : ℕ} (hCount : count ≤ stretches.length) :
    (serveStretches config fuel start (stretches.take count)).2 =
      slotAt config start (firstFrom config start (lastClosing start (stretches.take count))) := by
  induction count with
  | zero => simp [serveStretches, lastClosing, firstFrom, slotAt]
  | succ count ih =>
    have hMem := List.getElem_mem hCount
    rw [List.take_succ_eq_append_getElem hCount, lastClosing_append,
      serveStretches_append (ih (by omega)) (hStretches.lastClosing_le hCount)
        (hStretches.later _ hMem).2 (hFuel _ hMem)]

end Stretches

/-- A runner every minute. -/
def everyMinute : RunnerConfig := ⟨60, 60, minuteConfig.intervalPos, minuteConfig.intervalPos⟩

/-- A capture that is missed and one too many cancel out. -/
example : intervalTicks 60 0 [(110, 160), (172, 178)] = 2 ∧
    (serveStretches everyMinute 4 0 [(110, 160), (172, 178)]).1 = 2 := by
  decide +kernel

end TimelapseManager.Capture
