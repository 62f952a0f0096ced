import Mathlib.Data.Int.LeastGreatest

/-!
# Finding the changes of a gate by sampling

A gate is a function of an integer instant.  It is evaluated only at the points of a finite
increasing list, and from those samples its changes are read off: `scan` returns the first sample
that differs from the state at `now`, `stretches` the open stretches of a range.  Whether the
reading is exact depends on one thing only: whether the points include the changes
(`scan_exact_iff`, `stretches_exact_iff`).
-/

namespace TimelapseManager.Sampling

/-! ## Changes -/

variable {instant stop now : Int} {points : List Int}

section Changes

variable {α : Type*} (gate : Int → α)

def Change (instant : Int) : Prop :=
  gate (instant - 1) ≠ gate instant

/-- The gate flips at `instant` for the first time after `now`. -/
structure FirstChange (now instant : Int) : Prop where
  later : now < instant
  differs : gate instant ≠ gate now
  same : ∀ other, now ≤ other → other < instant → gate other = gate now

variable {gate}

theorem eq_of_no_change {start : Int}
    (hNone : ∀ instant, start < instant → instant ≤ stop → ¬ Change gate instant)
    (hStart : start ≤ instant) (hStop : instant ≤ stop) : gate instant = gate start := by
  induction instant, hStart using Int.leInduction with
  | base => rfl
  | succ instant _ ih =>
    have hSame := hNone (instant + 1) (by omega) hStop
    simp only [Change, not_not] at hSame
    rw [← hSame, add_sub_cancel_right]
    apply ih
    omega

theorem FirstChange.change (hFirst : FirstChange gate now instant) : Change gate instant := by
  have hBefore := hFirst.same (instant - 1) (by have := hFirst.later; omega) (by omega)
  intro hSame
  exact hFirst.differs (hSame.symm.trans hBefore)

theorem FirstChange.unique {first second : Int} (hFirst : FirstChange gate now first)
    (hSecond : FirstChange gate now second) : first = second := by
  rcases lt_trichotomy first second with hLt | hEq | hGt
  · exact absurd (hSecond.same first hFirst.later.le hLt) hFirst.differs
  · exact hEq
  · exact absurd (hFirst.same second hSecond.later.le hGt) hSecond.differs

theorem exists_firstChange {other : Int} (hLater : now ≤ other) (hDiffers : gate other ≠ gate now) :
    ∃ instant, instant ≤ other ∧ FirstChange gate now instant := by
  obtain ⟨instant, ⟨hNow, hChanged⟩, hLeast⟩ :=
    Int.exists_least_of_bdd (P := fun instant => now ≤ instant ∧ gate instant ≠ gate now)
      ⟨now, fun _ hInstant => hInstant.1⟩ ⟨other, hLater, hDiffers⟩
  refine ⟨instant, hLeast other ⟨hLater, hDiffers⟩, ?_, hChanged, ?_⟩
  · apply lt_of_le_of_ne hNow
    rintro rfl
    exact hChanged rfl
  · intro earlier hEarlier hLt
    by_contra hDiffer
    have hLe := hLeast earlier ⟨hEarlier, hDiffer⟩
    omega

theorem exists_step {start : Int} (hRange : start < stop)
    (hUnique : ∀ first second, start < first → first < second → second ≤ stop →
      Change gate first → ¬ Change gate second) :
    ∃ change, start < change ∧ change ≤ stop ∧
      (∀ instant, start ≤ instant → instant < change → gate instant = gate (change - 1)) ∧
      ∀ instant, change ≤ instant → instant ≤ stop → gate instant = gate change := by
  by_cases hSome : ∃ change, start < change ∧ change ≤ stop ∧ Change gate change
  · obtain ⟨change, hStart, hStop, hChange⟩ := hSome
    refine ⟨change, hStart, hStop, ?_, ?_⟩
    · intro instant hLow hHigh
      have hQuiet : ∀ other, start < other → other ≤ change - 1 → ¬ Change gate other := by
        intro other hOther hLe hBoth
        exact hUnique other change hOther (by omega) hStop hBoth hChange
      rw [eq_of_no_change hQuiet hLow (by omega),
        eq_of_no_change hQuiet (by omega) (le_refl (change - 1))]
    · intro instant hLow hHigh
      apply eq_of_no_change _ hLow hHigh
      intro other hOther hLe
      exact hUnique change other hStart hOther hLe hChange
  · have hQuiet : ∀ other, start < other → other ≤ stop → ¬ Change gate other :=
      fun other hLow hHigh hChange => hSome ⟨other, hLow, hHigh, hChange⟩
    have hConstant : ∀ instant, start ≤ instant → instant ≤ stop → gate instant = gate start :=
      fun instant hLow hHigh => eq_of_no_change hQuiet hLow hHigh
    refine ⟨stop, hRange, le_refl stop, ?_, ?_⟩
    · intro instant hLow hHigh
      rw [hConstant instant hLow (by omega), hConstant (stop - 1) (by omega) (by omega)]
    · intro instant hLow hHigh
      rw [le_antisymm hHigh hLow]

end Changes

variable {gate : Int → Bool}

/-! ## Scanning for the first change -/

/-- The first point after `now` at which the gate differs from its state at
`now`. -/
def scan (gate : Int → Bool) (now : Int) (points : List Int) : Option Int :=
  points.find? fun point => now < point && gate point != gate now

/-- An answer is exact up to `limit`: a reported instant is the first change,
and no report means that the gate keeps its state to the limit. -/
def Exact (gate : Int → Bool) (now limit : Int) : Option Int → Prop
  | some instant => FirstChange gate now instant
  | none => ∀ instant, now ≤ instant → instant ≤ limit → gate instant = gate now

theorem scan_eq_some (hSorted : points.Pairwise (· < ·))
    (hScan : scan gate now points = some instant) :
    instant ∈ points ∧ now < instant ∧ gate instant ≠ gate now ∧
      ∀ point ∈ points, now < point → point < instant → gate point = gate now := by
  obtain ⟨hHolds, before, after, hSplit, hBefore⟩ := List.find?_eq_some_iff_append.mp hScan
  simp only [Bool.and_eq_true, decide_eq_true_eq, bne_iff_ne, ne_eq] at hHolds
  refine ⟨?_, hHolds.1, hHolds.2, ?_⟩
  · rw [hSplit]
    simp
  · intro point hPoint hNow hLt
    rw [hSplit] at hPoint hSorted
    rcases List.mem_append.mp hPoint with hFront | hBack
    · have hSame := hBefore point hFront
      simpa [hNow] using hSame
    · -- A point at or behind the answer does not stand before it.
      have hOrder := (List.pairwise_append.mp hSorted).2.1
      rcases List.mem_cons.mp hBack with rfl | hRest
      · exact absurd hLt (lt_irrefl _)
      · have hAfter := (List.pairwise_cons.mp hOrder).1 point hRest
        omega

theorem scan_eq_none (hScan : scan gate now points = none) {point : Int} (hPoint : point ∈ points)
    (hNow : now < point) : gate point = gate now := by
  have hFails := List.find?_eq_none.mp hScan point hPoint
  simpa [hNow] using hFails

theorem scan_exact_iff {limit : Int} (hSorted : points.Pairwise (· < ·))
    (hRange : ∀ point ∈ points, now < point ∧ point ≤ limit) :
    Exact gate now limit (scan gate now points) ↔
      ∀ instant, FirstChange gate now instant → instant ≤ limit → instant ∈ points := by
  constructor
  · intro hExact instant hFirst hLimit
    cases hScan : scan gate now points with rw [hScan] at hExact
    | none => exact absurd (hExact instant hFirst.later.le hLimit) hFirst.differs
    | some found =>
      rw [hFirst.unique hExact]
      exact (scan_eq_some hSorted hScan).1
  · intro hListed
    cases hScan : scan gate now points with
    | none =>
      intro instant hNow hLimit
      by_contra hDiffers
      obtain ⟨first, hLe, hFirst⟩ := exists_firstChange hNow hDiffers
      have hPoint := hListed first hFirst (by omega)
      exact hFirst.differs (scan_eq_none hScan hPoint hFirst.later)
    | some found =>
      obtain ⟨hFound, hNow, hDiffers, hEarlier⟩ := scan_eq_some hSorted hScan
      obtain ⟨first, hLe, hFirst⟩ := exists_firstChange hNow.le hDiffers
      have hPoint := hListed first hFirst (by have := (hRange found hFound).2; omega)
      rcases eq_or_lt_of_le hLe with rfl | hLt
      · exact hFirst
      · exact absurd (hEarlier first hPoint hFirst.later hLt) hFirst.differs

/-! ## Collecting open stretches -/

/-- The pass over the points, with the instant at which the current stretch was
opened as its state; `stop` closes the last stretch. -/
def collect (gate : Int → Bool) (stop : Int) : Option Int → List Int → List (Int × Int)
  | none, [] => []
  | some opened, [] => [(opened, stop)]
  | none, point :: rest =>
    if gate point then collect gate stop (some point) rest
    else collect gate stop none rest
  | some opened, point :: rest =>
    if gate point then collect gate stop (some opened) rest
    else (opened, point) :: collect gate stop none rest

/-- The open stretches of `[start, stop)`, as sampled at `start` and `edges`. -/
def stretches (gate : Int → Bool) (start stop : Int) (edges : List Int) : List (Int × Int) :=
  collect gate stop none (start :: edges)

/-- The state last sampled at or before `instant`, `state` before the first
point. -/
def sampled (gate : Int → Bool) : Bool → List Int → Int → Bool
  | state, [], _ => state
  | state, point :: rest, instant =>
    if instant < point then state else sampled gate (gate point) rest instant

def Covered (pieces : List (Int × Int)) (instant : Int) : Prop :=
  ∃ piece ∈ pieces, piece.1 ≤ instant ∧ instant < piece.2

/-- Non-empty stretches, in order, none touching the next. -/
structure Separated (pieces : List (Int × Int)) : Prop where
  nonempty : ∀ piece ∈ pieces, piece.1 < piece.2
  apart : pieces.Pairwise fun earlier later => earlier.2 < later.1

theorem mem_collect_start {piece : Int × Int} :
    ∀ {opened : Option Int}, piece ∈ collect gate stop opened points →
      opened = some piece.1 ∨ piece.1 ∈ points := by
  induction points with intro opened hPiece
  | nil =>
    cases opened with
    | none => simp [collect] at hPiece
    | some start => simp_all [collect]
  | cons point rest ih =>
    have hRest : ∀ {opened : Option Int}, piece ∈ collect gate stop opened rest →
        opened = some piece.1 ∨ piece.1 ∈ point :: rest :=
      fun hPiece => (ih hPiece).imp_right (List.mem_cons_of_mem _)
    cases opened with simp only [collect] at hPiece
    | none =>
      right
      split at hPiece
      · rcases hRest hPiece with hOpened | hMem
        · simp [Option.some.inj hOpened]
        · exact hMem
      · exact (hRest hPiece).resolve_left nofun
    | some start =>
      split at hPiece
      · exact hRest hPiece
      · rcases List.mem_cons.mp hPiece with rfl | hLater
        · exact Or.inl rfl
        · exact Or.inr ((hRest hLater).resolve_left nofun)

theorem collect_separated :
    ∀ {opened : Option Int}, points.Pairwise (· < ·) → (∀ point ∈ points, point < stop) →
      (∀ start ∈ opened, start < stop ∧ ∀ point ∈ points, start < point) →
      Separated (collect gate stop opened points) := by
  -- The pass carries the stretch it is in, so the statement is for every such stretch.
  induction points with
  | nil =>
    intro opened _ _ hOpened
    cases opened with
    | none => exact ⟨by simp [collect], by simp [collect]⟩
    | some start => exact ⟨by simpa [collect] using (hOpened start rfl).1, by simp [collect]⟩
  | cons point rest ih =>
    intro opened hSorted hStop hOpened
    rw [List.pairwise_cons] at hSorted
    have hRestStop : ∀ other ∈ rest, other < stop :=
      (List.forall_mem_cons.mp hStop).2
    have hClosed : Separated (collect gate stop none rest) :=
      ih hSorted.2 hRestStop (by simp)
    cases opened with
    | none =>
      simp only [collect]
      split
      · apply ih hSorted.2 hRestStop
        intro start hStart
        cases hStart
        exact ⟨hStop point (by simp), hSorted.1⟩
      · exact hClosed
    | some start =>
      obtain ⟨hStartStop, hStartPoints⟩ := hOpened start rfl
      simp only [collect]
      split
      · apply ih hSorted.2 hRestStop
        intro other hOther
        cases hOther
        exact ⟨hStartStop, (List.forall_mem_cons.mp hStartPoints).2⟩
      · constructor
        · exact List.forall_mem_cons.mpr ⟨hStartPoints point (by simp), hClosed.nonempty⟩
        · rw [List.pairwise_cons]
          refine ⟨fun later hLater => ?_, hClosed.apart⟩
          rcases mem_collect_start hLater with hNone | hMem
          · cases hNone
          · exact hSorted.1 _ hMem

/-! ## What the samples know -/

theorem sampled_of_lt {state : Bool} (hBefore : ∀ point ∈ points, instant < point) :
    sampled gate state points instant = state := by
  cases points with
  | nil => rfl
  | cons point rest => simp [sampled, hBefore point (by simp)]

theorem sampled_of_mem :
    ∀ {state : Bool}, points.Pairwise (· < ·) → instant ∈ points →
      sampled gate state points instant = gate instant := by
  induction points with
  | nil => simp
  | cons point rest ih =>
    intro state hSorted hMem
    rw [List.pairwise_cons] at hSorted
    rcases List.mem_cons.mp hMem with rfl | hRest
    · rw [sampled, if_neg (lt_irrefl _)]
      exact sampled_of_lt hSorted.1
    · have hLe := hSorted.1 instant hRest
      rw [sampled, if_neg (by omega)]
      exact ih hSorted.2 hRest

theorem sampled_of_not_mem :
    ∀ {state : Bool}, instant ∉ points →
      sampled gate state points instant = sampled gate state points (instant - 1) := by
  induction points with
  | nil => intro state _; rfl
  | cons point rest ih =>
    intro state hMem
    rw [List.mem_cons, not_or] at hMem
    simp only [sampled]
    by_cases hLt : instant < point
    · rw [if_pos hLt, if_pos (by omega)]
    · rw [if_neg hLt, if_neg (by omega)]
      exact ih hMem.2

theorem covered_collect :
    ∀ {opened : Option Int}, points.Pairwise (· < ·) → (∀ point ∈ points, point < stop) →
      (∀ start ∈ opened, ∀ point ∈ points, start < point) →
      (Covered (collect gate stop opened points) instant ↔
        (∀ start ∈ opened, start ≤ instant) ∧ instant < stop ∧
          sampled gate opened.isSome points instant = true) := by
  induction points with
  | nil =>
    intro opened _ _ _
    cases opened <;> simp [Covered, collect, sampled]
  | cons point rest ih =>
    intro opened hSorted hStop hOpened
    rw [List.pairwise_cons] at hSorted
    have hPointStop := hStop point (by simp)
    have hRestStop : ∀ other ∈ rest, other < stop :=
      (List.forall_mem_cons.mp hStop).2
    have hClosed : Covered (collect gate stop none rest) instant ↔
        (∀ start ∈ (none : Option Int), start ≤ instant) ∧ instant < stop ∧
          sampled gate false rest instant = true :=
      ih hSorted.2 hRestStop (by simp)
    -- Before the point, no later sample counts.
    have hBefore : ∀ state, instant < point → sampled gate state rest instant = state := by
      intro state hLt
      apply sampled_of_lt
      intro other hOther
      have := hSorted.1 other hOther
      omega
    cases opened with
    | none =>
      simp only [collect]
      split
      case isTrue hGate =>
        rw [ih hSorted.2 hRestStop (by simpa using hSorted.1)]
        by_cases hLt : instant < point
        · simp [sampled, hLt]
        · have hLe : point ≤ instant := by omega
          simp [sampled, hGate, hLe, hLt]
      case isFalse hGate =>
        rw [hClosed]
        by_cases hLt : instant < point
        · simp [sampled, hLt, hBefore]
        · simp [sampled, hLt, hGate]
    | some start =>
      have hStartPoint := hOpened start rfl point (by simp)
      simp only [collect]
      split
      case isTrue hGate =>
        rw [ih hSorted.2 hRestStop (fun other hOther later hLater =>
          hOpened other hOther later (List.mem_cons_of_mem _ hLater))]
        by_cases hLt : instant < point
        · simp [sampled, hLt, hBefore]
        · simp [sampled, hLt, hGate]
      -- The stretch ends here, and the rest starts outside of one.
      case isFalse hGate =>
        have hSplit : Covered ((start, point) :: collect gate stop none rest) instant ↔
            (start ≤ instant ∧ instant < point) ∨
              Covered (collect gate stop none rest) instant := by
          simp [Covered]
        rw [hSplit, hClosed]
        by_cases hLt : instant < point
        · have hStopLt : instant < stop := by omega
          simp [sampled, hLt, hBefore, hStopLt]
        · have hLe : start ≤ instant := by omega
          simp [sampled, hLt, hGate, hLe]

/-! ## Exactness -/

section Stretches

variable {start stop : Int} {edges : List Int} (hSorted : (start :: edges).Pairwise (· < ·))
  (hStop : ∀ point ∈ start :: edges, point < stop)
include hSorted hStop

theorem stretches_separated : Separated (stretches gate start stop edges) :=
  collect_separated hSorted hStop (by simp)

theorem stretches_covered :
    Covered (stretches gate start stop edges) instant ↔
      instant < stop ∧ sampled gate false (start :: edges) instant = true := by
  rw [stretches, covered_collect hSorted hStop (by simp)]
  simp

theorem stretches_exact_iff :
    (∀ instant, Covered (stretches gate start stop edges) instant ↔
      start ≤ instant ∧ instant < stop ∧ gate instant = true) ↔
    ∀ instant, start < instant → instant < stop → Change gate instant → instant ∈ edges := by
  constructor
  · -- A change that is not sampled goes unnoticed: the last sample is the one of the instant
    -- before.
    intro hExact instant hStart hInstant hChange
    by_contra hMem
    apply hChange
    have hNotPoint : instant ∉ start :: edges := by
      simp only [List.mem_cons, not_or]
      exact ⟨by omega, hMem⟩
    have hSame : sampled gate false (start :: edges) instant =
        sampled gate false (start :: edges) (instant - 1) := sampled_of_not_mem hNotPoint
    have hHere := hExact instant
    have hThere := hExact (instant - 1)
    rw [stretches_covered hSorted hStop] at hHere hThere
    have hStartLe : start ≤ instant - 1 := by omega
    have hStopLt : instant - 1 < stop := by omega
    simp only [hStart.le, hInstant, true_and] at hHere
    simp only [hStartLe, hStopLt, true_and] at hThere
    rw [Bool.eq_iff_iff, ← hHere, ← hThere, hSame]
  · intro hListed instant
    rw [stretches_covered hSorted hStop]
    by_cases hLt : instant < start
    · have hNotLe : ¬ start ≤ instant := by omega
      simp [sampled, hLt, hNotLe]
    · -- From the start on, the last sample follows the gate.
      have hLe : start ≤ instant := by omega
      have hFollows : instant < stop →
          sampled gate false (start :: edges) instant = gate instant := by
        clear hLt
        induction instant, hLe using Int.leInduction with
        | base =>
          intro _
          exact sampled_of_mem hSorted (by simp)
        | succ instant _ ih =>
          intro hNext
          by_cases hPoint : instant + 1 ∈ start :: edges
          · exact sampled_of_mem hSorted hPoint
          · rw [sampled_of_not_mem hPoint, add_sub_cancel_right, ih (by omega)]
            have hNoChange : ¬ Change gate (instant + 1) := by
              intro hChange
              exact hPoint (List.mem_cons_of_mem _ (hListed (instant + 1) (by omega) hNext hChange))
            simp only [Change, not_not, add_sub_cancel_right] at hNoChange
            exact hNoChange
      constructor
      · rintro ⟨hInstant, hSampled⟩
        exact ⟨hLe, hInstant, (hFollows hInstant).symm.trans hSampled⟩
      · rintro ⟨_, hInstant, hGate⟩
        exact ⟨hInstant, (hFollows hInstant).trans hGate⟩

end Stretches

end TimelapseManager.Sampling
