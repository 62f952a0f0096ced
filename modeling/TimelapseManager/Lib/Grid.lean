import Mathlib.Data.Rat.Floor

/-!
# Regular grids

The points `origin + k * step` for whole numbers `k`, over an ordered field with a
floor.  `next` is the first point strictly after a given one, computed by one
floor division from any point of the grid that is not after it.

* `FirstAfter origin step now slot`: `slot` is that first point.
* `next_firstAfter`: `next` computes it.
* `FirstAfter.of_recent`: a point that lies after `now`, but not by more than one
  step, is the first one.
-/

namespace TimelapseManager.Grid

variable {α : Type*} [Field α] [LinearOrder α] [IsStrictOrderedRing α]

def Slot (origin step point : α) : Prop :=
  ∃ count : ℕ, point = origin + count * step

structure FirstAfter (origin step now point : α) : Prop where
  slot : Slot origin step point
  later : now < point
  first : ∀ count : ℤ, now < origin + count * step → point ≤ origin + count * step

variable {now point : α}

section First

variable {origin step : α} (hStep : 0 < step)
include hStep

theorem FirstAfter.of_recent (hSlot : Slot origin step point) (hLater : now < point)
    (hRecent : point - step ≤ now) : FirstAfter origin step now point := by
  refine ⟨hSlot, hLater, ?_⟩
  obtain ⟨start, hStart⟩ := hSlot
  intro count hCount
  -- `count` is past the index before `start`, hence at least `start`.
  have hIndex : ((start : ℤ) - 1 : ℤ) < count := by
    have hLt : origin + ((start : α) - 1) * step < origin + count * step := by
      calc origin + ((start : α) - 1) * step = point - step := by rw [hStart]; ring
        _ ≤ now := hRecent
        _ < origin + count * step := hCount
    have hMul : ((start : α) - 1) * step < count * step := by linarith
    have hCast := lt_of_mul_lt_mul_right hMul hStep.le
    exact_mod_cast hCast
  have hCast : (start : α) ≤ count := by
    have hLe : (start : ℤ) ≤ count := by omega
    exact_mod_cast hLe
  have hMul := mul_le_mul_of_nonneg_right hCast hStep.le
  rw [hStart]
  linarith

theorem FirstAfter.sub_le (hFirst : FirstAfter origin step now point) : point - step ≤ now := by
  by_contra hLater
  obtain ⟨count, hCount⟩ := hFirst.slot
  have hBefore : origin + ((count - 1 : ℤ) : α) * step = point - step := by
    rw [hCount]
    push_cast
    ring
  have hLe := hFirst.first (count - 1 : ℤ) (by rw [hBefore]; exact not_le.mp hLater)
  rw [hBefore] at hLe
  linarith

end First

section Next

variable [FloorRing α]

def next (point step now : α) : α :=
  point + (⌊(now - point) / step⌋ + 1 : ℤ) * step

variable {origin step : α} (hStep : 0 < step)
include hStep

theorem lt_next (point now : α) : now < next point step now := by
  have hFloor := Int.lt_floor_add_one ((now - point) / step)
  rw [div_lt_iff₀ hStep] at hFloor
  unfold next
  push_cast
  linarith

theorem next_le {count : ℤ} (hLater : now < point + count * step) :
    next point step now ≤ point + count * step := by
  have hBelow : (now - point) / step < count := by
    rw [div_lt_iff₀ hStep]
    linarith
  have hCount : ⌊(now - point) / step⌋ + 1 ≤ count := by
    have hFloor := Int.floor_lt.mpr hBelow
    omega
  have hCast : ((⌊(now - point) / step⌋ + 1 : ℤ) : α) ≤ count := by exact_mod_cast hCount
  have hMul := mul_le_mul_of_nonneg_right hCast hStep.le
  unfold next
  linarith

theorem next_slot (hSlot : Slot origin step point) (hPast : point ≤ now) :
    Slot origin step (next point step now) := by
  obtain ⟨count, rfl⟩ := hSlot
  have hFloor : 0 ≤ ⌊(now - (origin + count * step)) / step⌋ := by
    apply Int.floor_nonneg.mpr
    apply div_nonneg _ hStep.le
    linarith
  obtain ⟨missed, hMissed⟩ := Int.eq_ofNat_of_zero_le hFloor
  refine ⟨count + missed + 1, ?_⟩
  unfold next
  rw [hMissed]
  push_cast
  ring

theorem next_firstAfter (hSlot : Slot origin step point) (hPast : point ≤ now) :
    FirstAfter origin step now (next point step now) := by
  refine ⟨next_slot hStep hSlot hPast, lt_next hStep point now, ?_⟩
  obtain ⟨start, hStart⟩ := hSlot
  intro count hLater
  have hShift : origin + count * step = point + ((count - start : ℤ) : α) * step := by
    rw [hStart]
    push_cast
    ring
  rw [hShift] at hLater ⊢
  exact next_le hStep hLater

end Next

end TimelapseManager.Grid
