import Mathlib.Order.Lattice

/-!
# Low-water marks

A consumer reads numbered items in order, works on several at a time, and records a single number
up to which everything is finished: `lowWater`, just below the lowest item in work, or the last one
read when none is.  `Below` says that a mark is smaller than every item that is still pending; it
gets easier as items stop being pending, so a recorded mark may lag behind and be written twice.
-/

namespace TimelapseManager.LowWater

def Below (pending : ℕ → Prop) (mark : ℕ) : Prop :=
  ∀ item, pending item → mark < item

theorem Below.mono {before after : ℕ → Prop} {mark : ℕ} (hBelow : Below before mark)
    (hSubset : ∀ item, after item → before item) : Below after mark :=
  fun item hItem => hBelow item (hSubset item hItem)

theorem Below.max {pending : ℕ → Prop} {first second : ℕ} (hFirst : Below pending first)
    (hSecond : Below pending second) : Below pending (max first second) :=
  fun item hItem => max_lt (hFirst item hItem) (hSecond item hItem)

/-- Just below the lowest item in work, or the last item read. -/
def lowWater (inWork : List ℕ) (lastRead : ℕ) : ℕ :=
  match inWork.min? with
  | none => lastRead
  | some lowest => lowest - 1

variable {inWork : List ℕ} {lastRead : ℕ}

theorem lowWater_lt {item : ℕ} (hPositive : ∀ other ∈ inWork, 0 < other) (hItem : item ∈ inWork) :
    lowWater inWork lastRead < item := by
  unfold lowWater
  split
  next hNone =>
    rw [List.min?_eq_none_iff.mp hNone] at hItem
    cases hItem
  next lowest hLowest =>
    obtain ⟨hMem, hLeast⟩ := List.min?_eq_some_iff.mp hLowest
    have hPos := hPositive lowest hMem
    have hLe := hLeast item hItem
    omega

theorem lowWater_le (hRead : ∀ item ∈ inWork, item ≤ lastRead) :
    lowWater inWork lastRead ≤ lastRead := by
  unfold lowWater
  split
  · exact le_refl lastRead
  next lowest hLowest =>
    have hLe := hRead lowest (List.min?_eq_some_iff.mp hLowest).1
    omega

theorem below_lowWater {pending : ℕ → Prop} (hPositive : ∀ item ∈ inWork, 0 < item)
    (hRead : ∀ item ∈ inWork, item ≤ lastRead)
    (hPending : ∀ item, pending item → item ∈ inWork ∨ lastRead < item) :
    Below pending (lowWater inWork lastRead) := by
  intro item hItem
  rcases hPending item hItem with hWork | hUnread
  · exact lowWater_lt hPositive hWork
  · exact lt_of_le_of_lt (lowWater_le hRead) hUnread

end TimelapseManager.LowWater
