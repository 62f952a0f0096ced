import Mathlib.Data.List.Sort

/-!
# Keeping the newest

Items with a key of a linear order, of which the `keep` newest are kept and the oldest of a kind.

* `mem_newest_of_few`: an item with fewer than `keep` items after it is among the newest.
* `oldest_eq_some`: the least item of a kind is the oldest one.
-/

namespace TimelapseManager.Retention

variable {α β : Type*} [LinearOrder β] (key : α → β)

def sorted (items : List α) : List α :=
  items.insertionSort fun first second => key first ≤ key second

def newest (keep : ℕ) (items : List α) : List α := (sorted key items).drop (items.length - keep)

def oldest (kind : α → Bool) (items : List α) : Option α := (sorted key items).find? kind

def later (item : α) (items : List α) : ℕ := items.countP fun other => key item < key other

variable {key} {item : α} {items : List α}

theorem mem_sorted : item ∈ sorted key items ↔ item ∈ items :=
  List.mem_insertionSort _

theorem sorted_pairwise (key : α → β) (items : List α) :
    (sorted key items).Pairwise fun first second => key first ≤ key second := by
  have : IsTrans α fun first second => key first ≤ key second := ⟨fun _ _ _ => le_trans⟩
  have : Std.Total fun first second : α => key first ≤ key second := ⟨fun _ _ => le_total _ _⟩
  exact List.pairwise_insertionSort _ items

theorem length_sorted : (sorted key items).length = items.length :=
  List.length_insertionSort _ items

theorem later_sorted : later key item (sorted key items) = later key item items :=
  (List.perm_insertionSort _ items).countP_eq _

theorem mem_newest_of_few (hKey : Function.Injective key) {keep : ℕ} (hMem : item ∈ items)
    (hFew : later key item items < keep) : item ∈ newest key keep items := by
  by_contra hOut
  have hSplit := List.take_append_drop (items.length - keep) (sorted key items)
  have hTake : item ∈ (sorted key items).take (items.length - keep) := by
    have hEither : item ∈ sorted key items := mem_sorted.mpr hMem
    rw [← hSplit, List.mem_append] at hEither
    exact hEither.resolve_right hOut
  -- Everything in the second part is after the item, and there are `keep` of these.
  have hAfter : ∀ other ∈ (sorted key items).drop (items.length - keep), key item < key other := by
    intro other hOther
    have hOrder := sorted_pairwise key items
    rw [← hSplit] at hOrder
    have hLe := (List.pairwise_append.mp hOrder).2.2 item hTake other hOther
    refine lt_of_le_of_ne hLe ?_
    intro hEq
    exact hOut (hKey hEq ▸ hOther)
  have hAll : later key item ((sorted key items).drop (items.length - keep)) =
      ((sorted key items).drop (items.length - keep)).length := by
    refine List.countP_eq_length.mpr ?_
    intro other hOther
    exact decide_eq_true (hAfter other hOther)
  have hMost : later key item ((sorted key items).drop (items.length - keep)) ≤
      later key item (sorted key items) :=
    (List.drop_sublist _ _).countP_le
  have hLength : 0 < items.length - keep := by
    by_contra hZero
    rw [Nat.eq_zero_of_not_pos hZero, List.take_zero] at hTake
    cases hTake
  rw [later_sorted, hAll, List.length_drop, length_sorted] at hMost
  omega

theorem oldest_eq_some (hKey : Function.Injective key) {kind : α → Bool} (hMem : item ∈ items)
    (hKind : kind item = true)
    (hLeast : ∀ other ∈ items, kind other = true → key item ≤ key other) :
    oldest key kind items = some item := by
  unfold oldest
  cases hFind : (sorted key items).find? kind with
  | none =>
    have hNone := List.find?_eq_none.mp hFind item (mem_sorted.mpr hMem)
    exact absurd hKind hNone
  | some found =>
    obtain ⟨hFound, before, after, hSplit, hBefore⟩ := List.find?_eq_some_iff_append.mp hFind
    have hFoundMem : found ∈ items := by
      have hIn : found ∈ sorted key items := List.mem_of_find?_eq_some hFind
      exact mem_sorted.mp hIn
    have hIn : item ∈ before ++ found :: after := by
      rw [← hSplit]
      exact mem_sorted.mpr hMem
    have hLe : key found ≤ key item := by
      rcases List.mem_append.mp hIn with hEarly | hLate
      · have hNot := hBefore item hEarly
        rw [hKind] at hNot
        cases hNot
      · rcases List.mem_cons.mp hLate with rfl | hAfter
        · exact le_rfl
        · have hOrder := sorted_pairwise key items
          rw [hSplit] at hOrder
          exact (List.pairwise_cons.mp (List.pairwise_append.mp hOrder).2.1).1 item hAfter
    rw [hKey (le_antisymm hLe (hLeast found hFoundMem hFound))]

theorem later_append (other : List α) :
    later key item (items ++ other) = later key item items + later key item other :=
  List.countP_append

theorem later_le_of_sublist {others : List α} (hSublist : others.Sublist items) :
    later key item others ≤ later key item items :=
  hSublist.countP_le

end TimelapseManager.Retention
