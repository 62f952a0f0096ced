import Mathlib

/-!
# Inverted pairs and adjacent descents

A list is walked once and only *adjacent* elements are compared under a key
into a linear order.  The question is what such a walk knows about pairs that
are far apart.  The answer used throughout this development is
`exists_descent_le`: between the members of any inverted pair there is an
adjacent descent whose lower element is at or below the lower member of the
pair.  Hence an absent descent means no inversion at all, and the smallest
descent bounds every inversion from below.
-/

namespace TimelapseManager.Inversions

variable {α κ : Type*} [LinearOrder κ] (key : α → κ)

/-- The adjacent pairs of a list, each as `(predecessor, element)`. -/
def adjacent (list : List α) : List (α × α) :=
  list.zip list.tail

@[simp] theorem adjacent_nil : adjacent ([] : List α) = [] := rfl

@[simp] theorem adjacent_singleton (head : α) : adjacent [head] = [] := rfl

@[simp] theorem adjacent_cons_cons (head next : α) (rest : List α) :
    adjacent (head :: next :: rest) = (head, next) :: adjacent (next :: rest) := rfl

variable {list : List α}

theorem mem_adjacent_cons {pair : α × α} (head : α) (hPair : pair ∈ adjacent list) :
    pair ∈ adjacent (head :: list) := by
  cases list with
  | nil => simp at hPair
  | cons next rest =>
    exact List.mem_cons_of_mem _ hPair

theorem adjacent_pairwise {relation : α → α → Prop} (hList : list.Pairwise relation) {pair : α × α}
    (hPair : pair ∈ adjacent list) : pair.1 ∈ list ∧ pair.2 ∈ list ∧ relation pair.1 pair.2 := by
  induction list with
  | nil => simp at hPair
  | cons head rest ih =>
    rw [List.pairwise_cons] at hList
    cases rest with
    | nil => simp at hPair
    | cons next rest =>
      rw [adjacent_cons_cons, List.mem_cons] at hPair
      rcases hPair with rfl | hPair
      · exact ⟨by simp, by simp, hList.1 next (by simp)⟩
      · obtain ⟨hFirst, hSecond, hRelated⟩ := ih hList.2 hPair
        exact ⟨List.mem_cons_of_mem _ hFirst, List.mem_cons_of_mem _ hSecond, hRelated⟩

theorem exists_next {list : List κ} (hSorted : list.Pairwise (· < ·)) {low high : κ}
    (hLow : low ∈ list) (hHigh : high ∈ list) (hLess : low < high) :
    ∃ next, (low, next) ∈ adjacent list ∧ next ≤ high := by
  induction list with
  | nil => simp at hLow
  | cons head rest ih =>
    obtain ⟨hHead, hRest⟩ := List.pairwise_cons.mp hSorted
    have hBehind : high ∈ rest := by
      refine List.mem_of_ne_of_mem ?_ hHigh
      rintro rfl
      rcases List.mem_cons.mp hLow with rfl | hLow
      · exact lt_irrefl _ hLess
      · exact lt_asymm hLess (hHead low hLow)
    rcases List.mem_cons.mp hLow with rfl | hLow
    · cases rest with
      | nil => simp at hBehind
      | cons next rest =>
        refine ⟨next, by simp, ?_⟩
        rcases List.mem_cons.mp hBehind with rfl | hLater
        · exact le_rfl
        · exact ((List.pairwise_cons.mp hRest).1 high hLater).le
    · obtain ⟨next, hNext, hLe⟩ := ih hRest hLow hBehind
      exact ⟨next, mem_adjacent_cons head hNext, hLe⟩

theorem exists_descent_le_of_head {head low : α} {rest : List α}
    (hLow : low ∈ rest) (hInverted : key low < key head) :
    ∃ pair ∈ adjacent (head :: rest), key pair.2 < key pair.1 ∧ key pair.2 ≤ key low := by
  induction rest generalizing head with
  | nil => simp at hLow
  | cons next rest ih =>
    -- Either the very next element already descends far enough, or `low`
    -- still lies strictly below it and the search moves one element on.
    by_cases hDone : key next ≤ key low
    · exact ⟨(head, next), by simp, lt_of_le_of_lt hDone hInverted, hDone⟩
    · have hBelow : key low < key next := lt_of_not_ge hDone
      have hRest := List.mem_of_ne_of_mem (by rintro rfl; exact hDone le_rfl) hLow
      obtain ⟨pair, hPair, hDescent⟩ := ih hRest hBelow
      exact ⟨pair, mem_adjacent_cons head hPair, hDescent⟩

theorem exists_descent_le {relation : α → α → Prop} (hAsymm : ∀ a b, relation a b → ¬ relation b a)
    (hList : list.Pairwise relation) {high low : α} (hHigh : high ∈ list) (hLow : low ∈ list)
    (hBefore : relation high low) (hInverted : key low < key high) :
    ∃ pair ∈ adjacent list, key pair.2 < key pair.1 ∧ key pair.2 ≤ key low := by
  induction list with
  | nil => simp at hHigh
  | cons head rest ih =>
    rw [List.pairwise_cons] at hList
    rcases List.mem_cons.mp hHigh with rfl | hHighRest
    · have hLowRest := List.mem_of_ne_of_mem (by rintro rfl; exact lt_irrefl _ hInverted) hLow
      exact exists_descent_le_of_head key hLowRest hInverted
    · have hNe : low ≠ head := by
        rintro rfl
        exact hAsymm _ _ hBefore (hList.1 high hHighRest)
      have hLowRest := List.mem_of_ne_of_mem hNe hLow
      obtain ⟨pair, hPair, hDescent⟩ := ih hList.2 hHighRest hLowRest
      exact ⟨pair, mem_adjacent_cons head hPair, hDescent⟩

end TimelapseManager.Inversions
