import TimelapseManager.Lib.KeyedRows

/-!
# Dictionaries

Rows of a key and a value, in the order of insertion, seen through the lookup `get?`: one
lemma per operation says what is looked up afterwards, and one what it does to the number of
values of a kind.
-/

namespace TimelapseManager.KeyedRows

abbrev Dict (κ α : Type*) := Rows (Prod.fst : κ × α → κ)

namespace Dict

variable {κ α : Type*}

def empty : Dict κ α := ⟨[], List.nodup_nil⟩

def mapValues (dict : Dict κ α) (change : α → α) : Dict κ α :=
  dict.restate (fun row => (row.1, change row.2)) fun _ => rfl

def keep (dict : Dict κ α) (kind : α → Bool) : Dict κ α where
  rows := dict.rows.filter fun row => kind row.2
  nodup := (List.filter_sublist.map Prod.fst).nodup dict.nodup

/-- The rows that stay when the oldest ones are dropped until there are no more than `most`. -/
def newest (dict : Dict κ α) (most : ℕ) : Dict κ α where
  rows := dict.rows.drop (dict.rows.length - most)
  nodup := ((List.drop_sublist _ _).map Prod.fst).nodup dict.nodup

theorem newest_eq_self {dict : Dict κ α} {most : ℕ} (hFew : dict.rows.length ≤ most) :
    dict.newest most = dict := by
  unfold newest
  congr 1
  rw [Nat.sub_eq_zero_of_le hFew, List.drop_zero]

def count (dict : Dict κ α) (kind : α → Bool) : ℕ :=
  dict.rows.countP fun row => kind row.2

theorem count_mapValues {dict : Dict κ α} {change : α → α} {kind : α → Bool}
    (hKind : ∀ value, kind (change value) = kind value) :
    (dict.mapValues change).count kind = dict.count kind := by
  unfold count mapValues Rows.restate
  rw [List.countP_map]
  congr 1
  funext row
  exact hKind row.2

variable [DecidableEq κ]

def get? (dict : Dict κ α) (key : κ) : Option α :=
  (dict.find? key).map Prod.snd

def modify (dict : Dict κ α) (key : κ) (change : α → α) : Dict κ α :=
  dict.amend key (fun row => (row.1, change row.2)) fun _ => rfl

/-- The value is put under the key, in place of what was there. -/
def set (dict : Dict κ α) (key : κ) (value : α) : Dict κ α where
  rows := (dict.erase key).rows ++ [(key, value)]
  nodup := by
    rw [List.map_append, List.nodup_append]
    refine ⟨(dict.erase key).nodup, List.nodup_singleton _, ?_⟩
    intro other hOther wanted hWanted hSame
    obtain ⟨row, hRow, rfl⟩ := List.mem_map.mp hOther
    rw [List.mem_singleton.mp hWanted] at hSame
    exact of_decide_eq_true (List.mem_filter.mp hRow).2 hSame

variable {dict : Dict κ α} {key other : κ} {value : α} {change : α → α}

theorem get?_eq_some_iff : dict.get? key = some value ↔ (key, value) ∈ dict.rows := by
  unfold get?
  rw [Option.map_eq_some_iff]
  constructor
  · rintro ⟨row, hFind, rfl⟩
    obtain ⟨hMem, rfl⟩ := Rows.find?_eq_some_iff.mp hFind
    exact hMem
  · intro hMem
    exact ⟨(key, value), Rows.find?_eq_some_iff.mpr ⟨hMem, rfl⟩, rfl⟩

theorem get?_eq_none_iff : dict.get? key = none ↔ ∀ row ∈ dict.rows, row.1 ≠ key := by
  constructor
  · rintro hNone row hMem rfl
    have hSome : dict.get? row.1 = some row.2 := get?_eq_some_iff.mpr hMem
    rw [hNone] at hSome
    cases hSome
  · intro hNone
    cases hGet : dict.get? key with
    | none => rfl
    | some value => exact absurd rfl (hNone _ (get?_eq_some_iff.mp hGet))

@[simp] theorem get?_empty : (empty : Dict κ α).get? key = none := rfl

theorem find?_restate {state : κ × α → κ × α} (hKey : ∀ row, (state row).1 = row.1) :
    (dict.restate state hKey).find? key = (dict.find? key).map state := by
  unfold Rows.find? Rows.restate
  rw [List.find?_map]
  congr 2
  funext row
  simp only [Function.comp_apply, hKey]

@[simp] theorem get?_mapValues : (dict.mapValues change).get? key = (dict.get? key).map change := by
  unfold get? mapValues
  rw [find?_restate, Option.map_map, Option.map_map]
  rfl

theorem get?_modify :
    (dict.modify key change).get? other =
      if other = key then (dict.get? other).map change else dict.get? other := by
  unfold get? modify Rows.amend
  rw [find?_restate]
  cases hFind : dict.find? other with
  | none =>
    split
    · rfl
    · rfl
  | some row =>
    obtain ⟨-, rfl⟩ := Rows.find?_eq_some_iff.mp hFind
    by_cases hKey : row.1 = key
    · simp [hKey]
    · simp [hKey]

@[simp] theorem get?_modify_self :
    (dict.modify key change).get? key = (dict.get? key).map change := by
  rw [get?_modify, if_pos rfl]

theorem get?_modify_of_ne (hNe : other ≠ key) :
    (dict.modify key change).get? other = dict.get? other := by
  rw [get?_modify, if_neg hNe]

theorem get?_erase :
    Dict.get? (dict.erase key) other = if other = key then none else dict.get? other := by
  apply Option.ext
  intro value
  rw [get?_eq_some_iff]
  by_cases hKey : other = key
  · rw [if_pos hKey]
    constructor
    · intro hMem
      exact absurd hKey (of_decide_eq_true (List.mem_filter.mp hMem).2)
    · intro hNone
      cases hNone
  · rw [if_neg hKey, get?_eq_some_iff]
    constructor
    · intro hMem
      exact (List.mem_filter.mp hMem).1
    · intro hMem
      exact Rows.mem_erase_of_ne hMem hKey

@[simp] theorem get?_erase_self : Dict.get? (dict.erase key) key = none := by
  rw [get?_erase, if_pos rfl]

theorem get?_erase_of_ne (hNe : other ≠ key) :
    Dict.get? (dict.erase key) other = dict.get? other := by
  rw [get?_erase, if_neg hNe]

theorem get?_set :
    (dict.set key value).get? other = if other = key then some value else dict.get? other := by
  apply Option.ext
  intro found
  have hRows : (other, found) ∈ (dict.set key value).rows ↔
      (other, found) ∈ (dict.erase key).rows ∨ (other, found) = (key, value) := by
    change (other, found) ∈ (dict.erase key).rows ++ [(key, value)] ↔ _
    rw [List.mem_append, List.mem_singleton]
  rw [get?_eq_some_iff, hRows, ← get?_eq_some_iff, get?_erase, Prod.mk.injEq]
  by_cases hKey : other = key
  · rw [if_pos hKey, if_pos hKey]
    simp [hKey, eq_comm]
  · rw [if_neg hKey, if_neg hKey]
    simp [hKey]

@[simp] theorem get?_set_self : (dict.set key value).get? key = some value := by
  rw [get?_set, if_pos rfl]

theorem length_set : (dict.set key value).rows.length = (dict.erase key).rows.length + 1 :=
  List.length_append

theorem get?_set_of_ne (hNe : other ≠ key) : (dict.set key value).get? other = dict.get? other := by
  rw [get?_set, if_neg hNe]

theorem of_get?_set {found : α} (hGet : (dict.set key value).get? other = some found) :
    (other = key ∧ found = value) ∨ (other ≠ key ∧ dict.get? other = some found) := by
  rw [get?_set] at hGet
  split at hGet
  next hKey => exact Or.inl ⟨hKey, (Option.some.inj hGet).symm⟩
  next hKey => exact Or.inr ⟨hKey, hGet⟩

theorem forall_set {P : κ → α → Prop} (hNew : P key value)
    (hOld : ∀ other found, dict.get? other = some found → P other found) (other : κ) (found : α)
    (hGet : (dict.set key value).get? other = some found) : P other found := by
  rcases of_get?_set hGet with ⟨rfl, rfl⟩ | ⟨-, hGet⟩
  · exact hNew
  · exact hOld other found hGet

theorem of_get?_erase {found : α} (hGet : Dict.get? (dict.erase key) other = some found) :
    other ≠ key ∧ dict.get? other = some found := by
  rw [get?_erase] at hGet
  split at hGet
  next => cases hGet
  next hKey => exact ⟨hKey, hGet⟩

theorem rows_filter_key :
    dict.rows.filter (fun row => row.1 = key) =
      ((dict.get? key).map fun value => (key, value)).toList := by
  cases hGet : dict.get? key with
  | none =>
    refine List.filter_eq_nil_iff.mpr ?_
    intro row hRow hKey
    exact get?_eq_none_iff.mp hGet row hRow (of_decide_eq_true hKey)
  | some value =>
    have hMem : (key, value) ∈ dict.rows.filter fun row => row.1 = key :=
      List.mem_filter.mpr ⟨get?_eq_some_iff.mp hGet, decide_eq_true rfl⟩
    have hNodup : (dict.rows.filter fun row => row.1 = key).Nodup :=
      (List.Nodup.of_map Prod.fst dict.nodup).filter _
    -- All rows of the key are this one, and no row is there twice.
    have hOnly := List.eq_replicate_of_mem (a := (key, value)) fun row hRow => by
      obtain ⟨hRow, hKey⟩ := List.mem_filter.mp hRow
      exact dict.eq_of_key_eq hRow (List.mem_filter.mp hMem).1 (of_decide_eq_true hKey)
    rw [hOnly] at hNodup hMem ⊢
    have hLength := List.nodup_replicate.mp hNodup
    have hPos := List.length_pos_of_mem hMem
    rw [List.length_replicate] at hPos
    rw [Nat.le_antisymm hLength hPos]
    rfl

theorem get?_of_newest {most : ℕ} (hGet : (dict.newest most).get? key = some value) :
    dict.get? key = some value :=
  get?_eq_some_iff.mpr (List.mem_of_mem_drop (get?_eq_some_iff.mp hGet))

theorem get?_keep {kind : α → Bool} : (dict.keep kind).get? key = (dict.get? key).filter kind := by
  apply Option.ext
  intro found
  rw [get?_eq_some_iff, Option.filter_eq_some_iff, get?_eq_some_iff]
  exact List.mem_filter

section Count

variable {kind : α → Bool}

theorem count_modify (hKind : ∀ value, kind (change value) = kind value) :
    (dict.modify key change).count kind = dict.count kind := by
  unfold count modify Rows.amend Rows.restate
  rw [List.countP_map]
  congr 1
  funext row
  simp only [Function.comp_apply]
  split
  · exact hKind row.2
  · rfl

theorem count_erase (hGet : dict.get? key = some value) :
    Dict.count (dict.erase key) kind + (if kind value then 1 else 0) = dict.count kind := by
  have hPerm := perm_cons_filter dict.nodup (get?_eq_some_iff.mp hGet)
  have hCount := hPerm.countP_eq fun row => kind row.2
  rw [List.countP_cons] at hCount
  exact hCount.symm

theorem count_set_erase :
    (dict.set key value).count kind =
      Dict.count (dict.erase key) kind + if kind value then 1 else 0 := by
  unfold count set
  rw [List.countP_append, List.countP_singleton]

theorem count_set (hGet : dict.get? key = none) :
    (dict.set key value).count kind = dict.count kind + if kind value then 1 else 0 := by
  have hErase : (dict.erase key).rows = dict.rows := by
    apply List.filter_eq_self.mpr
    intro row hRow
    exact decide_eq_true (get?_eq_none_iff.mp hGet row hRow)
  rw [count_set_erase]
  unfold count
  rw [hErase]

theorem count_replace {old : α} (hGet : dict.get? key = some old) (hKind : kind value = kind old) :
    (dict.set key value).count kind = dict.count kind := by
  rw [count_set_erase, hKind, count_erase hGet]

end Count

end Dict

end TimelapseManager.KeyedRows
