import Mathlib.Data.List.Nodup

/-!
# Rows with a key

A list of rows of which no two have the same key, as a table with a primary key or a
document with ids is.  The order of the rows is kept by every operation.

* `Rows.find?` looks a row up, `Rows.restate` changes rows without changing their keys,
  `Rows.amend` the one with a given key, `Rows.erase` removes it, `Rows.append` adds a new one.
* `Rows.find?_eq_some_iff` is the lookup as membership; the other lemmas say what each
  operation does to the rows that have the key and to those that do not.
-/

namespace TimelapseManager.KeyedRows

theorem forall_mem_concat {α : Type*} {P : α → Prop} {rows : List α} {row : α}
    (hOld : ∀ old ∈ rows, P old) (hNew : P row) : ∀ old ∈ rows ++ [row], P old :=
  List.forall_mem_append.mpr ⟨hOld, List.forall_mem_singleton.mpr hNew⟩

theorem nodup_map_append {α κ : Type*} {key : α → κ} {rows : List α} {row : α}
    (hNodup : (rows.map key).Nodup) (hFresh : key row ∉ rows.map key) :
    ((rows ++ [row]).map key).Nodup := by
  rw [List.map_append, List.map_singleton, ← List.concat_eq_append]
  exact hNodup.concat hFresh

theorem perm_cons_filter {α κ : Type*} [DecidableEq κ] {key : α → κ} {rows : List α} {row : α}
    (hNodup : (rows.map key).Nodup) (hMem : row ∈ rows) :
    rows.Perm (row :: rows.filter fun other => key other ≠ key row) := by
  classical
  have hErase : (rows.filter fun other => key other ≠ key row) = rows.erase row := by
    rw [(List.Nodup.of_map _ hNodup).erase_eq_filter]
    refine List.filter_congr fun other hOther => ?_
    rw [Bool.eq_iff_iff, decide_eq_true_iff, bne_iff_ne]
    exact not_congr ⟨List.inj_on_of_nodup_map hNodup hOther hMem, congrArg key⟩
  rw [hErase]
  exact List.perm_cons_erase hMem

structure Rows {α κ : Type*} (key : α → κ) where
  rows : List α
  nodup : (rows.map key).Nodup
  deriving DecidableEq

namespace Rows

variable {α κ : Type*} {key : α → κ} (table : Rows key)

theorem eq_of_key_eq {first second : α} (hFirst : first ∈ table.rows)
    (hSecond : second ∈ table.rows) (hKey : key first = key second) : first = second :=
  List.inj_on_of_nodup_map table.nodup hFirst hSecond hKey

def restate (state : α → α) (hKey : ∀ row, key (state row) = key row) : Rows key where
  rows := table.rows.map state
  nodup := by
    have hSame : key ∘ state = key := funext hKey
    rw [List.map_map, hSame]
    exact table.nodup

def append (row : α) (hFresh : key row ∉ table.rows.map key) : Rows key where
  rows := table.rows ++ [row]
  nodup := nodup_map_append table.nodup hFresh

section Lookup

variable [DecidableEq κ]

def find? (wanted : κ) : Option α :=
  table.rows.find? fun row => key row = wanted

def amend (wanted : κ) (change : α → α) (hKey : ∀ row, key (change row) = key row) : Rows key :=
  table.restate (fun row => if key row = wanted then change row else row) (by
    intro row
    split
    · exact hKey row
    · rfl)

def erase (wanted : κ) : Rows key where
  rows := table.rows.filter fun row => key row ≠ wanted
  nodup := (List.filter_sublist.map key).nodup table.nodup

variable {table}

variable {row : α} {wanted : κ}

theorem find?_eq_some_iff :
    table.find? wanted = some row ↔ row ∈ table.rows ∧ key row = wanted := by
  constructor
  · intro hFound
    have hKey := List.find?_some hFound
    exact ⟨List.mem_of_find?_eq_some hFound, of_decide_eq_true hKey⟩
  · rintro ⟨hMem, hKey⟩
    cases hFound : table.find? wanted with
    | none => exact absurd (decide_eq_true hKey) (List.find?_eq_none.mp hFound row hMem)
    | some other =>
      have hOther := List.find?_some hFound
      have hSame := (of_decide_eq_true hOther).trans hKey.symm
      rw [table.eq_of_key_eq (List.mem_of_find?_eq_some hFound) hMem hSame]

theorem mem_amend {change : α → α} {hKey : ∀ row, key (change row) = key row}
    (hMem : row ∈ (table.amend wanted change hKey).rows) :
    (key row = wanted ∧ ∃ old ∈ table.rows, row = change old) ∨
      (row ∈ table.rows ∧ key row ≠ wanted) := by
  obtain ⟨old, hOld, rfl⟩ := List.mem_map.mp hMem
  by_cases hWanted : key old = wanted
  · rw [if_pos hWanted]
    exact Or.inl ⟨(hKey old).trans hWanted, old, hOld, rfl⟩
  · rw [if_neg hWanted]
    exact Or.inr ⟨hOld, hWanted⟩

theorem mem_amend_of_ne {change : α → α} {hKey : ∀ row, key (change row) = key row}
    (hMem : row ∈ table.rows) (hNe : key row ≠ wanted) :
    row ∈ (table.amend wanted change hKey).rows :=
  List.mem_map.mpr ⟨row, hMem, if_neg hNe⟩

theorem mem_erase_of_ne (hMem : row ∈ table.rows) (hNe : key row ≠ wanted) :
    row ∈ (table.erase wanted).rows :=
  List.mem_filter.mpr ⟨hMem, decide_eq_true hNe⟩

end Lookup

end Rows

end TimelapseManager.KeyedRows
