import TimelapseManager.Lib.SlotTable

/-!
# Closing gaps in a slot table

The slots of a group may have gaps.  `pack` lists the updates that move a run of
rows, given in increasing slot order, onto consecutive slots; rows already in
place are not written.

* `Clear.of_pack`: such a statement is clear whatever the gaps are, provided
  that the run is made of the *lowest* rows at or above its first target.
* `relocate_pack` and `relocate_pack_of_not_mem` say where each row ends.
-/

namespace TimelapseManager.SlotTable

variable {ρ ι γ : Type*} (layout : Layout ρ ι γ)

/-- The updates that move the rows of `tail` onto consecutive slots from `next`
on; a row already in place is not written. -/
def pack (next : Nat) (tail : List ρ) : List (ι × Nat) :=
  ((tail.zipIdx next).filter fun pair => pair.2 ≠ layout.slot pair.1).map
    fun pair => (layout.key pair.1, pair.2)

theorem mem_pack {next : Nat} {tail : List ρ} {update : ι × Nat} :
    update ∈ pack layout next tail ↔
      ∃ position row, tail[position]? = some row ∧ next + position ≠ layout.slot row ∧
        update = (layout.key row, next + position) := by
  constructor
  · intro hUpdate
    obtain ⟨⟨row, target⟩, hPair, rfl⟩ := List.mem_map.mp hUpdate
    obtain ⟨hZip, hMoves⟩ := List.mem_filter.mp hPair
    rw [List.mem_zipIdx_iff_le_and_getElem?_sub] at hZip
    refine ⟨target - next, row, hZip.2, ?_⟩
    have hTarget : next + (target - next) = target := by
      omega
    rw [hTarget]
    exact ⟨of_decide_eq_true hMoves, rfl⟩
  · rintro ⟨position, row, hRow, hMoves, rfl⟩
    refine List.mem_map.mpr ⟨(row, next + position), List.mem_filter.mpr ⟨?_, ?_⟩, rfl⟩
    · rw [List.mem_zipIdx_iff_le_and_getElem?_sub]
      simp [hRow]
    · simpa using hMoves

theorem pack_targets_sorted (next : Nat) (tail : List ρ) :
    ((pack layout next tail).map Prod.snd).Pairwise (· < ·) := by
  have hSublist : ((pack layout next tail).map Prod.snd).Sublist
      ((tail.zipIdx next).map Prod.snd) := by
    rw [pack, List.map_map]
    exact List.filter_sublist.map _
  rw [List.zipIdx_map_snd] at hSublist
  exact List.Pairwise.sublist hSublist List.pairwise_lt_range'

variable {row : ρ}

theorem add_position_le_slot {next : Nat} {tail : List ρ}
    (hSorted : tail.Pairwise fun first second => layout.slot first < layout.slot second)
    (hLow : ∀ row ∈ tail, next ≤ layout.slot row) {position : Nat}
    (hRow : tail[position]? = some row) : next + position ≤ layout.slot row := by
  induction tail generalizing next position with
  | nil => simp at hRow
  | cons head rest ih =>
    rw [List.pairwise_cons] at hSorted
    cases position with
    | zero => exact hLow row (List.mem_of_getElem? hRow)
    | succ position =>
      have hRest : ∀ other ∈ rest, next + 1 ≤ layout.slot other := by
        intro other hOther
        have hHead := hLow head (by simp)
        have hLt := hSorted.1 other hOther
        omega
      have hLe := ih hSorted.2 hRest (by simpa using hRow)
      omega

section Pack

variable {layout} {rows tail : List ρ} {group : γ} {next : Nat} (hRows : Distinct layout rows)
  (hTail : ∀ row ∈ tail, row ∈ rows ∧ layout.group row = group)
  (hSorted : tail.Pairwise fun first second => layout.slot first < layout.slot second)
  (hLow : ∀ row ∈ tail, next ≤ layout.slot row)
include hRows hTail hSorted

theorem keys_nodup : (tail.map layout.key).Nodup := by
  refine (List.nodup_map_iff_inj_on ?_).mpr ?_
  · refine hSorted.imp ?_
    rintro first second hLt rfl
    exact Nat.lt_irrefl _ hLt
  · intro first hFirst second hSecond hKey
    exact List.inj_on_of_nodup_map hRows.keys (hTail first hFirst).1 (hTail second hSecond).1 hKey

theorem position_eq_of_key {first second : Nat} {other : ρ} (hFirst : tail[first]? = some row)
    (hSecond : tail[second]? = some other) (hKey : layout.key row = layout.key other) :
    first = second := by
  have hLt : first < (tail.map layout.key).length := by
    rw [List.length_map]
    exact (List.getElem?_eq_some_iff.mp hFirst).1
  apply (List.getElem?_inj hLt (keys_nodup hRows hTail hSorted)).mp
  rw [List.getElem?_map, List.getElem?_map, hFirst, hSecond, Option.map_some, Option.map_some, hKey]

theorem pack_keys_nodup : ((pack layout next tail).map Prod.fst).Nodup := by
  have hSublist : ((pack layout next tail).map Prod.fst).Sublist (tail.map layout.key) := by
    rw [pack, List.map_map]
    have hZip : (tail.zipIdx next).map (layout.key ∘ Prod.fst) = tail.map layout.key := by
      rw [← List.map_map, List.zipIdx_map_fst]
    rw [← hZip]
    exact List.filter_sublist.map _
  exact (keys_nodup hRows hTail hSorted).sublist hSublist

include hLow

theorem Clear.of_pack (hFull : ∀ row ∈ rows, layout.group row = group → next ≤ layout.slot row →
      row ∉ tail → ∀ packed ∈ tail, layout.slot packed < layout.slot row) :
    Clear layout rows group (pack layout next tail) := by
  refine ⟨pack_keys_nodup hRows hTail hSorted, ?_, ?_, ?_, ?_⟩
  · exact (pack_targets_sorted layout next tail).imp Nat.ne_of_lt
  · intro row hRow hKey
    obtain ⟨update, hUpdate, hFst⟩ := List.mem_map.mp hKey
    obtain ⟨position, packed, hAt, _, rfl⟩ := (mem_pack layout).mp hUpdate
    obtain ⟨hPackedRow, hGroup⟩ := hTail packed (List.mem_of_getElem? hAt)
    rw [← List.inj_on_of_nodup_map hRows.keys hPackedRow hRow hFst]
    exact hGroup
  · -- A row on a target stands lower than the row that wants it, hence it is
    -- packed as well, further down: it is not one the statement leaves alone.
    intro row hRow hGroup hKey hSlot
    obtain ⟨update, hUpdate, hSnd⟩ := List.mem_map.mp hSlot
    obtain ⟨position, packed, hAt, hMoves, rfl⟩ := (mem_pack layout).mp hUpdate
    have hPackedLe := add_position_le_slot layout hSorted hLow hAt
    have hBelow : layout.slot row < layout.slot packed := by omega
    by_cases hMem : row ∈ tail
    · obtain ⟨other, hOther⟩ := List.mem_iff_getElem?.mp hMem
      refine hKey (List.mem_map.mpr ⟨(layout.key row, next + other), ?_, rfl⟩)
      refine (mem_pack layout).mpr ⟨other, row, hOther, ?_, rfl⟩
      intro hStays
      have hSame : other = position := by omega
      rw [hSame, hAt] at hOther
      rw [Option.some.inj hOther] at hBelow
      exact Nat.lt_irrefl _ hBelow
    · have hAbove := hFull row hRow hGroup (by omega) hMem packed (List.mem_of_getElem? hAt)
      omega
  · rw [List.pairwise_iff_forall_sublist]
    intro earlier latter hPair row hRow hKey hSlot
    have hOrder : earlier.2 < latter.2 :=
      List.pairwise_iff_forall_sublist.mp (pack_targets_sorted layout next tail)
        (hPair.map Prod.snd)
    obtain ⟨position, packed, hAt, _, rfl⟩ :=
      (mem_pack layout).mp (hPair.subset (by simp : latter ∈ [earlier, latter]))
    have hSame : row = packed :=
      List.inj_on_of_nodup_map hRows.keys hRow (hTail packed (List.mem_of_getElem? hAt)).1 hKey
    have hPackedLe := add_position_le_slot layout hSorted hLow hAt
    rw [hSame] at hSlot
    omega

omit hLow

variable [DecidableEq ι]

theorem relocate_pack {position : Nat} (hAt : tail[position]? = some row) :
    relocate layout (pack layout next tail) row = layout.move row (next + position) := by
  by_cases hMoves : next + position = layout.slot row
  · have hKey : layout.key row ∉ (pack layout next tail).map Prod.fst := by
      intro hKey
      obtain ⟨update, hUpdate, hFst⟩ := List.mem_map.mp hKey
      obtain ⟨other, packed, hOther, hNe, rfl⟩ := (mem_pack layout).mp hUpdate
      have hPosition := position_eq_of_key hRows hTail hSorted hOther hAt hFst
      rw [hPosition, hAt] at hOther
      rw [hPosition, ← Option.some.inj hOther] at hNe
      exact hNe hMoves
    rw [relocate_of_not_mem layout hKey, hMoves, layout.move_slot]
  · exact relocate_of_mem layout (pack_keys_nodup hRows hTail hSorted)
      ((mem_pack layout).mpr ⟨position, row, hAt, hMoves, rfl⟩)

omit hSorted

theorem relocate_pack_of_not_mem (hRow : row ∈ rows) (hMem : row ∉ tail) :
    relocate layout (pack layout next tail) row = row := by
  refine relocate_of_not_mem layout fun hKey => ?_
  obtain ⟨update, hUpdate, hFst⟩ := List.mem_map.mp hKey
  obtain ⟨position, packed, hAt, _, rfl⟩ := (mem_pack layout).mp hUpdate
  have hPacked := List.mem_of_getElem? hAt
  rw [← List.inj_on_of_nodup_map hRows.keys (hTail packed hPacked).1 hRow hFst] at hMem
  exact hMem hPacked

end Pack

end TimelapseManager.SlotTable
