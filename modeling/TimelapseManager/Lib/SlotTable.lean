import Mathlib.Data.List.Nodup

/-!
# Tables with a unique slot per group, updated row by row

Every row of a table has a primary key, a group and a slot, and no two rows of one group may share
a slot.  The engine checks that constraint after *every row update*, not at the end of a statement,
so a list of updates can fail halfway although its final state would be legal.

* `placeAll` is a statement, a list of row updates carried out in order.
* `Clear` separates the three ways to collide: with another target, with a row the statement leaves
  alone, and with a row the statement only moves later.
* `placeAll_of_clear` is the rule used by every renumbering proof: a clear statement succeeds, and
  its effect is the one-pass relabelling `relocate`.
-/

namespace TimelapseManager.SlotTable

/-- How a row exposes its primary key, its group and its slot, and how its
slot is rewritten.  Moving a row changes nothing but the slot. -/
structure Layout (ρ ι γ : Type*) where
  key : ρ → ι
  group : ρ → γ
  slot : ρ → Nat
  move : ρ → Nat → ρ
  key_move : ∀ row target, key (move row target) = key row
  group_move : ∀ row target, group (move row target) = group row
  slot_move : ∀ row target, slot (move row target) = target
  move_move : ∀ row first second, move (move row first) second = move row second
  move_slot : ∀ row, move row (slot row) = row

variable {ρ ι γ : Type*} [DecidableEq ι] (layout : Layout ρ ι γ)

attribute [simp] Layout.key_move Layout.group_move Layout.slot_move
  Layout.move_move Layout.move_slot

/-- The constraint: keys are a primary key, and slots are unique per group. -/
structure Distinct (rows : List ρ) : Prop where
  keys : (rows.map layout.key).Nodup
  slots : (rows.map fun row => (layout.group row, layout.slot row)).Nodup

/-- No other row in the group of the row keyed `key` holds `target`. -/
def Vacant (rows : List ρ) (key : ι) (target : Nat) : Prop :=
  ∀ row ∈ rows, layout.key row = key →
    ∀ other ∈ rows, layout.key other ≠ key →
      layout.group other = layout.group row → layout.slot other ≠ target

/-- The net effect of a statement whose keys are distinct. -/
def relocate (updates : List (ι × Nat)) (row : ρ) : ρ :=
  match updates.lookup (layout.key row) with
  | some target => layout.move row target
  | none => row

@[simp] theorem key_relocate (updates : List (ι × Nat)) (row : ρ) :
    layout.key (relocate layout updates row) = layout.key row := by
  unfold relocate
  split <;> simp

@[simp] theorem group_relocate (updates : List (ι × Nat)) (row : ρ) :
    layout.group (relocate layout updates row) = layout.group row := by
  unfold relocate
  split <;> simp

variable {row : ρ} {update : ι × Nat} {updates rest : List (ι × Nat)} {group : γ}
  {rows next : List ρ}

/-! ## Looking up an update -/

theorem relocate_of_not_mem (hKey : layout.key row ∉ updates.map Prod.fst) :
    relocate layout updates row = row := by
  have hNone : updates.lookup (layout.key row) = none := by
    rw [List.lookup_eq_none_iff]
    intro update hUpdate
    have hNe : layout.key row ≠ update.1 := by
      intro hEq
      exact hKey (List.mem_map.mpr ⟨update, hUpdate, hEq.symm⟩)
    simpa using hNe
  simp [relocate, hNone]

theorem lookup_eq_of_mem (hKeys : (updates.map Prod.fst).Nodup) {key : ι} {target : Nat}
    (hUpdate : (key, target) ∈ updates) : updates.lookup key = some target := by
  obtain ⟨before, after, rfl⟩ := List.append_of_mem hUpdate
  refine List.lookup_eq_some_iff.mpr ⟨before, after, rfl, ?_⟩
  intro earlier hEarlier
  rw [List.map_append, List.nodup_append] at hKeys
  have hNe := hKeys.2.2 _ (List.mem_map_of_mem hEarlier) key List.mem_cons_self
  exact bne_iff_ne.mpr hNe.symm

theorem relocate_of_mem (hKeys : (updates.map Prod.fst).Nodup) {target : Nat}
    (hUpdate : (layout.key row, target) ∈ updates) :
    relocate layout updates row = layout.move row target := by
  simp [relocate, lookup_eq_of_mem hKeys hUpdate]

theorem relocate_append (later earlier : List (ι × Nat)) (row : ρ) :
    relocate layout (later ++ earlier) row =
      relocate layout later (relocate layout earlier row) := by
  cases hLater : later.lookup (layout.key row) with
      simp only [relocate.eq_def layout later, key_relocate, hLater]
  | none => simp only [relocate, List.lookup_append, hLater, Option.none_or]
  | some target =>
    simp only [relocate, List.lookup_append, hLater, Option.some_or]
    split <;> simp

theorem relocate_relocate {first second : List (ι × Nat)}
    (hKeys : ∀ key ∈ first.map Prod.fst, key ∈ second.map Prod.fst) (row : ρ) :
    relocate layout second (relocate layout first row) = relocate layout second row := by
  rw [← relocate_append]
  cases hSecond : second.lookup (layout.key row) with
  | some target => simp [relocate, List.lookup_append, hSecond]
  | none =>
    have hFirst : first.lookup (layout.key row) = none := by
      rw [List.lookup_eq_none_iff] at hSecond ⊢
      intro update hUpdate
      obtain ⟨other, hOther, hKey⟩ :=
        List.mem_map.mp (hKeys update.1 (List.mem_map_of_mem hUpdate))
      rw [← hKey]
      exact hSecond other hOther
    simp [relocate, List.lookup_append, hSecond, hFirst]

theorem relocate_perm {first second : List (ι × Nat)} (hPerm : first.Perm second)
    (hKeys : (first.map Prod.fst).Nodup) : relocate layout first = relocate layout second := by
  have hKeys' : (second.map Prod.fst).Nodup := (hPerm.map _).nodup_iff.mp hKeys
  funext row
  by_cases hMem : layout.key row ∈ first.map Prod.fst
  · obtain ⟨update, hUpdate, hKey⟩ := List.mem_map.mp hMem
    have hFirst : (layout.key row, update.2) ∈ first := by
      rw [← hKey]
      exact hUpdate
    rw [relocate_of_mem layout hKeys hFirst,
      relocate_of_mem layout hKeys' (hPerm.mem_iff.mp hFirst)]
  · have hMem' : layout.key row ∉ second.map Prod.fst := by
      intro h
      exact hMem ((hPerm.map _).mem_iff.mpr h)
    rw [relocate_of_not_mem layout hMem, relocate_of_not_mem layout hMem']

theorem relocate_eq (row : ρ) (hKey : layout.key row = update.1) :
    relocate layout [update] row = layout.move row update.2 :=
  relocate_of_mem layout (by simp) (by simp [hKey])

theorem relocate_ne (hKey : layout.key row ≠ update.1) : relocate layout [update] row = row :=
  relocate_of_not_mem layout (by simpa using hKey)

/-! ## Statements that collide with nothing -/

/-- The updates of one group collide with nothing, at any point of the
statement. -/
structure Clear (rows : List ρ) (group : γ) (updates : List (ι × Nat)) : Prop where
  /-- Every row is written at most once. -/
  keys : (updates.map Prod.fst).Nodup
  /-- No two updates share a target. -/
  targets : (updates.map Prod.snd).Nodup
  /-- The statement stays inside one group. -/
  inGroup : ∀ row ∈ rows, layout.key row ∈ updates.map Prod.fst → layout.group row = group
  /-- No row that the statement leaves alone holds a target. -/
  outside : ∀ row ∈ rows, layout.group row = group →
    layout.key row ∉ updates.map Prod.fst → layout.slot row ∉ updates.map Prod.snd
  /-- A row that moves later does not sit on an earlier target. -/
  later : updates.Pairwise fun earlier latter =>
    ∀ row ∈ rows, layout.key row = latter.1 → layout.slot row ≠ earlier.2

theorem Clear.vacant (hClear : Clear layout rows group (update :: rest)) :
    Vacant layout rows update.1 update.2 := by
  intro row hRow hKey other hOther hOtherKey hGroup
  have hRowGroup : layout.group row = group :=
    hClear.inGroup row hRow (by simp [hKey])
  by_cases hRest : layout.key other ∈ rest.map Prod.fst
  · obtain ⟨latter, hLatter, hLatterKey⟩ := List.mem_map.mp hRest
    exact (List.pairwise_cons.mp hClear.later).1 latter hLatter other hOther hLatterKey.symm
  · have hOutside := hClear.outside other hOther (hGroup.trans hRowGroup)
      (by simp [hOtherKey, hRest])
    intro hSlot
    exact hOutside (by simp [hSlot])

theorem Clear.tail (hClear : Clear layout rows group (update :: rest)) :
    Clear layout (rows.map (relocate layout [update])) group rest := by
  have hKeys := hClear.keys
  have hTargets := hClear.targets
  have hLater := hClear.later
  rw [List.map_cons, List.nodup_cons] at hKeys hTargets
  rw [List.pairwise_cons] at hLater
  refine ⟨hKeys.2, hTargets.2, ?_, ?_, ?_⟩
  · intro moved hMoved hRest
    obtain ⟨row, hRow, rfl⟩ := List.mem_map.mp hMoved
    rw [group_relocate]
    rw [key_relocate] at hRest
    exact hClear.inGroup row hRow (List.mem_cons_of_mem _ hRest)
  · intro moved hMoved hGroup hRest
    obtain ⟨row, hRow, rfl⟩ := List.mem_map.mp hMoved
    rw [group_relocate] at hGroup
    rw [key_relocate] at hRest
    by_cases hKey : layout.key row = update.1
    · simpa [relocate_eq layout row hKey] using hTargets.1
    · rw [relocate_ne layout hKey]
      have hOutside := hClear.outside row hRow hGroup (by simp [hKey, hRest])
      intro hMem
      exact hOutside (List.mem_cons_of_mem _ hMem)
  · refine hLater.2.imp_of_mem ?_
    intro earlier latter hEarlier hLatter hApart moved hMoved hKey
    obtain ⟨row, hRow, rfl⟩ := List.mem_map.mp hMoved
    rw [key_relocate] at hKey
    have hNe : layout.key row ≠ update.1 := by
      intro hEq
      exact hKeys.1 (List.mem_map.mpr ⟨latter, hLatter, hKey.symm.trans hEq⟩)
    rw [relocate_ne layout hNe]
    exact hApart row hRow hKey

omit [DecidableEq ι] in
theorem Clear.of_fresh (hKeys : (updates.map Prod.fst).Nodup)
    (hTargets : (updates.map Prod.snd).Nodup)
    (hGroup : ∀ row ∈ rows, layout.key row ∈ updates.map Prod.fst →
      layout.group row = group) (hFresh : ∀ row ∈ rows, layout.group row = group →
      layout.slot row ∉ updates.map Prod.snd) : Clear layout rows group updates := by
  refine ⟨hKeys, hTargets, hGroup, fun row hRow hIn _ => hFresh row hRow hIn, ?_⟩
  rw [List.pairwise_iff_forall_sublist]
  intro earlier latter hPair row hRow hKey hSlot
  have hEarlier : earlier ∈ updates := hPair.subset (by simp)
  have hLatter : latter ∈ updates := hPair.subset (by simp)
  have hIn : layout.group row = group :=
    hGroup row hRow (List.mem_map.mpr ⟨latter, hLatter, hKey.symm⟩)
  exact hFresh row hRow hIn (List.mem_map.mpr ⟨earlier, hEarlier, hSlot.symm⟩)

/-! ## Carrying a statement out -/

variable [DecidableEq γ]

instance (rows : List ρ) (key : ι) (target : Nat) :
    Decidable (Vacant layout rows key target) := by
  unfold Vacant
  infer_instance

/-- One row update, checked immediately. -/
def place (rows : List ρ) (update : ι × Nat) : Option (List ρ) :=
  if Vacant layout rows update.1 update.2 then
    some (rows.map (relocate layout [update]))
  else
    none

/-- A list of row updates, carried out in order; the first conflict aborts. -/
def placeAll (rows : List ρ) : List (ι × Nat) → Option (List ρ)
  | [] => some rows
  | update :: rest => (place layout rows update).bind (placeAll · rest)

@[simp] theorem placeAll_nil (rows : List ρ) : placeAll layout rows [] = some rows := rfl

@[simp] theorem placeAll_cons (rows : List ρ) (update : ι × Nat) (rest : List (ι × Nat)) :
    placeAll layout rows (update :: rest) =
      (place layout rows update).bind (placeAll layout · rest) := rfl

theorem place_distinct (hRows : Distinct layout rows)
    (hPlace : place layout rows update = some next) : Distinct layout next := by
  unfold place at hPlace
  split at hPlace
  case isFalse => cases hPlace
  case isTrue hVacant =>
    cases hPlace
    refine ⟨?_, ?_⟩
    · have hKeys : layout.key ∘ relocate layout [update] = layout.key := by
        funext row
        simp
      rw [List.map_map, hKeys]
      exact hRows.keys
    · have hInjective := List.inj_on_of_nodup_map hRows.slots
      have hKeyInjective := List.inj_on_of_nodup_map hRows.keys
      rw [List.map_map]
      refine (List.nodup_map_iff_inj_on (List.Nodup.of_map _ hRows.keys)).mpr ?_
      intro first hFirst second hSecond hEqual
      simp only [Function.comp_apply, group_relocate, Prod.mk.injEq] at hEqual
      obtain ⟨hGroup, hSlot⟩ := hEqual
      by_cases hFirstKey : layout.key first = update.1
      · by_cases hSecondKey : layout.key second = update.1
        · exact hKeyInjective hFirst hSecond (hFirstKey.trans hSecondKey.symm)
        · rw [relocate_ne layout hSecondKey] at hSlot
          refine absurd ?_ (hVacant first hFirst hFirstKey second hSecond hSecondKey hGroup.symm)
          simpa [relocate_eq layout first hFirstKey] using hSlot.symm
      · by_cases hSecondKey : layout.key second = update.1
        · rw [relocate_ne layout hFirstKey] at hSlot
          refine absurd ?_ (hVacant second hSecond hSecondKey first hFirst hFirstKey hGroup)
          simpa [relocate_eq layout second hSecondKey] using hSlot
        · rw [relocate_ne layout hFirstKey, relocate_ne layout hSecondKey] at hSlot
          exact hInjective hFirst hSecond (Prod.ext hGroup hSlot)

theorem placeAll_distinct (hRows : Distinct layout rows)
    (hPlace : placeAll layout rows updates = some next) : Distinct layout next := by
  induction updates generalizing rows with
  | nil =>
    cases hPlace
    exact hRows
  | cons update rest ih =>
    rw [placeAll_cons, Option.bind_eq_some_iff] at hPlace
    obtain ⟨middle, hHead, hTail⟩ := hPlace
    exact ih (place_distinct layout hRows hHead) hTail

theorem placeAll_forall_key (hPlace : placeAll layout rows updates = some next) (good : ι → Prop)
    (hGood : ∀ row ∈ rows, good (layout.key row)) : ∀ row ∈ next, good (layout.key row) := by
  induction updates generalizing rows with
  | nil =>
    cases hPlace
    exact hGood
  | cons update rest ih =>
    rw [placeAll_cons, Option.bind_eq_some_iff] at hPlace
    obtain ⟨middle, hHead, hTail⟩ := hPlace
    refine ih hTail ?_
    unfold place at hHead
    split at hHead
    case isFalse => cases hHead
    case isTrue =>
      cases hHead
      intro moved hMoved
      obtain ⟨row, hRow, rfl⟩ := List.mem_map.mp hMoved
      rw [key_relocate]
      exact hGood row hRow

theorem placeAll_of_absent (hAbsent : ∀ row ∈ rows, layout.key row ∉ updates.map Prod.fst) :
    placeAll layout rows updates = some (rows.map (relocate layout updates)) := by
  have hSame : rows.map (relocate layout updates) = rows := by
    refine (List.map_congr_left fun row hRow => ?_).trans (List.map_id _)
    exact relocate_of_not_mem layout (hAbsent row hRow)
  rw [hSame]
  clear hSame
  induction updates with
  | nil => rfl
  | cons update rest ih =>
    have hHead : ∀ row ∈ rows, layout.key row ≠ update.1 := by
      intro row hRow hKey
      exact hAbsent row hRow (by simp [hKey])
    have hPlace : place layout rows update = some rows := by
      have hVacant : Vacant layout rows update.1 update.2 :=
        fun row hRow hKey => absurd hKey (hHead row hRow)
      have hMap : rows.map (relocate layout [update]) = rows := by
        refine (List.map_congr_left fun row hRow => ?_).trans (List.map_id _)
        exact relocate_ne layout (hHead row hRow)
      rw [place, if_pos hVacant, hMap]
    rw [placeAll_cons, hPlace, Option.bind_some]
    exact ih fun row hRow hMem => hAbsent row hRow (List.mem_cons_of_mem _ hMem)

theorem placeAll_of_clear (hClear : Clear layout rows group updates) :
    placeAll layout rows updates = some (rows.map (relocate layout updates)) := by
  induction updates generalizing rows with
  | nil =>
    have hId : relocate layout ([] : List (ι × Nat)) = id := by
      funext row
      simp [relocate]
    simp [hId]
  | cons update rest ih =>
    have hPlace : place layout rows update = some (rows.map (relocate layout [update])) := by
      simp [place, hClear.vacant layout]
    rw [placeAll_cons, hPlace, Option.bind_some, ih (hClear.tail layout), List.map_map]
    -- What the first update has moved is not written again.
    congr 2
    funext row
    rw [Function.comp_apply, ← relocate_append]
    exact (congrFun (relocate_perm layout (List.perm_append_singleton update rest).symm
      hClear.keys) row).symm

end TimelapseManager.SlotTable
