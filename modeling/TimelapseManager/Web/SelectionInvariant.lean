import TimelapseManager.Web.Selection

/-!
# What the grid shows is what a bulk action sends

The invariant of the selection page (`SelectionInv`), what each handler does to it, and the run
theorem.  `setSelected` keeps the invariant only in explicit mode; `change` asks for the mode and
the shift-click does not, which is what the guard `NoDescriptorRange` excludes.
-/

namespace TimelapseManager.Web

open KeyedRows Runs

/-! ## What is shown and what is sent -/

/-- The tile does not show that its frame is selected. -/
def Tile.ShownUnselected (tile : Tile) : Prop :=
  tile.selected = false ∨ tile.checked = false

/-- A selection of either kind is shown by every rendered tile it contains. -/
structure SelectionInv (page : Selection) : Prop where
  agree : ∀ tile ∈ page.grid.rows, tile.selected = tile.checked
  exclusive : page.descriptor ≠ none → page.selectedIds = []
  shown : ∀ tile ∈ page.grid.rows, tile.id ∈ page.selectedIds → tile.checked = true
  described : ∀ descriptor, page.descriptor = some descriptor →
    ∀ tile ∈ page.grid.rows, tile.checked = false → tile.id ∈ descriptor.deselectedIds

section Invariant

variable {page : Selection}

theorem load_inv (ids : List ℕ) (hNodup : ids.Nodup) : SelectionInv (.load ids hNodup) := by
  refine ⟨?_, fun _ => rfl, fun _ _ => nofun, nofun⟩
  intro tile hMem
  obtain ⟨id, -, rfl⟩ := List.mem_map.mp hMem
  rfl

theorem applyTileState_agree {grid : Grid} (id : ℕ) (on : Bool)
    (hAgree : ∀ tile ∈ grid.rows, tile.selected = tile.checked) :
    ∀ tile ∈ (Grid.applyTileState grid id on).rows, tile.selected = tile.checked := by
  intro tile hMem
  rcases Grid.mem_applyTileState hMem with ⟨-, hSelected, hChecked⟩ | ⟨hOld, -⟩
  · rw [hSelected, hChecked]
  · exact hAgree tile hOld

theorem applyTileStates_agree {grid : Grid} {ids : List ℕ} {on : Bool}
    (hAgree : ∀ tile ∈ grid.rows, tile.selected = tile.checked) :
    ∀ tile ∈ (Grid.applyTileStates grid ids on).rows, tile.selected = tile.checked := by
  induction ids generalizing grid with
  | nil => exact hAgree
  | cons id ids ih => exact ih (applyTileState_agree id on hAgree)

section

variable (hInv : SelectionInv page)
include hInv

theorem clearSelectionState_inv (keepIds : List ℕ) :
    SelectionInv (page.clearSelectionState keepIds) := by
  unfold Selection.clearSelectionState
  split
  next hNone =>
    refine ⟨applyTileStates_agree hInv.agree, fun hSome => absurd hNone hSome, ?_, ?_⟩
    · intro tile hMem hKept
      obtain ⟨hSelected, hKeep⟩ := List.mem_filter.mp hKept
      rcases Grid.mem_applyTileStates hMem with ⟨hDropped, -⟩ | ⟨hOld, -⟩
      · -- A kept id is not among the dropped ones.
        have hNotKeep := (List.mem_filter.mp hDropped).2
        exact absurd (of_decide_eq_true hKeep) (of_decide_eq_true hNotKeep)
      · exact hInv.shown tile hOld hSelected
    · intro descriptor hDescriptor
      rw [hNone] at hDescriptor
      cases hDescriptor
  next old hSome =>
    have hEmpty := hInv.exclusive (by rw [hSome]; exact Option.some_ne_none old)
    refine ⟨applyTileStates_agree (applyTileStates_agree hInv.agree),
      fun hNone => absurd rfl hNone, ?_, ?_⟩
    · intro tile _ hKept
      rw [hEmpty] at hKept
      cases hKept
    · intro descriptor hDescriptor
      cases hDescriptor

theorem maybeProcessBulkResult_inv : SelectionInv page.maybeProcessBulkResult := by
  unfold Selection.maybeProcessBulkResult
  split
  next failed _ =>
    have hMarked : SelectionInv { page with bar := .result failed true } := { hInv with }
    exact clearSelectionState_inv hMarked failed
  next => exact hInv

theorem updateBar_inv : SelectionInv page.updateBar := by
  have hProcessed := maybeProcessBulkResult_inv hInv
  unfold Selection.updateBar
  dsimp only
  split
  · exact { hProcessed with }
  · exact hProcessed

theorem clearSelection_inv : SelectionInv page.clearSelection :=
  updateBar_inv (clearSelectionState_inv hInv [])

end

theorem highlighted_agree (hAgree : ∀ tile ∈ page.grid.rows, tile.selected = tile.checked) :
    ∀ tile ∈ page.highlighted.rows, tile.selected = tile.checked := by
  unfold Selection.highlighted
  split
  next descriptor _ =>
    intro tile hMem
    obtain ⟨old, hOld, rfl⟩ := List.mem_map.mp hMem
    dsimp only
    split
    · rfl
    · exact hAgree old hOld
  next => exact applyTileStates_agree hAgree

theorem highlighted_described {descriptor : Descriptor}
    (hDescriptor : page.descriptor = some descriptor) :
    ∀ tile ∈ page.highlighted.rows, tile.checked = false → tile.id ∈ descriptor.deselectedIds := by
  intro tile hMem hUnchecked
  unfold Selection.highlighted at hMem
  rw [hDescriptor] at hMem
  obtain ⟨old, -, rfl⟩ := List.mem_map.mp hMem
  dsimp only at hUnchecked ⊢
  -- Rewritten or left alone, the tile's checkbox is what was wanted.
  split at hUnchecked
  next hDiffers =>
    rw [if_pos hDiffers]
    by_contra hNot
    rw [decide_eq_true hNot] at hUnchecked
    cases hUnchecked
  next hSame =>
    rw [if_neg hSame]
    by_contra hNot
    rw [not_not.mp hSame, decide_eq_true hNot] at hUnchecked
    cases hUnchecked

theorem rehighlight_inv (hAgree : ∀ tile ∈ page.grid.rows, tile.selected = tile.checked)
    (hExclusive : page.descriptor ≠ none → page.selectedIds = []) :
    SelectionInv page.rehighlight := by
  apply updateBar_inv
  constructor
  · exact highlighted_agree hAgree
  · exact hExclusive
  · intro tile hMem hSelected
    by_cases hNone : page.descriptor = none
    · unfold Selection.highlighted at hMem
      rw [hNone] at hMem
      rcases Grid.mem_applyTileStates hMem with ⟨-, -, hChecked⟩ | ⟨-, hNot⟩
      · exact hChecked
      · exact absurd hSelected hNot
    · rw [hExclusive hNone] at hSelected
      cases hSelected
  · intro descriptor hDescriptor
    exact highlighted_described hDescriptor

section

variable (hInv : SelectionInv page)
include hInv

theorem gridSwap_inv (swap : GridSwap) :
    SelectionInv { page with grid := Grid.swap page.grid swap }.rehighlight := by
  apply rehighlight_inv
  · intro tile hMem
    obtain ⟨entry, -, rfl⟩ := List.mem_map.mp hMem
    unfold Grid.swapTile
    split
    next old _ hFound => exact hInv.agree old (List.mem_of_find?_eq_some hFound)
    next => rfl
  · exact hInv.exclusive

theorem setDescriptor_inv (descriptor : Descriptor) (count : ℕ)
    (label : String) : SelectionInv (page.setDescriptor descriptor count label) := by
  unfold Selection.setDescriptor
  apply updateBar_inv
  apply rehighlight_inv
  · dsimp only
    split
    · exact (clearSelectionState_inv hInv []).agree
    · exact hInv.agree
  · intro _
    split
    · -- Clearing keeps nothing of the explicit set.
      have hCleared : (page.clearSelectionState []).selectedIds = [] := by
        unfold Selection.clearSelectionState
        split <;> simp
      exact hCleared
    next hEmpty => exact not_not.mp hEmpty

theorem setSelected_inv (hNone : page.descriptor = none) (id : ℕ)
    (on : Bool) : SelectionInv (page.setSelected id on) := by
  have hAgree := applyTileState_agree id on hInv.agree
  refine ⟨hAgree, fun hSome => absurd hNone hSome, ?_, ?_⟩
  · intro tile hMem hSelected
    rcases Grid.mem_applyTileState hMem with ⟨hId, -, hChecked⟩ | ⟨hOld, hOther⟩
    · rw [hChecked]
      cases on with
      | true => rfl
      | false =>
        exact absurd hId (of_decide_eq_true (List.mem_filter.mp hSelected).2)
    · apply hInv.shown tile hOld
      cases on with
      | true =>
        exact (List.mem_insert_iff.mp hSelected).resolve_left hOther
      | false =>
        exact (List.mem_filter.mp hSelected).1
  · intro descriptor hDescriptor
    change page.descriptor = some descriptor at hDescriptor
    rw [hNone] at hDescriptor
    cases hDescriptor

theorem setRange_inv (hNone : page.descriptor = none)
    (ids : List ℕ) (on : Bool) : SelectionInv (page.setRange ids on) := by
  induction ids generalizing page with
  | nil => exact hInv
  | cons id ids ih => exact ih (setSelected_inv hInv hNone id on) hNone

theorem toggleDescriptorDeselect_inv (id : ℕ) (checked : Bool) :
    SelectionInv (page.toggleDescriptorDeselect id checked) := by
  unfold Selection.toggleDescriptorDeselect
  split
  next => exact hInv
  next descriptor hDescriptor =>
    have hEmpty := hInv.exclusive (by rw [hDescriptor]; exact Option.some_ne_none descriptor)
    have hAgree := applyTileState_agree id checked hInv.agree
    have hShown : ∀ tile ∈ (Grid.applyTileState page.grid id checked).rows,
        tile.id ∈ page.selectedIds → tile.checked = true := by
      intro tile _ hSelected
      rw [hEmpty] at hSelected
      cases hSelected
    -- The tile itself shows its new state, the others keep their entry.
    have hDescribed : ∀ ids : List ℕ, (checked = false → id ∈ ids) →
        (∀ other ∈ descriptor.deselectedIds, other ≠ id → other ∈ ids) →
        ∀ tile ∈ (Grid.applyTileState page.grid id checked).rows, tile.checked = false →
          tile.id ∈ ids := by
      intro ids hOwn hOthers tile hMem hUnchecked
      rcases Grid.mem_applyTileState hMem with ⟨hId, -, hChecked⟩ | ⟨hOld, hNe⟩
      · rw [hId]
        exact hOwn (hChecked.symm.trans hUnchecked)
      · exact hOthers _ (hInv.described descriptor hDescriptor tile hOld hUnchecked) hNe
    dsimp only
    split_ifs with hBack hOff <;> refine ⟨hAgree, fun _ => hEmpty, hShown, ?_⟩ <;>
      intro other hOther
    · -- Back in the selection.
      cases hOther
      obtain ⟨rfl, -⟩ := Bool.and_eq_true_iff.mp hBack
      exact hDescribed _ nofun fun other hMem hNe => (List.mem_erase_of_ne hNe).mpr hMem
    · -- Deselected: its id is appended.
      cases hOther
      exact hDescribed _ (fun _ => List.mem_concat_self) fun _ hMem _ => List.mem_append_left _ hMem
    · -- The list already says so.
      rw [hDescriptor] at hOther
      cases hOther
      refine hDescribed _ ?_ fun _ hMem _ => hMem
      intro hUnchecked
      by_contra hUnknown
      apply hOff
      rw [hUnchecked, decide_eq_false hUnknown]
      rfl

theorem change_inv (id : ℕ) (checked : Bool) : SelectionInv (page.change id checked) := by
  unfold Selection.change
  apply updateBar_inv
  split
  next => exact { toggleDescriptorDeselect_inv hInv id checked with }
  next hNone => exact { setSelected_inv hInv hNone id checked with }

theorem shiftClick_inv (tile : Tile)
    (hGuard : page.descriptor ≠ none → page.shiftRange tile.id = none) :
    SelectionInv (page.shiftClick tile) := by
  unfold Selection.shiftClick
  split
  next ids hRange =>
    have hNone : page.descriptor = none := by
      by_contra hSome
      rw [hGuard hSome] at hRange
      cases hRange
    exact updateBar_inv { setRange_inv hInv hNone ids _ with }
  next => exact change_inv hInv tile.id _

theorem bulkClick_inv (operation : BulkOperation) (now : ℕ) :
    SelectionInv (page.bulkClick operation now).1 := by
  unfold Selection.bulkClick
  split
  · exact hInv
  · split
    · exact { hInv with }
    · split
      · exact hInv
      · exact { hInv with }
    · exact hInv

end

theorem interacts_inv {next : Selection} {interaction : Interaction}
    (hGuard : NoDescriptorRange page interaction) (hStep : Interacts page interaction next)
    (hInv : SelectionInv page) : SelectionInv next := by
  unfold Interacts Steps at hStep
  cases interaction with
  | toggle id =>
    obtain ⟨tile, -, rfl⟩ := Option.map_eq_some_iff.mp hStep
    exact change_inv hInv id _
  | shiftClick id =>
    obtain ⟨tile, hFound, rfl⟩ := Option.map_eq_some_iff.mp hStep
    apply shiftClick_inv hInv tile
    rw [(Rows.find?_eq_some_iff.mp hFound).2]
    exact hGuard id rfl
  | setDescriptor descriptor count label =>
    cases hStep
    exact setDescriptor_inv hInv descriptor count label
  | clear =>
    cases hStep
    unfold Selection.clearButton
    split
    · exact clearSelectionState_inv hInv []
    · exact clearSelection_inv hInv
  | clearSelection =>
    cases hStep
    exact clearSelection_inv hInv
  | bulkResult failed | disarmDelete =>
    cases hStep
    exact { hInv with }
  | processResult =>
    cases hStep
    exact maybeProcessBulkResult_inv hInv
  | gridSwap swap =>
    cases hStep
    exact gridSwap_inv hInv swap
  | bulkClick operation now =>
    cases hStep
    exact bulkClick_inv hInv operation now

variable {request : BulkRequest}

theorem bulkClick_sends {operation : BulkOperation} {now : ℕ}
    (hSent : (page.bulkClick operation now).2 = some request) :
    page.request operation = some request := by
  unfold Selection.bulkClick at hSent
  split at hSent
  · cases hSent
  · split at hSent
    · cases hSent
    · split at hSent
      · cases hSent
      · exact hSent
    · exact hSent

/-- A request spares the rendered tiles that are shown unselected. -/
structure BulkRequest.Spares (request : BulkRequest) (id : ℕ) : Prop where
  explicit : ∀ operation ids, request = .explicit operation ids → id ∉ ids
  described : ∀ operation descriptor, request = .described operation descriptor →
    id ∈ descriptor.deselectedIds

theorem SelectionInv.request_spares (hInv : SelectionInv page) {operation : BulkOperation}
    (hRequest : page.request operation = some request) {tile : Tile} (hMem : tile ∈ page.grid.rows)
    (hUnselected : tile.ShownUnselected) : request.Spares tile.id := by
  have hUnchecked : tile.checked = false := by
    rcases hUnselected with hSelected | hUnchecked
    · rw [← hInv.agree tile hMem]
      exact hSelected
    · exact hUnchecked
  unfold Selection.request at hRequest
  split at hRequest
  next descriptor hDescriptor =>
    cases hRequest
    refine ⟨nofun, ?_⟩
    intro _ _ hSame
    cases hSame
    exact hInv.described descriptor hDescriptor tile hMem hUnchecked
  next =>
    split at hRequest
    · cases hRequest
    · cases hRequest
      refine ⟨?_, nofun⟩
      intro _ _ hSame hSelected
      cases hSame
      rw [hInv.shown tile hMem hSelected] at hUnchecked
      cases hUnchecked

end Invariant

/-! ## Every run -/

/-- From a loaded page, through any interactions of which none sets a range over a
descriptor: the explicit set is empty while a descriptor is set, and a bulk action does not
act on a frame whose tile is shown unselected.  What a descriptor resolves to plays no
role. -/
theorem bulk_actions_spare_unselected {ids : List ℕ} {hNodup : ids.Nodup}
    {interactions : List Interaction} {last : Selection}
    (hRun : Run (Guarded Interacts NoDescriptorRange) (.load ids hNodup) interactions last) :
    (last.descriptor ≠ none → last.selectedIds = []) ∧
      ∀ operation now request, (last.bulkClick operation now).2 = some request →
        ∀ tile ∈ last.grid.rows, tile.ShownUnselected →
          request.Spares tile.id ∧ ∀ resolves, ¬ request.actsOn resolves tile.id := by
  have hInv : SelectionInv last := by
    apply Run.invariant SelectionInv _ hRun (load_inv ids hNodup)
    intro before interaction after hBefore hStep
    exact interacts_inv hStep.2 hStep.1 hBefore
  refine ⟨hInv.exclusive, ?_⟩
  intro operation now request hSent tile hMem hUnselected
  have hSpares := hInv.request_spares (bulkClick_sends hSent) hMem hUnselected
  refine ⟨hSpares, fun resolves => ?_⟩
  cases request with
  | explicit operation ids => exact hSpares.explicit operation ids rfl
  | described operation descriptor =>
    intro hActs
    exact hActs.2 (hSpares.described operation descriptor rfl)

/-- A project of three frames, all selected. -/
def wholeProject : Descriptor where
  scope := .inProject
  projectId := 1
  timeRange := none
  includeDeleted := false
  deselectedIds := []

/-- The page after "select all in project" and deselecting frame 2. -/
def allButTwo : Selection where
  grid := ⟨[⟨1, true, true⟩, ⟨2, false, false⟩, ⟨3, true, true⟩], by decide⟩
  bar := .selection
  selectedIds := []
  lastToggledId := some 2
  descriptor := some { wholeProject with deselectedIds := [2] }
  descriptorCount := 2
  descriptorLabel := ""
  deleteArmedAt := none

/-- A frame deselected from the whole project is left out of an exclude. -/
theorem bulk_actions_spare_unselected_project :
    (allButTwo.bulkClick .exclude 0).2 =
        some (.described .exclude { wholeProject with deselectedIds := [2] }) ∧
      ∀ resolves, ¬ (BulkRequest.described .exclude
        { wholeProject with deselectedIds := [2] }).actsOn resolves 2 := by
  have hRun : Run (Guarded Interacts NoDescriptorRange) (.load [1, 2, 3] (by decide))
      [.toggle 1, .setDescriptor wholeProject 3 "", .toggle 2] allButTwo := by
    apply Run.of_exec
    · intro interaction hMem state id hShift
      rw [hShift] at hMem
      simp at hMem
    · decide
  have hSpared := (bulk_actions_spare_unselected hRun).2 .exclude 0 _ rfl ⟨2, false, false⟩
    (by decide) (Or.inl rfl)
  exact ⟨rfl, hSpared.2⟩

/-- A shift-click sets the explicit set behind a descriptor's back: deselecting 1 and then,
with shift, 3 shows three unselected tiles while only 1 is in `deselected_ids`; and the other
way round the explicit set fills up. -/
theorem shift_range_over_descriptor :
    (∃ last, Run Interacts (.load [1, 2, 3] (by decide))
        [.setDescriptor wholeProject 3 "", .toggle 1, .shiftClick 3] last ∧
      (last.bulkClick .exclude 0).2 =
        some (.described .exclude { wholeProject with deselectedIds := [1] }) ∧
      (⟨2, false, false⟩ : Tile) ∈ last.grid.rows ∧
      (BulkRequest.described .exclude { wholeProject with deselectedIds := [1] }).actsOn
        (fun _ _ => True) 2) ∧
    ∃ last, Run Interacts (.load [1, 2, 3] (by decide))
        [.setDescriptor wholeProject 3 "", .toggle 3, .toggle 1, .shiftClick 3] last ∧
      last.descriptor ≠ none ∧ last.selectedIds = [3, 2, 1] := by
  constructor
  · refine ⟨_, Run.cons rfl (Run.cons rfl (Run.cons rfl (Run.nil _))), rfl, by decide, ?_⟩
    exact ⟨trivial, by decide⟩
  · refine ⟨_, Run.cons rfl (Run.cons rfl (Run.cons rfl (Run.cons rfl (Run.nil _)))), ?_, rfl⟩
    decide

end TimelapseManager.Web
