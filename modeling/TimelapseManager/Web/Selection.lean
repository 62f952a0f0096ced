import TimelapseManager.Lib.KeyedRows
import TimelapseManager.Lib.Runs

/-!
# The selection of the frame grid

`selection.js`: the explicit id set, the descriptor of a "select all", the tiles that show the one
or the other, and the event handlers that change them.  A handler runs to its end before the next
event, so a step is one handler; a grid swap is a step together with the `rehighlight` it triggers.

What a bulk action sends is read off at the click (`bulkClick`).  Texts, announcements and the
visibility of the bars are left out; so are Undo and Retry, which send the ids of the result they
belong to.  Tile ids are unique in the document, and a tile shows its state twice, in
`data-selected` and in its checkbox.
-/

namespace TimelapseManager.Web

open KeyedRows

/-! ## The page -/

/-- A frame tile: `data-selected`, and its checkbox. -/
structure Tile where
  id : ℕ
  selected : Bool
  checked : Bool
  deriving DecidableEq, Repr

/-- The tiles of `#frame-grid` in document order. -/
abbrev Grid := Rows Tile.id

inductive SelectionScope
  | inRange
  | inProject
  deriving DecidableEq, Repr

/-- The descriptor of a "select all in range" or "in project". -/
structure Descriptor where
  scope : SelectionScope
  projectId : ℕ
  timeRange : Option (String × String)
  includeDeleted : Bool
  deselectedIds : List ℕ
  deriving DecidableEq, Repr

/-- The action bar: its selection state, or a result with the ids Retry would send. -/
inductive ActionBar
  | selection
  | result (failed : List ℕ) (processed : Bool)
  deriving DecidableEq, Repr

/-- The module's variables and the part of the document it reads and writes. -/
structure Selection where
  grid : Grid
  bar : ActionBar
  selectedIds : List ℕ
  lastToggledId : Option ℕ
  descriptor : Option Descriptor
  descriptorCount : ℕ
  descriptorLabel : String
  deleteArmedAt : Option ℕ
  deriving DecidableEq

namespace Grid

/-- The ids of the checkboxes, in document order. -/
def ids (grid : Grid) : List ℕ :=
  grid.rows.map Tile.id

/-- `applyTileState`.  Nothing happens to an id without a tile. -/
def applyTileState (grid : Grid) (id : ℕ) (on : Bool) : Grid :=
  grid.amend id (fun tile => { tile with selected := on, checked := on }) fun _ => rfl

/-- `applyTileState` for several ids, one after the other. -/
def applyTileStates (grid : Grid) (ids : List ℕ) (on : Bool) : Grid :=
  ids.foldl (fun grid id => applyTileState grid id on) grid

theorem mem_applyTileState {grid : Grid} {id : ℕ} {on : Bool} {tile : Tile}
    (hMem : tile ∈ (applyTileState grid id on).rows) :
    (tile.id = id ∧ tile.selected = on ∧ tile.checked = on) ∨
      (tile ∈ grid.rows ∧ tile.id ≠ id) := by
  rcases Rows.mem_amend hMem with ⟨hId, old, -, rfl⟩ | hOther
  · exact Or.inl ⟨hId, rfl, rfl⟩
  · exact Or.inr hOther

theorem mem_applyTileStates {grid : Grid} {ids : List ℕ} {on : Bool} {tile : Tile}
    (hMem : tile ∈ (applyTileStates grid ids on).rows) :
    (tile.id ∈ ids ∧ tile.selected = on ∧ tile.checked = on) ∨
      (tile ∈ grid.rows ∧ tile.id ∉ ids) := by
  induction ids generalizing grid with
  | nil => exact Or.inr ⟨hMem, List.not_mem_nil⟩
  | cons id ids ih =>
    rcases ih hMem with ⟨hIn, hState⟩ | ⟨hOld, hOut⟩
    · exact Or.inl ⟨List.mem_cons_of_mem _ hIn, hState⟩
    · rcases mem_applyTileState hOld with ⟨hId, hState⟩ | ⟨hOld, hId⟩
      · exact Or.inl ⟨by rw [hId]; exact List.mem_cons_self, hState⟩
      · refine Or.inr ⟨hOld, ?_⟩
        rw [List.mem_cons]
        rintro (hSame | hLater)
        · exact hId hSame
        · exact hOut hLater

end Grid

/-! ## The handlers -/

namespace Selection

variable (page : Selection)

/-- `setSelected`. -/
def setSelected (id : ℕ) (on : Bool) : Selection :=
  { page with
      selectedIds :=
        if on then page.selectedIds.insert id else page.selectedIds.filter (· ≠ id)
      grid := Grid.applyTileState page.grid id on }

/-- `clearSelectionState`.  The ids to keep stay selected if they were. -/
def clearSelectionState (keepIds : List ℕ) : Selection :=
  let kept := page.selectedIds.filter (· ∈ keepIds)
  let dropped := page.selectedIds.filter (· ∉ keepIds)
  let grid := Grid.applyTileStates page.grid dropped false
  let cleared := { page with selectedIds := kept, lastToggledId := none, grid := grid }
  match page.descriptor with
  | none => cleared
  -- Leaving a descriptor: every tile of the grid was part of it.
  | some _ =>
    { cleared with
        grid := Grid.applyTileStates grid (Grid.ids grid) false
        descriptor := none
        descriptorCount := 0
        descriptorLabel := "" }

/-- `maybeProcessBulkResult`: a fresh result consumes the selection it acted on. -/
def maybeProcessBulkResult : Selection :=
  match page.bar with
  | .result failed false =>
    { page with bar := .result failed true }.clearSelectionState failed
  | _ => page

/-- `updateBar`: a fresh result first, then a selection restores the selection bar. -/
def updateBar : Selection :=
  let page := page.maybeProcessBulkResult
  if page.selectedIds ≠ [] ∨ page.descriptor ≠ none then { page with bar := .selection }
  else page

/-- `clearSelection`. -/
def clearSelection : Selection :=
  (page.clearSelectionState []).updateBar

/-- The grid `rehighlight` leaves: the tiles of a descriptor except the deselected ones, or
the tiles of the explicit set. -/
def highlighted : Grid :=
  match page.descriptor with
  | some descriptor =>
    page.grid.restate (fun tile =>
      let want : Bool := tile.id ∉ descriptor.deselectedIds
      if tile.checked ≠ want then ⟨tile.id, want, want⟩ else tile) (by
        intro tile
        dsimp only
        split <;> rfl)
  | none => Grid.applyTileStates page.grid page.selectedIds true

/-- `rehighlight`. -/
def rehighlight : Selection :=
  -- A range cannot start from a tile that is gone.
  let lastToggledId := page.lastToggledId.filter fun id => (page.highlighted.find? id).isSome
  { page with grid := page.highlighted, lastToggledId := lastToggledId }.updateBar

/-- The ids `applyRange` sets: from one tile to the other in document order. -/
def rangeIds (fromId toId : ℕ) : Option (List ℕ) :=
  match (Grid.ids page.grid).idxOf? fromId, (Grid.ids page.grid).idxOf? toId with
  | some fromIdx, some toIdx =>
    let lo := min fromIdx toIdx
    let hi := max fromIdx toIdx
    some (((Grid.ids page.grid).drop lo).take (hi - lo + 1))
  | _, _ => none

/-- The loop of `applyRange`. -/
def setRange (ids : List ℕ) (on : Bool) : Selection :=
  ids.foldl (fun page id => page.setSelected id on) page

/-- `toggleDescriptorDeselect`. -/
def toggleDescriptorDeselect (id : ℕ) (checked : Bool) : Selection :=
  match page.descriptor with
  | none => page
  | some descriptor =>
    let known : Bool := id ∈ descriptor.deselectedIds
    let grid := Grid.applyTileState page.grid id checked
    if checked && known then
      { page with
          grid := grid
          descriptor := some { descriptor with
            deselectedIds := descriptor.deselectedIds.erase id }
          descriptorCount := page.descriptorCount + 1 }
    else if !checked && !known then
      { page with
          grid := grid
          descriptor := some { descriptor with
            deselectedIds := descriptor.deselectedIds ++ [id] }
          descriptorCount := page.descriptorCount - 1 }
    else { page with grid := grid }

/-- The `change` handler; the browser has already toggled the checkbox. -/
def change (id : ℕ) (checked : Bool) : Selection :=
  let page :=
    match page.descriptor with
    | some _ => page.toggleDescriptorDeselect id checked
    | none => page.setSelected id checked
  { page with lastToggledId := some id }.updateBar

/-- The range a shift-click on a tile would set, with the id it starts from. -/
def shiftRange (id : ℕ) : Option (List ℕ) :=
  match page.lastToggledId with
  | none => none
  | some anchor => if id = anchor then none else page.rangeIds anchor id

/-- The `click` handler with the shift key.  Without a range the click only toggles. -/
def shiftClick (tile : Tile) : Selection :=
  match page.shiftRange tile.id with
  | some ids => { page.setRange ids (!tile.checked) with lastToggledId := some tile.id }.updateBar
  | none => page.change tile.id (!tile.checked)

/-- `setDescriptor`. -/
def setDescriptor (descriptor : Descriptor) (count : ℕ) (label : String) : Selection :=
  let page := if page.selectedIds ≠ [] then page.clearSelectionState [] else page
  { page with
      descriptor := some descriptor
      descriptorCount := count
      descriptorLabel := label }.rehighlight.updateBar

/-- The Clear button of the selection bar, and Dismiss of the result bar. -/
def clearButton : Selection :=
  match page.bar with
  | .result _ _ => page.clearSelectionState []
  | .selection => page.clearSelection

end Selection

/-! ## Bulk actions -/

inductive BulkOperation
  | exclude
  | include
  | delete
  deriving DecidableEq, Repr

/-- What `postBulk` and `postBulkDescriptor` send. -/
inductive BulkRequest
  | explicit (operation : BulkOperation) (ids : List ℕ)
  | described (operation : BulkOperation) (descriptor : Descriptor)
  deriving DecidableEq

/-- `DELETE_CONFIRM_DELAY_MS`. -/
def deleteConfirmDelay : ℕ := 500

/-- The selection as a request, if there is one. -/
def Selection.request (page : Selection) (operation : BulkOperation) : Option BulkRequest :=
  match page.descriptor with
  | some descriptor => some (.described operation descriptor)
  | none => if page.selectedIds = [] then none else some (.explicit operation page.selectedIds)

/-- A click on a bulk action button.  Delete fires on a second click that comes late
enough after the first. -/
def Selection.bulkClick (page : Selection) (operation : BulkOperation) (now : ℕ) :
    Selection × Option BulkRequest :=
  if page.descriptor = none ∧ page.selectedIds = [] then (page, none)
  else
    match operation, page.deleteArmedAt with
    | .delete, none => ({ page with deleteArmedAt := some now }, none)
    | .delete, some armedAt =>
      if now - armedAt < deleteConfirmDelay then (page, none)
      else ({ page with deleteArmedAt := none }, page.request .delete)
    | operation, _ => (page, page.request operation)

/-- The frames a request acts on.  The server resolves a descriptor and subtracts the
deselected ids; what it resolves to is a parameter. -/
def BulkRequest.actsOn (resolves : Descriptor → ℕ → Prop) (id : ℕ) : BulkRequest → Prop
  | .explicit _ ids => id ∈ ids
  | .described _ descriptor => resolves descriptor id ∧ id ∉ descriptor.deselectedIds

/-! ## Interactions -/

/-- The grid after a swap: which ids it shows, and which of the tiles are elements that
were in the document before.  The template renders a tile unselected. -/
structure GridSwap where
  tiles : List (ℕ × Bool)
  nodup : (tiles.map Prod.fst).Nodup
  deriving DecidableEq

def Grid.swapTile (grid : Grid) (id : ℕ) (kept : Bool) : Tile :=
  match kept, grid.find? id with
  | true, some tile => ⟨id, tile.selected, tile.checked⟩
  | _, _ => ⟨id, false, false⟩

def Grid.swap (grid : Grid) (swap : GridSwap) : Grid where
  rows := swap.tiles.map fun entry => Grid.swapTile grid entry.1 entry.2
  nodup := by
    have hIds : Tile.id ∘ (fun entry : ℕ × Bool => Grid.swapTile grid entry.1 entry.2) =
        Prod.fst := by
      funext entry
      show (Grid.swapTile grid entry.1 entry.2).id = entry.1
      unfold Grid.swapTile
      split <;> rfl
    rw [List.map_map, hIds]
    exact swap.nodup

/-- What the user, the server's answers and the scrubber do to the page. -/
inductive Interaction
  | toggle (id : ℕ)
  | shiftClick (id : ℕ)
  | setDescriptor (descriptor : Descriptor) (count : ℕ) (label : String)
  | clear
  /-- `clearSelection` of a confirmed project switch, an export, an offset or the banner. -/
  | clearSelection
  /-- The bar is swapped to a bulk result; `processResult` is the handler of the swap. -/
  | bulkResult (failed : List ℕ)
  | processResult
  | gridSwap (swap : GridSwap)
  | bulkClick (operation : BulkOperation) (now : ℕ)
  | disarmDelete

/-- One interaction; `none` for a click on a tile that is not rendered. -/
def interact (page : Selection) : Interaction → Option Selection
  | .toggle id => (page.grid.find? id).map fun tile => page.change id (!tile.checked)
  | .shiftClick id => (page.grid.find? id).map fun tile => page.shiftClick tile
  | .setDescriptor descriptor count label => some (page.setDescriptor descriptor count label)
  | .clear => some page.clearButton
  | .clearSelection => some page.clearSelection
  | .bulkResult failed => some { page with bar := .result failed false }
  | .processResult => some page.maybeProcessBulkResult
  | .gridSwap swap => some { page with grid := Grid.swap page.grid swap }.rehighlight
  | .bulkClick operation now => some (page.bulkClick operation now).1
  | .disarmDelete => some { page with deleteArmedAt := none }

abbrev Interacts := Runs.Steps interact

/-- A freshly loaded page. -/
def Selection.load (ids : List ℕ) (hNodup : ids.Nodup) : Selection where
  grid := ⟨ids.map fun id => ⟨id, false, false⟩, by simpa [Function.comp_def] using hNodup⟩
  bar := .selection
  selectedIds := []
  lastToggledId := none
  descriptor := none
  descriptorCount := 0
  descriptorLabel := ""
  deleteArmedAt := none

/-- No shift-click sets a range while a descriptor is the selection. -/
def NoDescriptorRange (page : Selection) (interaction : Interaction) : Prop :=
  ∀ id, interaction = .shiftClick id → page.descriptor ≠ none → page.shiftRange id = none

end TimelapseManager.Web
