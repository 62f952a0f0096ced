import TimelapseManager.Lib.Runs
import TimelapseManager.Lib.Semaphore

/-!
# Capture slots on one camera

`CameraSessionRegistry.capture_slot` lets at most two captures run on a camera, or one if a
project on it uses PTZ.  The two modes have semaphores of their own: a call that finds the camera
in the other mode replaces the semaphore, while captures may still hold or await the old one.

`slots_kept` is about the runs in which the mode changes only between captures (`KeepsMode`),
`slots_overlap` is a run in which it does not.
-/

namespace TimelapseManager.Capture.CaptureSlots

open Runs Semaphores
open Function (update_of_ne update_self update)

def sharedSlotCapacity : ℕ := 2

/-- A call of `capture_slot`: which capture makes it, and its `exclusive`. -/
structure Request where
  capture : ℕ
  exclusive : Bool
  deriving DecidableEq

/-- A capture inside its block, with the semaphore it took its slot from.  `exclusive` says
whether the camera was in exclusive mode when it did. -/
structure Holder where
  capture : ℕ
  semaphore : ℕ
  exclusive : Bool
  deriving DecidableEq

/-- One camera: whether it is in `_ptz_cameras`, its `_CameraRuntime`, and the captures that
hold a slot.  Semaphores are numbered, since a replaced one lives on with its captures. -/
structure SlotState where
  ptz : Bool
  exclusive : Bool
  current : ℕ
  semaphores : ℕ → Semaphore Request
  holders : List Holder

/-- A camera without captures, as `_CameraRuntime()` makes it. -/
def SlotState.initial (ptz : Bool) : SlotState where
  ptz := ptz
  exclusive := false
  current := 0
  semaphores := fun _ => Semaphore.new sharedSlotCapacity
  holders := []

def capacity (exclusive : Bool) : ℕ :=
  if exclusive then 1 else sharedSlotCapacity

/-- `semaphore_for`: in another mode than before, the camera gets a new semaphore. -/
def SlotState.semaphoreFor (state : SlotState) (exclusive : Bool) : SlotState :=
  if exclusive ≠ state.exclusive then
    { state with
      exclusive := exclusive
      current := state.current + 1
      semaphores := update state.semaphores (state.current + 1)
        (Semaphore.new (capacity exclusive)) }
  else state

/-- The mode a call of `capture_slot` finds the camera in. -/
def SlotState.mode (state : SlotState) (request : Request) : Bool :=
  request.exclusive || state.ptz

def SlotState.put (state : SlotState) (index : ℕ) (semaphore : Semaphore Request) : SlotState :=
  { state with semaphores := update state.semaphores index semaphore }

def SlotState.hold (state : SlotState) (index : ℕ) (request : Request) : SlotState :=
  { state with holders := ⟨request.capture, index, state.mode request⟩ :: state.holders }

/-- What happens on the camera: the projects on it change; a capture asks for a slot; a granted
capture goes on; a waiting one times out; a granted one is cancelled before it goes on; a timed
out one gives up; a holder is done. -/
inductive Label
  | setPtzCameras (ptz : Bool)
  | captureSlot (request : Request)
  | acquired (index : ℕ) (request : Request)
  | timedOut (index : ℕ) (request : Request)
  | interrupted (index : ℕ) (request : Request)
  | gaveUp (index : ℕ) (request : Request)
  | released (holder : Holder)

def step (state : SlotState) : Label → Option SlotState
  | .setPtzCameras ptz => some { state with ptz := ptz }
  | .captureSlot request =>
    let state := state.semaphoreFor (state.mode request)
    let (semaphore, acquired) := (state.semaphores state.current).acquire request
    let state := state.put state.current semaphore
    some (if acquired then state.hold state.current request else state)
  | .acquired index request =>
    if (request, Wait.granted) ∈ (state.semaphores index).waiters then
      some ((state.put index ((state.semaphores index).resume request)).hold index request)
    else none
  | .timedOut index request =>
    if (request, Wait.pending) ∈ (state.semaphores index).waiters then
      some (state.put index ((state.semaphores index).cancel request))
    else none
  | .interrupted index request =>
    if (request, Wait.granted) ∈ (state.semaphores index).waiters then
      some (state.put index ((state.semaphores index).interrupt request))
    else none
  | .gaveUp index request =>
    if (request, Wait.cancelled) ∈ (state.semaphores index).waiters then
      some (state.put index ((state.semaphores index).leave request))
    else none
  | .released holder =>
    if holder ∈ state.holders then
      let state := state.put holder.semaphore (state.semaphores holder.semaphore).release
      some { state with holders := state.holders.erase holder }
    else none

abbrev SlotStep := Steps step

/-- At most two captures hold a slot, and one that got it in exclusive mode holds it alone. -/
structure SlotState.Kept (state : SlotState) : Prop where
  two : state.holders.length ≤ sharedSlotCapacity
  alone : ∀ holder ∈ state.holders, holder.exclusive = true → state.holders = [holder]

/-! ## The mode changes between captures only -/

def SlotState.Idle (state : SlotState) : Prop :=
  state.holders = [] ∧
    ∀ index ≤ state.current, ∀ waiter ∈ (state.semaphores index).waiters, waiter.2 = .cancelled

instance (state : SlotState) : Decidable state.Idle :=
  inferInstanceAs (Decidable (_ ∧ ∀ index ≤ state.current, _))

/-- A call in the other mode finds the camera idle, and no capture gets a shared slot while the
camera is a PTZ camera. -/
def KeepsMode (state : SlotState) : Label → Prop
  | .captureSlot request => state.mode request = state.exclusive ∨ state.Idle
  | .acquired _ _ => state.ptz = true → state.exclusive = true
  | _ => True

instance (state : SlotState) (label : Label) : Decidable (KeepsMode state label) := by
  cases label <;> unfold KeepsMode <;> infer_instance

namespace SlotState

/-- All captures are at the current semaphore, whose slots they share. -/
structure Sound (state : SlotState) : Prop where
  here : ∀ holder ∈ state.holders, holder.semaphore = state.current
  balanced : (state.semaphores state.current).Balanced (capacity state.exclusive)
    state.holders.length
  quiet : ∀ index, index ≠ state.current → ∀ waiter ∈ (state.semaphores index).waiters,
    waiter.2 = .cancelled
  asked : ∀ request ∈ (state.semaphores state.current).parties, request.exclusive = true →
    state.exclusive = true
  flagged : ∀ holder ∈ state.holders, holder.exclusive = true → state.exclusive = true

section Steps

variable {state : SlotState}

theorem Sound.initial (ptz : Bool) : (initial ptz).Sound where
  here := by simp [SlotState.initial]
  balanced := Semaphore.balanced_new _
  quiet := by simp [SlotState.initial, Semaphore.new]
  asked := by simp [SlotState.initial, Semaphore.new, Semaphore.parties]
  flagged := by simp [SlotState.initial]

section

variable (hSound : state.Sound)
include hSound

theorem Sound.kept : state.Kept where
  two := by
    have hHeld := hSound.balanced.held_le
    unfold capacity sharedSlotCapacity at hHeld
    unfold sharedSlotCapacity
    split at hHeld <;> omega
  alone := by
    intro holder hMem hExclusive
    have hHeld := hSound.balanced.held_le
    rw [hSound.flagged holder hMem hExclusive] at hHeld
    -- The capacity is one, so the list with this holder in it is no longer.
    have hOne : state.holders.length = 1 :=
      Nat.le_antisymm hHeld (List.length_pos_of_mem hMem)
    obtain ⟨only, hOnly⟩ := List.length_eq_one_iff.mp hOne
    rw [hOnly] at hMem ⊢
    rw [List.mem_singleton.mp hMem]

theorem Sound.current_of_mem {index : ℕ} {request : Request}
    {wait : Wait} (hMem : (request, wait) ∈ (state.semaphores index).waiters)
    (hWait : wait ≠ .cancelled) : index = state.current := by
  by_contra hOther
  exact hWait (hSound.quiet index hOther _ hMem)

theorem Sound.put {semaphore : Semaphore Request}
    {holders : List Holder} (hHere : ∀ holder ∈ holders, holder.semaphore = state.current)
    (hBalanced : semaphore.Balanced (capacity state.exclusive) holders.length)
    (hAsked : ∀ request ∈ semaphore.parties, request.exclusive = true → state.exclusive = true)
    (hFlagged : ∀ holder ∈ holders, holder.exclusive = true → state.exclusive = true) :
    Sound { state.put state.current semaphore with holders := holders } where
  here := hHere
  balanced := by
    simp only [SlotState.put, update_self]
    exact hBalanced
  quiet := by
    intro index hOther waiter hMem
    have hSame : update state.semaphores state.current semaphore index =
        state.semaphores index := update_of_ne hOther _ _
    simp only [SlotState.put, hSame] at hMem
    exact hSound.quiet index hOther waiter hMem
  asked := by
    simp only [SlotState.put, update_self]
    exact hAsked
  flagged := hFlagged

theorem Sound.semaphoreFor {exclusive : Bool} (hMode : exclusive = state.exclusive ∨ state.Idle) :
    (state.semaphoreFor exclusive).Sound ∧ (state.semaphoreFor exclusive).exclusive = exclusive ∧
      (state.semaphoreFor exclusive).ptz = state.ptz := by
  unfold SlotState.semaphoreFor
  split
  next hChange =>
    obtain ⟨hHolders, hWaiters⟩ := hMode.resolve_left hChange
    refine ⟨⟨?_, ?_, ?_, ?_, ?_⟩, rfl, rfl⟩
    · simp [hHolders]
    · simp only [update_self, hHolders, List.length_nil]
      exact Semaphore.balanced_new _
    · intro index hOther waiter hMem
      simp only [update_of_ne hOther] at hMem
      -- An older semaphore is quiet since the camera is idle, a later one was never used.
      by_cases hOld : index ≤ state.current
      · exact hWaiters index hOld waiter hMem
      · exact hSound.quiet index (fun hSame => hOld (Nat.le_of_eq hSame)) waiter hMem
    · simp [Semaphore.new, Semaphore.parties]
    · simp [hHolders]
  next hSame => exact ⟨hSound, (not_not.mp hSame).symm, rfl⟩

theorem Sound.captureSlot {request : Request}
    (hMode : state.mode request = state.exclusive ∨ state.Idle) {after : SlotState}
    (hStep : step state (.captureSlot request) = some after) : after.Sound := by
  obtain ⟨hFor, hExclusive, hPtz⟩ := hSound.semaphoreFor hMode
  simp only [step, Option.some.injEq] at hStep
  have hModeAfter : (state.semaphoreFor (state.mode request)).mode request =
      (state.semaphoreFor (state.mode request)).exclusive := by
    rw [hExclusive]
    unfold mode at hPtz ⊢
    rw [hPtz]
  generalize state.semaphoreFor (state.mode request) = middle at *
  have hBalanced := hFor.balanced.acquire request
  have hAsked : ∀ other ∈ ((middle.semaphores middle.current).acquire request).1.parties,
      other.exclusive = true → middle.exclusive = true := by
    intro other hMem hOther
    cases Semaphore.mem_parties_acquire hMem with
    | inl hMem => exact hFor.asked other hMem hOther
    | inr hSame =>
      rw [← hModeAfter, mode, ← hSame, hOther]
      rfl
  subst hStep
  split
  next hGot =>
    rw [if_pos hGot] at hBalanced
    refine hFor.put ?_ hBalanced hAsked ?_
    · exact List.forall_mem_cons.mpr ⟨rfl, hFor.here⟩
    · refine List.forall_mem_cons.mpr ⟨fun hFlag => ?_, hFor.flagged⟩
      rw [← hModeAfter]
      exact hFlag
  next hGot =>
    rw [if_neg hGot] at hBalanced
    exact hFor.put hFor.here hBalanced hAsked hFor.flagged

theorem Sound.step {label : Label} {after : SlotState}
    (hStep : Guarded SlotStep KeepsMode state label after) : after.Sound := by
  obtain ⟨hStep, hKeeps⟩ := hStep
  cases label with
  | setPtzCameras ptz =>
    cases hStep
    exact { hSound with }
  | captureSlot request => exact hSound.captureSlot hKeeps hStep
  | acquired index request =>
    obtain ⟨hMem, rfl⟩ := of_guard hStep
    -- Whoever is woken waits on the current semaphore.
    obtain rfl := hSound.current_of_mem hMem (by decide)
    have hParty : request ∈ (state.semaphores state.current).parties :=
      List.mem_map_of_mem hMem
    refine hSound.put ?_ (hSound.balanced.resume hMem) ?_ ?_
    · exact List.forall_mem_cons.mpr ⟨rfl, hSound.here⟩
    · intro other hOther
      exact hSound.asked other (Semaphore.mem_parties_resume hOther)
    · refine List.forall_mem_cons.mpr ⟨fun hFlag => ?_, hSound.flagged⟩
      cases Bool.or_eq_true_iff.mp hFlag with
      | inl hAsked => exact hSound.asked request hParty hAsked
      | inr hPtz => exact hKeeps hPtz
  | timedOut =>
    obtain ⟨hMem, rfl⟩ := of_guard hStep
    obtain rfl := hSound.current_of_mem hMem (by decide)
    refine hSound.put hSound.here hSound.balanced.cancel ?_ hSound.flagged
    rw [Semaphore.parties_cancel]
    exact hSound.asked
  | interrupted =>
    obtain ⟨hMem, rfl⟩ := of_guard hStep
    obtain rfl := hSound.current_of_mem hMem (by decide)
    refine hSound.put hSound.here (hSound.balanced.interrupt hMem) ?_ hSound.flagged
    intro other hOther
    exact hSound.asked other (Semaphore.mem_parties_interrupt hOther)
  | gaveUp index request =>
    obtain ⟨hMem, rfl⟩ := of_guard hStep
    by_cases hCurrent : index = state.current
    · obtain rfl := hCurrent
      refine hSound.put hSound.here (hSound.balanced.leave hMem) ?_ hSound.flagged
      intro other hOther
      exact hSound.asked other (Semaphore.mem_parties_leave hOther)
    · -- A capture that timed out on an older semaphore.
      refine ⟨hSound.here, ?_, ?_, ?_, hSound.flagged⟩
      · simp only [SlotState.put, update_of_ne (Ne.symm hCurrent)]
        exact hSound.balanced
      · intro other hOther waiter hWaiter
        by_cases hSame : other = index
        · obtain rfl := hSame
          simp only [SlotState.put, update_self] at hWaiter
          exact hSound.quiet other hOther waiter (List.mem_of_mem_erase hWaiter)
        · simp only [SlotState.put, update_of_ne hSame] at hWaiter
          exact hSound.quiet other hOther waiter hWaiter
      · simp only [SlotState.put, update_of_ne (Ne.symm hCurrent)]
        exact hSound.asked
  | released holder =>
    obtain ⟨hMem, rfl⟩ := of_guard hStep
    -- The slot goes back to the semaphore it was taken from, which is the current one.
    have hHere := hSound.here holder hMem
    rw [hHere]
    have hLength : state.holders.length = (state.holders.erase holder).length + 1 := by
      rw [List.length_erase_of_mem hMem]
      have hPos := List.length_pos_of_mem hMem
      omega
    have hBalanced := hSound.balanced
    rw [hLength] at hBalanced
    refine hSound.put ?_ hBalanced.release ?_ ?_
    · intro other hOther
      exact hSound.here other (List.mem_of_mem_erase hOther)
    · rw [Semaphore.parties_release]
      exact hSound.asked
    · intro other hOther
      exact hSound.flagged other (List.mem_of_mem_erase hOther)

end

end Steps

end SlotState

/-! ## The result -/

/-- As long as the mode changes between captures only, at most two captures hold a slot, and one
that got it in exclusive mode holds it alone. -/
theorem slots_kept {ptz : Bool} {labels : List Label} {state : SlotState}
    (hRun : Run (Guarded SlotStep KeepsMode) (SlotState.initial ptz) labels state) :
    state.Kept :=
  SlotState.Sound.kept (hRun.invariant SlotState.Sound (fun _ _ _ hSound hStep => hSound.step hStep)
    (SlotState.Sound.initial ptz))

def betweenCaptures : List Label :=
  [.captureSlot ⟨1, false⟩, .captureSlot ⟨2, false⟩, .captureSlot ⟨3, false⟩,
    .released ⟨1, 0, false⟩, .acquired 0 ⟨3, false⟩, .released ⟨2, 0, false⟩,
    .released ⟨3, 0, false⟩, .setPtzCameras true, .captureSlot ⟨4, false⟩]

theorem slots_kept_between :
    ∃ state, Run (Guarded SlotStep KeepsMode) (SlotState.initial false) betweenCaptures state ∧
      state.holders = [⟨4, 1, true⟩] ∧ state.Kept := by
  refine Run.exists_of_checked (P := fun state => state.holders = [⟨4, 1, true⟩])
    (by decide +kernel) ?_
  exact fun state hRun hHolders => ⟨hHolders, slots_kept hRun⟩

/-- Two captures share the camera when a project on it gets a PTZ position; the next capture
takes the slot of the new semaphore while both are still running. -/
theorem slots_overlap :
    ∃ labels state, Run SlotStep (SlotState.initial false) labels state ∧
      state.holders = [⟨3, 1, true⟩, ⟨2, 0, false⟩, ⟨1, 0, false⟩] ∧ ¬state.Kept := by
  have hEnd : ∃ state ∈ exec step (SlotState.initial false) [.captureSlot ⟨1, false⟩,
      .captureSlot ⟨2, false⟩, .setPtzCameras true, .captureSlot ⟨3, true⟩],
      state.holders = [⟨3, 1, true⟩, ⟨2, 0, false⟩, ⟨1, 0, false⟩] := by decide +kernel
  obtain ⟨state, hExec, hHolders⟩ := hEnd
  refine ⟨_, state, Run.of_steps hExec, hHolders, ?_⟩
  intro hKept
  have hTwo := hKept.two
  rw [hHolders] at hTwo
  exact absurd hTwo (by decide)

end TimelapseManager.Capture.CaptureSlots
