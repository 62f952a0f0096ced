import Mathlib.Tactic.Common

/-!
# The counting semaphore of an event loop

`Semaphore` is an `asyncio.Semaphore`: a counter and the queue of those who wait.  A slot is
handed to a waiter before that waiter runs again, so a waiter is *pending*, *granted* or
*cancelled*, and leaves the queue only when it runs.

* `acquire`, `release`, `resume`, `interrupt`, `cancel` and `leave` are what one uninterrupted
  stretch of the loop does to it.
* `Balanced` says that free, granted and held slots together are the capacity; every operation
  keeps it.
-/

namespace TimelapseManager.Semaphores

inductive Wait
  | pending
  | granted
  | cancelled
  deriving DecidableEq

structure Semaphore (α : Type*) where
  value : ℕ
  waiters : List (α × Wait)

namespace Semaphore

variable {α : Type*}

def new (value : ℕ) : Semaphore α :=
  ⟨value, []⟩

variable (semaphore : Semaphore α)

/-- No slot can be had at once: none is free, or somebody waits in front. -/
def locked : Bool :=
  semaphore.value = 0 || semaphore.waiters.any fun waiter => waiter.2 ≠ .cancelled

/-- The queue with its first pending waiter granted, if there is one. -/
def grantFirst : List (α × Wait) → Option (List (α × Wait))
  | [] => none
  | (party, .pending) :: waiters => some ((party, .granted) :: waiters)
  | waiter :: waiters => (grantFirst waiters).map (waiter :: ·)

def wakeUpNext : Semaphore α :=
  match grantFirst semaphore.waiters with
  | none => semaphore
  | some waiters => ⟨semaphore.value - 1, waiters⟩

def acquire (party : α) : Semaphore α × Bool :=
  if semaphore.locked then
    ({ semaphore with waiters := semaphore.waiters ++ [(party, .pending)] }, false)
  else ({ semaphore with value := semaphore.value - 1 }, true)

def release : Semaphore α :=
  wakeUpNext { semaphore with value := semaphore.value + 1 }

def resume [DecidableEq α] (semaphore : Semaphore α) (party : α) : Semaphore α :=
  let semaphore := { semaphore with waiters := semaphore.waiters.erase (party, .granted) }
  if 0 < semaphore.value then semaphore.wakeUpNext else semaphore

/-- A granted waiter is cancelled before it runs, and gives its slot back. -/
def interrupt [DecidableEq α] (semaphore : Semaphore α) (party : α) : Semaphore α :=
  release { semaphore with waiters := semaphore.waiters.erase (party, .granted) }

/-- A pending waiter's future is cancelled; it stays queued until the waiter runs. -/
def cancel [DecidableEq α] (semaphore : Semaphore α) (party : α) : Semaphore α :=
  { semaphore with
    waiters := semaphore.waiters.map fun waiter =>
      if waiter = (party, .pending) then (party, .cancelled) else waiter }

def leave [DecidableEq α] (semaphore : Semaphore α) (party : α) : Semaphore α :=
  { semaphore with waiters := semaphore.waiters.erase (party, .cancelled) }

/-! ## Every slot is free, granted or held -/

/-- How many waiters have a slot they do not know of yet. -/
def granted : ℕ :=
  semaphore.waiters.countP fun waiter => waiter.2 = .granted

def Balanced (capacity held : ℕ) : Prop :=
  semaphore.value + semaphore.granted + held = capacity

theorem balanced_new (capacity : ℕ) : (new capacity : Semaphore α).Balanced capacity 0 := rfl

variable {waiters : List (α × Wait)} {other : α}

theorem grantFirst_eq {after : List (α × Wait)} (hGrant : grantFirst waiters = some after) :
    ∃ front party back, waiters = front ++ (party, .pending) :: back ∧
      after = front ++ (party, .granted) :: back := by
  induction waiters generalizing after with
  | nil => cases hGrant
  | cons waiter waiters hRec =>
    obtain ⟨party, wait⟩ := waiter
    cases wait with
    | pending =>
      cases hGrant
      exact ⟨[], party, waiters, rfl, rfl⟩
    | granted | cancelled =>
      obtain ⟨rest, hRest, rfl⟩ := Option.map_eq_some_iff.mp hGrant
      obtain ⟨front, first, back, rfl, rfl⟩ := hRec hRest
      exact ⟨_ :: front, first, back, rfl, rfl⟩

variable {semaphore : Semaphore α} {capacity held : ℕ} {party : α}

theorem Balanced.wakeUpNext (hBalanced : semaphore.Balanced capacity held)
    (hFree : 0 < semaphore.value) : semaphore.wakeUpNext.Balanced capacity held := by
  unfold Semaphore.wakeUpNext
  split
  · exact hBalanced
  next waiters hGrant =>
    obtain ⟨front, party, back, hWaiters, rfl⟩ := grantFirst_eq hGrant
    unfold Balanced granted at hBalanced ⊢
    simp [hWaiters] at hBalanced ⊢
    omega

theorem Balanced.acquire (hBalanced : semaphore.Balanced capacity held) (party : α) :
    (semaphore.acquire party).1.Balanced capacity
      (if (semaphore.acquire party).2 then held + 1 else held) := by
  unfold Semaphore.acquire
  split
  · unfold Balanced granted at hBalanced ⊢
    simpa using hBalanced
  next hFree =>
    have hValue : semaphore.value ≠ 0 := by
      intro hZero
      exact hFree (by simp [locked, hZero])
    unfold Balanced granted at hBalanced ⊢
    simp only [if_true]
    omega

theorem Balanced.release (hBalanced : semaphore.Balanced capacity (held + 1)) :
    semaphore.release.Balanced capacity held := by
  refine Balanced.wakeUpNext ?_ (Nat.succ_pos _)
  unfold Balanced granted at hBalanced ⊢
  simp only
  omega

theorem countP_erase_granted [DecidableEq α] (hMem : (party, Wait.granted) ∈ waiters) :
    (waiters.erase (party, .granted)).countP (fun waiter => waiter.2 = .granted) + 1 =
      waiters.countP (fun waiter => waiter.2 = .granted) := by
  have hPerm := (List.perm_cons_erase hMem).countP_eq fun waiter => waiter.2 = .granted
  rw [hPerm, List.countP_cons_of_pos (by simp)]

section

variable (hBalanced : semaphore.Balanced capacity held)
include hBalanced

theorem Balanced.resume [DecidableEq α] (hMem : (party, Wait.granted) ∈ semaphore.waiters) :
    (semaphore.resume party).Balanced capacity (held + 1) := by
  have hErase := countP_erase_granted hMem
  have hHeld : Balanced { semaphore with waiters := semaphore.waiters.erase (party, .granted) }
      capacity (held + 1) := by
    unfold Balanced granted at hBalanced ⊢
    simp only
    omega
  unfold Semaphore.resume
  simp only
  split
  next hFree => exact hHeld.wakeUpNext hFree
  · exact hHeld

theorem Balanced.interrupt [DecidableEq α] (hMem : (party, Wait.granted) ∈ semaphore.waiters) :
    (semaphore.interrupt party).Balanced capacity held := by
  have hErase := countP_erase_granted hMem
  refine Balanced.release ?_
  unfold Balanced granted at hBalanced ⊢
  simp only
  omega

theorem Balanced.cancel [DecidableEq α] : (semaphore.cancel party).Balanced capacity held := by
  have hSame : (semaphore.cancel party).granted = semaphore.granted := by
    unfold Semaphore.cancel granted
    rw [List.countP_map]
    refine List.countP_congr fun waiter _ => ?_
    by_cases hWaiter : waiter = (party, .pending)
    · simp [hWaiter]
    · simp [hWaiter]
  unfold Balanced at hBalanced ⊢
  rw [hSame]
  exact hBalanced

theorem Balanced.leave [DecidableEq α] (hMem : (party, Wait.cancelled) ∈ semaphore.waiters) :
    (semaphore.leave party).Balanced capacity held := by
  have hPerm := (List.perm_cons_erase hMem).countP_eq fun waiter => waiter.2 = .granted
  rw [List.countP_cons_of_neg (by simp)] at hPerm
  unfold Balanced granted at hBalanced ⊢
  simp only [Semaphore.leave]
  omega

theorem Balanced.held_le : held ≤ capacity := by
  unfold Balanced at hBalanced
  omega

end

/-! ## Who waits -/

def parties (semaphore : Semaphore α) : List α :=
  semaphore.waiters.map Prod.fst

@[simp]
theorem parties_wakeUpNext : semaphore.wakeUpNext.parties = semaphore.parties := by
  unfold wakeUpNext
  split
  · rfl
  next hGrant =>
    obtain ⟨front, party, back, hWaiters, rfl⟩ := grantFirst_eq hGrant
    simp [parties, hWaiters]

@[simp]
theorem parties_release : semaphore.release.parties = semaphore.parties :=
  parties_wakeUpNext

theorem parties_erase_subset [DecidableEq α] (waiter : α × Wait) (value : ℕ)
    (hMem : other ∈ parties ⟨value, semaphore.waiters.erase waiter⟩) : other ∈ semaphore.parties :=
  List.map_subset Prod.fst List.erase_subset hMem

theorem mem_parties_acquire (hMem : other ∈ (semaphore.acquire party).1.parties) :
    other ∈ semaphore.parties ∨ other = party := by
  unfold acquire at hMem
  split at hMem
  · simpa [parties] using hMem
  · exact Or.inl hMem

theorem mem_parties_resume [DecidableEq α] (hMem : other ∈ (semaphore.resume party).parties) :
    other ∈ semaphore.parties := by
  unfold resume at hMem
  simp only at hMem
  split at hMem
  · rw [parties_wakeUpNext] at hMem
    exact parties_erase_subset _ _ hMem
  · exact parties_erase_subset _ _ hMem

theorem mem_parties_interrupt [DecidableEq α] (hMem : other ∈ (semaphore.interrupt party).parties) :
    other ∈ semaphore.parties := by
  unfold interrupt at hMem
  rw [parties_release] at hMem
  exact parties_erase_subset _ _ hMem

@[simp]
theorem parties_cancel [DecidableEq α] : (semaphore.cancel party).parties = semaphore.parties := by
  unfold cancel parties
  rw [List.map_map]
  refine List.map_congr_left fun waiter _ => ?_
  by_cases hWaiter : waiter = (party, .pending)
  · simp [hWaiter]
  · simp [hWaiter]

theorem mem_parties_leave [DecidableEq α] (hMem : other ∈ (semaphore.leave party).parties) :
    other ∈ semaphore.parties :=
  parties_erase_subset _ _ hMem

end Semaphore
end TimelapseManager.Semaphores
