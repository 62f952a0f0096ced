import TimelapseManager.Lib.Dict
import Mathlib.Algebra.Order.Field.Rat

/-!
# The disk-space gate

`DiskSpaceMonitor` pauses capture when free space falls below a low watermark and resumes it only
above a higher one.  The pause is a latch in a table whose key is the nearest existing directory of
the path that is asked about, as the file system is at the time of the call: a directory that is
made between two calls gives the path a key of its own, which has no latch.
-/

namespace TimelapseManager.Storage.DiskMonitor

open KeyedRows

/-- The names of a path from the last one up; the path without names is the root. -/
abbrev Path := List String

/-- `_nearest_existing`. -/
def nearestExisting (existing : Path → Bool) : Path → Path
  | [] => []
  | name :: parent =>
    if existing (name :: parent) then name :: parent else nearestExisting existing parent

/-- The arguments of `DiskSpaceMonitor`, as its constructor accepts them. -/
structure Watermarks where
  lowBytes : ℤ
  lowPercent : ℚ
  resumeBytes : ℤ
  resumePercent : ℚ
  checkInterval : ℚ
  bytes_le : lowBytes ≤ resumeBytes
  percent_le : lowPercent ≤ resumePercent

/-- `_VolumeState`; instants are in microseconds. -/
structure VolumeState where
  lastCheckedAt : ℤ
  freeBytes : ℤ
  totalBytes : ℤ
  paused : Bool
  deriving DecidableEq

/-- The dictionary `_volumes`. -/
abbrev Volumes := Dict Path VolumeState

/-- One call of `is_capture_allowed`: its arguments, the paths that exist, and what a probe reads
then.  A probe without a reading raises. -/
structure Call where
  path : Path
  now : ℤ
  existing : Path → Bool
  free : Option ℤ
  total : Option ℤ

/-- `_volume_key`. -/
def Call.key (call : Call) : Path := nearestExisting call.existing call.path

def freePercent (free total : ℤ) : ℚ := if 0 < total then free / total * 100 else 0

namespace Watermarks

variable (marks : Watermarks)

/-- The reading is above both resume floors. -/
def recovered (free total : ℤ) : Bool :=
  free > marks.resumeBytes && freePercent free total > marks.resumePercent

/-- `_decide`. -/
def decidePaused (free total : ℤ) (priorPaused : Bool) : Bool :=
  if priorPaused then !marks.recovered free total
  else free < marks.lowBytes || freePercent free total < marks.lowPercent

/-- `_is_stale`. -/
def isStale (state : VolumeState) (now : ℤ) : Bool :=
  ((now - state.lastCheckedAt : ℤ) : ℚ) / 1000000 ≥ marks.checkInterval

/-- The call answers from the table. -/
def cached (volumes : Volumes) (call : Call) : Option VolumeState :=
  (Dict.get? volumes call.key).filter fun state => !marks.isStale state call.now

/-- The reading that the call makes, if it makes one and no probe raises. -/
def probe (volumes : Volumes) (call : Call) : Option (ℤ × ℤ) :=
  match marks.cached volumes call with
  | some _ => none
  | none => call.free.bind fun free => call.total.map fun total => (free, total)

/-- `pause_state` of a key. -/
def pauseState (volumes : Volumes) (key : Path) : Bool :=
  match Dict.get? volumes key with
  | some state => state.paused
  | none => false

/-- `is_capture_allowed`: the answer, unless a probe raises, and the table after the call. -/
def isCaptureAllowed (volumes : Volumes) (call : Call) : Option Bool × Volumes :=
  match marks.cached volumes call with
  | some state => (some (!state.paused), volumes)
  | none =>
    match marks.probe volumes call with
    | none => (none, volumes)
    | some (free, total) =>
      let paused := marks.decidePaused free total (pauseState volumes call.key)
      (some (!paused), Dict.set volumes call.key ⟨call.now, free, total, paused⟩)

/-- The table after a sequence of calls. -/
def after (volumes : Volumes) (calls : List Call) : Volumes :=
  calls.foldl (fun table call => (marks.isCaptureAllowed table call).2) volumes

end Watermarks

variable {marks : Watermarks} {volumes : Volumes} {call : Call} {key : Path}

/-- The latch of the key is set. -/
def Latched (volumes : Volumes) (key : Path) : Prop := Watermarks.pauseState volumes key = true

/-- The call probes under the key and reads more than both resume floors. -/
structure Recovers (marks : Watermarks) (volumes : Volumes) (key : Path) (call : Call) :
    Prop where
  sameKey : call.key = key
  reading : ∃ free total, marks.probe volumes call = some (free, total) ∧
    free > marks.resumeBytes ∧ freePercent free total > marks.resumePercent

/-! ## One call -/

theorem pauseState_set (state : VolumeState) :
    Watermarks.pauseState (Dict.set volumes key state) key = state.paused := by
  unfold Watermarks.pauseState
  rw [Dict.get?_set_self]

theorem answer_eq_latch {answer : Bool}
    (hAnswer : (marks.isCaptureAllowed volumes call).1 = some answer) :
    Watermarks.pauseState (marks.isCaptureAllowed volumes call).2 call.key = !answer := by
  unfold Watermarks.isCaptureAllowed at hAnswer ⊢
  cases hCached : marks.cached volumes call with rw [hCached] at hAnswer
  | some state =>
    cases hAnswer
    obtain ⟨hGet, -⟩ := Option.filter_eq_some_iff.mp hCached
    unfold Watermarks.pauseState
    rw [hGet]
    rw [Bool.not_not]
  | none =>
    dsimp only at hAnswer ⊢
    cases hProbe : marks.probe volumes call with rw [hProbe] at hAnswer
    | none => cases hAnswer
    | some reading =>
      cases hAnswer
      rw [pauseState_set, Bool.not_not]

theorem latched_step (marks : Watermarks) (hLatched : Latched volumes key) (call : Call) :
    Latched (marks.isCaptureAllowed volumes call).2 key ∨ Recovers marks volumes key call := by
  unfold Watermarks.isCaptureAllowed
  cases hCached : marks.cached volumes call with
  | some state => exact Or.inl hLatched
  | none =>
    dsimp only
    cases hProbe : marks.probe volumes call with
    | none => exact Or.inl hLatched
    | some reading =>
      obtain ⟨free, total⟩ := reading
      by_cases hKey : call.key = key
      · subst hKey
        have hLatch : Watermarks.pauseState volumes call.key = true := hLatched
        cases hRecovered : marks.recovered free total with
        | true =>
          obtain ⟨hBytes, hPercent⟩ := (Bool.and_eq_true _ _).mp hRecovered
          exact Or.inr ⟨rfl, free, total, hProbe, of_decide_eq_true hBytes,
            of_decide_eq_true hPercent⟩
        | false =>
          left
          unfold Latched
          rw [pauseState_set, hLatch]
          simp only [Watermarks.decidePaused, hRecovered, if_true, Bool.not_false]
      · left
        unfold Latched Watermarks.pauseState at hLatched ⊢
        rwa [Dict.get?_set_of_ne fun hEq => hKey hEq.symm]

/-! ## Sequences of calls -/

theorem latched_run (marks : Watermarks) (hLatched : Latched volumes key) (calls : List Call) :
    Latched (marks.after volumes calls) key ∨
      ∃ before call rest, calls = before ++ call :: rest ∧
        Recovers marks (marks.after volumes before) key call := by
  induction calls generalizing volumes with
  | nil => exact Or.inl hLatched
  | cons call calls ih =>
    rcases latched_step marks hLatched call with hKept | hRecovers
    · rcases ih hKept with hEnd | ⟨before, other, rest, rfl, hRecovers⟩
      · exact Or.inl hEnd
      · exact Or.inr ⟨call :: before, other, rest, rfl, hRecovers⟩
    · exact Or.inr ⟨[], call, calls, rfl, hRecovers⟩

/-- Whatever is asked about which paths in between, a call that finds the directory of a refused
one is allowed only if, since then, a probe for this directory has read more free space than both
resume floors. -/
theorem refused_until_recovered {refused later : Call} {between : List Call}
    (hRefused : (marks.isCaptureAllowed volumes refused).1 = some false)
    (hKey : later.key = refused.key) (hAllowed : (marks.isCaptureAllowed
      (marks.after volumes (refused :: between)) later).1 = some true) :
    ∃ before call rest, between ++ [later] = before ++ call :: rest ∧
      Recovers marks (marks.after volumes (refused :: before)) refused.key call := by
  have hLatched : Latched (marks.isCaptureAllowed volumes refused).2 refused.key :=
    answer_eq_latch hRefused
  rcases latched_run marks hLatched (between ++ [later]) with hEnd | hRecovers
  · -- The latch that the last call leaves is the opposite of its answer.
    have hOpen := answer_eq_latch hAllowed
    rw [hKey] at hOpen
    unfold Latched Watermarks.after at hEnd
    rw [List.foldl_append] at hEnd
    exact absurd (hEnd.symm.trans hOpen) (by decide)
  · exact hRecovers

/-- Pause below 100 bytes or 10 percent, resume above 200 bytes and 20 percent. -/
def sampleMarks : Watermarks where
  lowBytes := 100
  lowPercent := 10
  resumeBytes := 200
  resumePercent := 20
  checkInterval := 30
  bytes_le := by decide
  percent_le := by decide +kernel

/-- A call about a project's frame directory on a volume of 1000 bytes; the directory itself is
there or not. -/
def sampleCall (seconds : ℤ) (made : Bool) (free : ℤ) : Call where
  path := ["frames", "data"]
  now := seconds * 1000000
  existing := fun path => path = ["data"] || path = [] || (made && path = ["frames", "data"])
  free := some free
  total := some 1000

/-- A refusal, a cached answer, and a probe that reads 25 percent. -/
theorem refused_until_recovered_sample :
    ∃ before call rest,
      [sampleCall 10 false 250] ++ [sampleCall 60 false 250] = before ++ call :: rest ∧
        Recovers sampleMarks
          (sampleMarks.after Dict.empty (sampleCall 0 false 50 :: before)) ["data"] call := by
  have hRefused : (sampleMarks.isCaptureAllowed Dict.empty (sampleCall 0 false 50)).1 =
      some false := by decide +kernel
  exact refused_until_recovered hRefused (by decide +kernel) (by decide +kernel)

/-- The frame directory is made after the refusal: the path has a key of its own then, and capture
goes on with 15 percent free although no probe has read more than a resume floor. -/
theorem resumed_by_new_directory :
    let refused := sampleCall 0 false 50
    let later := sampleCall 60 true 150
    (sampleMarks.isCaptureAllowed Dict.empty refused).1 = some false ∧
      (sampleMarks.isCaptureAllowed (sampleMarks.after Dict.empty [refused]) later).1 = some true ∧
      ∀ call ∈ [refused, later], ∀ free total, call.free = some free → call.total = some total →
        ¬free > sampleMarks.resumeBytes ∧ ¬freePercent free total > sampleMarks.resumePercent := by
  refine ⟨by decide +kernel, by decide +kernel, ?_⟩
  intro call hMem free total hFree hTotal
  rcases List.mem_pair.mp hMem with rfl | rfl
  all_goals
    cases hFree
    cases hTotal
    exact ⟨by decide +kernel, by decide +kernel⟩

end TimelapseManager.Storage.DiskMonitor
