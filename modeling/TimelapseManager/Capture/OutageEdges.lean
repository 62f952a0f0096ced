import TimelapseManager.Capture.CameraHealth

/-!
# The transitions of a camera whose events are all written

With no failed write there is no `rearm`, so the latch of a camera is decided by the reports
alone.  A history lists them latest first.
-/

namespace TimelapseManager.Capture.CameraHealth

open KeyedRows

/-- The record after a history, and the transitions that were emitted on the way. -/
def replay (threshold cameraId : ℕ) : List HealthReport → CameraHealth × List HealthTransition
  | [] => (fresh, [])
  | report :: earlier =>
    let (entry, emitted) := replay threshold cameraId earlier
    let (entry, transition) := entry.report (max 1 threshold) cameraId report
    (entry, emitted ++ transition.toList)

/-- Whether a report is a failure that counts, of which project, and whether the login was
rejected. -/
def counted : HealthReport → Option (Bool × Option ℕ)
  | .failure .camera _ project => some (false, project)
  | .failure .auth _ project => some (true, project)
  | _ => none

/-- A project's failures since the last success, counted on by one report. -/
def countOn (project : Option ℕ) (report : HealthReport) (streak : ℕ) : ℕ :=
  match report with
  | .success => 0
  | report => streak + if (counted report).any (·.2 = project) then 1 else 0

/-- The failures of the project since the camera's last success. -/
def failuresSince (project : Option ℕ) (history : List HealthReport) : ℕ :=
  history.foldr (countOn project) 0

def streak (entry : CameraHealth) (project : Option ℕ) : ℕ :=
  (entry.projectStreaks.get? project).getD 0

section CountOn

variable {report : HealthReport} {project failed : Option ℕ} {streak : ℕ} {auth : Bool}

theorem countOn_of_ne (hNot : report ≠ .success) : countOn project report streak =
    streak + if (counted report).any (·.2 = project) then 1 else 0 := by
  cases report with
  | success => exact absurd rfl hNot
  | _ => rfl

theorem countOn_counted (hCounted : counted report = some (auth, failed)) :
    countOn project report streak = streak + if failed = project then 1 else 0 := by
  have hNot : report ≠ .success := by
    rintro rfl
    cases hCounted
  rw [countOn_of_ne hNot, hCounted]
  simp

theorem countOn_uncounted (hNot : report ≠ .success) (hCounted : counted report = none) :
    countOn project report streak = streak := by
  rw [countOn_of_ne hNot, hCounted]
  rfl

end CountOn

variable {threshold : ℕ} {entry : CameraHealth}

/-- A report says that the camera works, or counts against it, or neither. -/
theorem report_cases (threshold cameraId : ℕ) (report : HealthReport) :
    report = .success ∨
    (∃ error auth project, counted report = some (auth, project) ∧ ∀ entry : CameraHealth,
      entry.report threshold cameraId report =
        entry.recordFailure threshold cameraId error auth false project) ∨
    (report ≠ .success ∧ counted report = none ∧ ∀ entry : CameraHealth,
      let result := entry.report threshold cameraId report
      result.1.projectStreaks = entry.projectStreaks ∧
        result.1.offlineAlerted = entry.offlineAlerted ∧
        result.2.bind HealthTransition.signal = none) := by
  cases report with
  | success => exact Or.inl rfl
  | failure kind error project =>
    cases kind with
    | camera => exact Or.inr (Or.inl ⟨error, false, project, rfl, fun _ => rfl⟩)
    | auth => exact Or.inr (Or.inl ⟨error, true, project, rfl, fun _ => rfl⟩)
    | project => exact Or.inr (Or.inr ⟨by simp, rfl, fun _ => ⟨rfl, rfl, rfl⟩⟩)
    | localFailure =>
      refine Or.inr (Or.inr ⟨by simp, rfl, fun entry => ?_⟩)
      cases hLocal : entry.localStreak <;>
        simp [CameraHealth.report, recordFailure, hLocal, HealthTransition.signal]
  | forgetListener => exact Or.inr (Or.inr ⟨by simp, rfl, fun _ => ⟨rfl, rfl, rfl⟩⟩)
  | listenerFailure | listenerSuccess | resolveEvents =>
    -- Whatever the streaks of the listeners say, the alert they raise or clear is of another kind.
    refine Or.inr (Or.inr ⟨by simp, rfl, fun entry => ?_⟩)
    simp only [CameraHealth.report, recordListenerFailure, recordListenerSuccess,
      CameraHealth.resolveEvents]
    split <;> exact ⟨rfl, rfl, rfl⟩

theorem longestStreak_lt_iff (entry : CameraHealth) (hPositive : 0 < threshold) :
    entry.longestStreak < threshold ↔ ∀ project, entry.streak project < threshold := by
  unfold streak
  have hMax : ∀ values : List ℕ,
      values.foldr max 0 < threshold ↔ ∀ value ∈ values, value < threshold := by
    intro values
    induction values with
    | nil => simpa using hPositive
    | cons value values ih => simp [← ih]
  rw [longestStreak, hMax]
  constructor
  · intro hAll project
    cases hGet : entry.projectStreaks.get? project with
    | none => exact hPositive
    | some streak => exact hAll _ (List.mem_map_of_mem (Dict.get?_eq_some_iff.mp hGet))
  · intro hAll streak hMem
    obtain ⟨row, hRow, rfl⟩ := List.mem_map.mp hMem
    have hGet := hAll row.1
    rwa [Dict.get?_eq_some_iff.mpr hRow] at hGet

/-- The record after a failure that counts, before the latch is looked at. -/
def countFailure (entry : CameraHealth) (error : String) (failed : Option ℕ) : CameraHealth :=
  { entry with
    consecutiveFailures := entry.consecutiveFailures + 1
    projectStreaks := entry.projectStreaks.set failed (entry.streak failed + 1)
    lastError := some error }

theorem streak_countFailure (error : String) (failed project : Option ℕ) :
    (entry.countFailure error failed).streak project =
      entry.streak project + if failed = project then 1 else 0 := by
  rw [streak, countFailure, Dict.get?_set]
  by_cases hSame : failed = project
  · rw [if_pos hSame, if_pos hSame.symm, hSame]
    rfl
  · rw [if_neg hSame, if_neg (Ne.symm hSame)]
    rfl

/-- A failure that counts moves its own project's streak on by one.  The latch closes exactly if it
was open and the login was rejected or that streak has come to the threshold. -/
theorem recordFailure_edges (cameraId : ℕ) (hPositive : 0 < threshold)
    (hBelow : entry.offlineAlerted = false → ∀ project, entry.streak project < threshold)
    (error : String) (auth : Bool) (failed : Option ℕ) :
    let result := entry.recordFailure threshold cameraId error auth false failed
    let next := entry.countFailure error failed
    (∀ project, result.1.streak project = next.streak project) ∧
      (result.1.offlineAlerted = false → ∀ project, next.streak project < threshold) ∧
      (result.2.bind HealthTransition.signal = some true ↔
        entry.offlineAlerted = false ∧ (auth = true ∨ next.streak failed = threshold)) ∧
      result.2.bind HealthTransition.signal ≠ some false := by
  intro result next
  have hResult : result = if entry.offlineAlerted then (next, none)
      else if !auth ∧ next.longestStreak < threshold then (next, none)
      else ({ next with offlineAlerted := true },
        some ⟨.offline, cameraId, next.longestStreak, some error, auth⟩) := rfl
  have hLong := longestStreak_lt_iff next hPositive
  rw [hResult]
  by_cases hOffline : entry.offlineAlerted = true
  · have hClosed : next.offlineAlerted = true := hOffline
    rw [if_pos hOffline, hOffline, hClosed]
    exact ⟨fun _ => rfl, nofun, ⟨nofun, nofun⟩, nofun⟩
  · rw [if_neg hOffline]
    have hOpen : entry.offlineAlerted = false := Bool.eq_false_iff.mpr hOffline
    by_cases hQuiet : (!auth) = true ∧ next.longestStreak < threshold
    · rw [if_pos hQuiet]
      have hShort := hLong.mp hQuiet.2
      refine ⟨fun _ => rfl, fun _ => hShort, ⟨nofun, ?_⟩, nofun⟩
      rintro ⟨-, rfl | hReached⟩
      · exact absurd hQuiet.1 Bool.false_ne_true
      · exact absurd hReached (hShort failed).ne
    · rw [if_neg hQuiet]
      refine ⟨fun _ => rfl, nofun, ⟨fun _ => ⟨hOpen, ?_⟩, fun _ => rfl⟩, ?_⟩
      rotate_left
      · simp [HealthTransition.signal]
      cases auth with
      | true => exact Or.inl rfl
      | false =>
        -- Only the project that failed can have come to the threshold.
        right
        by_contra hNotReached
        refine hQuiet ⟨rfl, hLong.mpr fun project => ?_⟩
        have hBefore := hBelow hOpen project
        rw [streak_countFailure]
        by_cases hSame : failed = project
        · subst hSame
          rw [streak_countFailure, if_pos rfl] at hNotReached
          rw [if_pos rfl]
          omega
        · rw [if_neg hSame]
          exact hBefore

/-- What a report does while every streak is short or the latch is closed: a failure that counts
can only bring its own project to the threshold. -/
theorem report_edges (cameraId : ℕ) (hPositive : 0 < threshold)
    (hBelow : entry.offlineAlerted = false → ∀ project, entry.streak project < threshold)
    (report : HealthReport) :
    let result := entry.report threshold cameraId report
    (∀ project, result.1.streak project = countOn project report (entry.streak project)) ∧
      (result.1.offlineAlerted = false →
        ∀ project, countOn project report (entry.streak project) < threshold) ∧
      (result.2.bind HealthTransition.signal = some true ↔ entry.offlineAlerted = false ∧
        ∃ auth project, counted report = some (auth, project) ∧
          (auth = true ∨ countOn project report (entry.streak project) = threshold)) ∧
      (result.2.bind HealthTransition.signal = some false ↔
        entry.offlineAlerted = true ∧ report = .success) := by
  dsimp only
  rcases report_cases threshold cameraId report with
    rfl | ⟨error, auth, failed, hCounted, hReport⟩ | ⟨hNot, hCounted, hQuiet⟩
  · cases hLatch : entry.offlineAlerted <;>
      simp [CameraHealth.report, recordSuccess, hLatch, streak, countOn, counted,
        HealthTransition.signal, hPositive]
  · have hNot : report ≠ .success := by
      rintro rfl
      cases hCounted
    have hCount : ∀ project, countOn project report (entry.streak project) =
        (entry.countFailure error failed).streak project := by
      intro project
      rw [countOn_counted hCounted, streak_countFailure]
    obtain ⟨hStreaks, hShort, hOffline, hRecovered⟩ :=
      recordFailure_edges cameraId hPositive hBelow error auth failed
    rw [hReport]
    simp only [hCount, hCounted]
    refine ⟨hStreaks, hShort, ?_, ?_⟩
    · rw [hOffline]
      constructor
      · rintro ⟨hOpen, hEdge⟩
        exact ⟨hOpen, auth, failed, rfl, hEdge⟩
      · rintro ⟨hOpen, _, _, hSame, hEdge⟩
        cases hSame
        exact ⟨hOpen, hEdge⟩
    · exact ⟨fun hSignal => absurd hSignal hRecovered, fun hBoth => absurd hBoth.2 hNot⟩
  · obtain ⟨hStreaks, hLatch, hSilent⟩ := hQuiet entry
    have hSame : ∀ project, (entry.report threshold cameraId report).1.streak project =
        entry.streak project := by
      simp [streak, hStreaks]
    simp only [hSame, hLatch, hSilent, countOn_uncounted hNot hCounted, hCounted]
    simpa [hNot] using hBelow

/-- The streaks are what the history says, and while the latch is open they are all short. -/
theorem replay_tracks (threshold cameraId : ℕ) (history : List HealthReport) :
    let state := replay threshold cameraId history
    (∀ project, state.1.streak project = failuresSince project history) ∧
      (state.1.offlineAlerted = false → ∀ project, state.1.streak project < max 1 threshold) ∧
      Alternates state.1.offlineAlerted false (state.2.filterMap HealthTransition.signal) := by
  induction history with
  | nil =>
    have hPositive : 0 < max 1 threshold := by omega
    exact ⟨fun _ => rfl, fun _ _ => hPositive, rfl⟩
  | cons report earlier ih =>
    obtain ⟨hStreak, hBelow, hAlternates⟩ := ih
    obtain ⟨hCounts, hShort, -, -⟩ := report_edges cameraId (by omega) hBelow report
    simp only [replay, List.filterMap_append]
    refine ⟨?_, ?_, ?_⟩
    · intro project
      rw [hCounts, hStreak]
      rfl
    · intro hOpen project
      rw [hCounts]
      exact hShort hOpen project
    · rcases (flips_report report).2 with ⟨hLatch, hNone⟩ | ⟨hLatch, hOne⟩
      · rw [hLatch, hNone, List.append_nil]
        exact hAlternates
      · rw [hLatch, hOne]
        exact hAlternates.push

/-- The offline and recovered transitions alternate, an offline one first.  A camera that is not
offline goes offline at a rejected login and at the failure that brings its project to the
threshold, and recovers at the first success.  Of a local failure the record keeps only that there
was one, and the first of a streak emits a transition of its own. -/
theorem outage_edges (threshold cameraId : ℕ) (history : List HealthReport)
    (report : HealthReport) :
    let state := replay threshold cameraId history
    let result := state.1.report (max 1 threshold) cameraId report
    Alternates state.1.offlineAlerted false (state.2.filterMap HealthTransition.signal) ∧
      (result.2.bind HealthTransition.signal = some true ↔ state.1.offlineAlerted = false ∧
        ∃ auth project, counted report = some (auth, project) ∧
          (auth = true ∨ failuresSince project (report :: history) = max 1 threshold)) ∧
      (result.2.bind HealthTransition.signal = some false ↔
        state.1.offlineAlerted = true ∧ report = .success) ∧
      ∀ error project, report = .failure .localFailure error project →
        result = ({ state.1 with localStreak := true },
          if state.1.localStreak then none
          else some ⟨.localFailure, cameraId, state.1.consecutiveFailures, some error, false⟩) := by
  obtain ⟨hStreak, hBelow, hAlternates⟩ := replay_tracks threshold cameraId history
  obtain ⟨-, -, hOffline, hRecovered⟩ := report_edges cameraId (by omega) hBelow report
  refine ⟨hAlternates, ?_, hRecovered, ?_⟩
  · simp only [hStreak] at hOffline
    exact hOffline
  · rintro error project rfl
    simp only [CameraHealth.report, recordFailure, decide_true, if_true]
    generalize (replay threshold cameraId history).1 = entry
    by_cases hLocal : entry.localStreak = true
    · rw [if_pos hLocal, if_pos hLocal, ← hLocal]
    · rw [if_neg hLocal, if_neg hLocal]

/-- A local failure emits a transition of its own. -/
theorem local_failure_reported :
    (replay 3 7 [.failure .localFailure "database is locked" none]).2 =
      [⟨.localFailure, 7, 0, some "database is locked", false⟩] := by
  decide

end TimelapseManager.Capture.CameraHealth
