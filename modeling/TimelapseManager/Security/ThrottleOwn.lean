import TimelapseManager.Security.Throttle

/-!
# The throttle as one source sees it

`Own` is what the login throttle is for: the attempts of one source, without the ids, the pruning
and the rows of other sources.  Every run of the table in which reservations are released in time
simulates it, so whether a reservation is granted is a function of the source's own calls.  A late
release deletes the row of another reservation (`reservations_unbounded`).
-/

namespace TimelapseManager.Security.Throttle

open Runs

/-- The failures in the window that no later success of the username forgives. -/
def liveFailures (attempts : List Attempt) (cutoff : ℤ) : ℕ :=
  attempts.countP fun failure =>
    !failure.succeeded && cutoff ≤ failure.attemptedAt && !attempts.any fun attempt =>
        attempt.username = failure.username && attempt.succeeded &&
          failure.attemptedAt < attempt.attemptedAt

/-- The attempts of one source and the reservations granted to it: request, username and time. -/
structure Own where
  attempts : List Attempt
  granted : List (ℕ × Text × ℤ)
  deriving DecidableEq

/-- A call of the source. -/
inductive OwnLabel
  | reserve (request : ℕ) (username : Text) (now : ℤ)
  | release (request : ℕ) (username : Text) (succeeded : Bool) (now : ℤ)
  deriving DecidableEq

/-- One call of the source: a reservation adds a failure, a release withdraws it, and a success is
added. -/
def Own.step (throttle : BruteForceThrottle) (own : Own) : OwnLabel → Own
  | .reserve request username now =>
    if throttle.maxFailures ≤ liveFailures own.attempts (now - throttle.window) then own
    else
      { attempts := own.attempts ++ [⟨throttle.usernameKey username, now, false, some request⟩]
        granted := own.granted ++ [(request, throttle.usernameKey username, now)] }
  | .release request username succeeded now =>
    { own with
      attempts := (own.attempts.filter fun attempt => attempt.request ≠ some request) ++
        if succeeded then [⟨username, now, true, none⟩] else [] }

/-- The source's calls among all calls. -/
def ownLabel (ip : Text) : Label → Option OwnLabel
  | .reserve request source username _ now =>
    if source = ip then some (.reserve request username now) else none
  | .release request source username succeeded now =>
    if source = ip then some (.release request username succeeded now) else none

/-- The source's rows. -/
def ownAttempts (ip : Text) (rows : List LoginAttempt) : List Attempt :=
  (rows.filter fun row => row.ip = ip).map LoginAttempt.toAttempt

/-- The source's reservations. -/
def ownGrants (ip : Text) (granted : List Grant) : List (ℕ × Text × ℤ) :=
  (granted.filter fun grant => grant.reservation.ip = ip).map fun grant =>
    (grant.request, grant.reservation.username, grant.grantedAt)

/-- The attempts from a time on. -/
def since (attempts : List Attempt) (cutoff : ℤ) : List Attempt :=
  attempts.filter fun attempt => cutoff ≤ attempt.attemptedAt

/-! ## The table and the attempts of a source -/

variable {grant : Grant}

section Attempts

variable {ip : Text} {rows : List LoginAttempt} {attempts others : List Attempt} {cutoff : ℤ}

theorem recentIpFailures_eq :
    recentIpFailures rows ip cutoff = liveFailures (ownAttempts ip rows) cutoff := by
  unfold recentIpFailures liveFailures ownAttempts
  rw [List.countP_map, List.countP_filter]
  refine List.countP_congr ?_
  intro row _
  simp only [Function.comp_apply, List.any_map, List.any_filter, Bool.and_eq_true,
    Bool.not_eq_true', decide_eq_true_eq, Bool.and_assoc]
  tauto

theorem liveFailures_since : liveFailures (since attempts cutoff) cutoff =
    liveFailures attempts cutoff := by
  unfold liveFailures since
  rw [List.countP_filter]
  refine List.countP_congr ?_
  intro failure _
  simp only [List.any_filter, Bool.and_eq_true, Bool.not_eq_true', decide_eq_true_eq,
    List.any_eq_false]
  constructor
  · rintro ⟨⟨⟨hFailed, hRecent⟩, hNone⟩, -⟩
    refine ⟨⟨hFailed, hRecent⟩, ?_⟩
    intro attempt hMem hForgives
    exact hNone attempt hMem ⟨le_trans hRecent hForgives.2.le, hForgives⟩
  · rintro ⟨⟨hFailed, hRecent⟩, hNone⟩
    refine ⟨⟨⟨hFailed, hRecent⟩, ?_⟩, hRecent⟩
    intro attempt hMem hForgives
    exact hNone attempt hMem hForgives.2

theorem since_eq_of_le {earlier : ℤ} (hSame : since attempts earlier = since others earlier)
    (hLe : earlier ≤ cutoff) : since attempts cutoff = since others cutoff := by
  have hLater : ∀ list : List Attempt, since (since list earlier) cutoff = since list cutoff := by
    intro list
    unfold since
    rw [List.filter_filter]
    refine List.filter_congr ?_
    intro attempt _
    by_cases hRecent : cutoff ≤ attempt.attemptedAt
    · simp [hRecent, le_trans hLe hRecent]
    · simp [hRecent]
  rw [← hLater attempts, ← hLater others, hSame]

theorem since_since : since (since attempts cutoff) cutoff = since attempts cutoff := by
  unfold since
  simp

theorem since_append : since (attempts ++ others) cutoff =
    since attempts cutoff ++ since others cutoff :=
  List.filter_append _ _

theorem ownAttempts_append {others : List LoginAttempt} :
    ownAttempts ip (rows ++ others) = ownAttempts ip rows ++ ownAttempts ip others := by
  unfold ownAttempts
  rw [List.filter_append, List.map_append]

theorem ownAttempts_singleton {row : LoginAttempt} :
    ownAttempts ip [row] = if row.ip = ip then [row.toAttempt] else [] := by
  unfold ownAttempts
  by_cases hIp : row.ip = ip <;> simp [hIp]

theorem ownAttempts_filter (keep : Attempt → Bool) :
    ownAttempts ip (rows.filter fun row => keep row.toAttempt) =
      (ownAttempts ip rows).filter keep := by
  unfold ownAttempts
  rw [List.filter_map, List.filter_comm]
  rfl

theorem ownAttempts_prune : ownAttempts ip (prune rows cutoff) =
    since (ownAttempts ip rows) cutoff :=
  ownAttempts_filter fun attempt => cutoff ≤ attempt.attemptedAt

theorem ownGrants_append {granted : List Grant} :
    ownGrants ip (granted ++ [grant]) = ownGrants ip granted ++
      if grant.reservation.ip = ip then
        [(grant.request, grant.reservation.username, grant.grantedAt)]
      else [] := by
  unfold ownGrants
  by_cases hIp : grant.reservation.ip = ip <;> simp [hIp]

end Attempts

/-! ## The simulation -/

section Simulation

variable {throttle : BruteForceThrottle} {ip : Text} {state next : State} {own : Own}

/-- The table and the source's own state agree on the attempts of the window and on what was
granted. -/
structure Simulates (throttle : BruteForceThrottle) (ip : Text) (state : State) (own : Own) :
    Prop where
  recent : since (ownAttempts ip state.rows) (state.clock - throttle.window) =
    since own.attempts (state.clock - throttle.window)
  granted : ownGrants ip state.granted = own.granted

section

variable (hSim : Simulates throttle ip state own)
include hSim

theorem Simulates.pruned {now : ℤ} (hClock : state.clock ≤ now) :
    Simulates throttle ip (state.pruned throttle now) own := by
  refine ⟨?_, hSim.granted⟩
  rw [ownAttempts_prune, since_since]
  exact since_eq_of_le hSim.recent (by omega)

theorem Simulates.failures :
    recentIpFailures state.rows ip (state.clock - throttle.window) =
      liveFailures own.attempts (state.clock - throttle.window) := by
  rw [recentIpFailures_eq, ← liveFailures_since, hSim.recent, liveFailures_since]

theorem Simulates.appended (row : LoginAttempt) :
    since (ownAttempts ip (state.rows ++ [row])) (state.clock - throttle.window) =
      since (own.attempts ++ if row.ip = ip then [row.toAttempt] else [])
        (state.clock - throttle.window) := by
  rw [ownAttempts_append, ownAttempts_singleton, since_append, since_append, hSim.recent]

theorem Simulates.reserved (request delay : ℕ) {source : Text} (username : Text)
    (hFew : recentIpFailures state.rows source (state.clock - throttle.window) <
      throttle.maxFailures) :
    Simulates throttle ip (state.reserved throttle request source username delay)
      (if source = ip then own.step throttle (.reserve request username state.clock) else own) := by
  have hRows := hSim.appended (throttle.reservedRow state.rows request source username state.clock)
  have hSource : (throttle.reservedRow state.rows request source username state.clock).ip =
    source := rfl
  rw [hSource] at hRows
  by_cases hIp : source = ip
  · subst hIp
    have hGrant : own.step throttle (.reserve request username state.clock) =
        { attempts := own.attempts ++
            [⟨throttle.usernameKey username, state.clock, false, some request⟩]
          granted := own.granted ++ [(request, throttle.usernameKey username, state.clock)] } := by
      rw [hSim.failures] at hFew
      exact if_neg (not_le.mpr hFew)
    rw [if_pos rfl] at hRows ⊢
    rw [hGrant]
    refine ⟨hRows, ?_⟩
    rw [ownGrants_append, if_pos rfl, hSim.granted]
  · rw [if_neg hIp] at hRows ⊢
    rw [List.append_nil] at hRows
    refine ⟨hRows, ?_⟩
    rw [ownGrants_append, if_neg hIp, List.append_nil, hSim.granted]

end

theorem since_filter {attempts : List Attempt} {cutoff : ℤ} (keep : Attempt → Bool) :
    since (attempts.filter keep) cutoff = (since attempts cutoff).filter keep :=
  List.filter_comm _ _ _

theorem Simulates.deleted (hSim : Simulates throttle ip state own) (hLinked : Linked throttle state)
    {now : ℤ} (hGrant : grant ∈ state.granted) (hClock : state.clock ≤ now)
    (hOut : grant.request ∉ state.released) (hWindow : now ≤ grant.grantedAt + throttle.window) :
    Simulates throttle ip (state.deleted grant now)
      (if grant.reservation.ip = ip then
        own.step throttle (.release grant.request grant.reservation.username false now)
      else own) := by
  have hRows : ownAttempts ip (state.rows.filter fun row =>
        row.id ≠ grant.reservation.attemptId) =
      (ownAttempts ip state.rows).filter fun attempt => attempt.request ≠ some grant.request := by
    have hSame : ∀ row ∈ state.rows, decide (row.id ≠ grant.reservation.attemptId) =
        decide (row.request ≠ some grant.request) := by
      intro row hRow
      rw [decide_eq_decide]
      exact not_congr (hLinked.id_eq_iff hGrant hOut (by omega) hRow)
    rw [List.filter_congr hSame]
    exact ownAttempts_filter fun attempt => attempt.request ≠ some grant.request
  have hRecent : since (ownAttempts ip state.rows) (now - throttle.window) =
      since own.attempts (now - throttle.window) := since_eq_of_le hSim.recent (by omega)
  by_cases hIp : grant.reservation.ip = ip
  · rw [if_pos hIp]
    refine ⟨?_, hSim.granted⟩
    show since (ownAttempts ip _) (now - throttle.window) = since (_ ++ []) (now - throttle.window)
    rw [hRows, List.append_nil, since_filter, since_filter, hRecent]
  · rw [if_neg hIp]
    refine ⟨?_, hSim.granted⟩
    rw [hRows, ← hRecent]
    -- No row of the source has the request.
    refine congrArg (since · _) (List.filter_eq_self.mpr ?_)
    intro attempt hMem
    obtain ⟨row, hRow, rfl⟩ := List.mem_map.mp hMem
    obtain ⟨hRow, hSource⟩ := List.mem_filter.mp hRow
    refine decide_eq_true ?_
    intro hRequest
    obtain ⟨other, hOther, rfl⟩ := hLinked.tagged row hRow (by rw [hRequest]; nofun)
    obtain rfl := hLinked.grant_eq hOther hGrant (Option.some.inj hRequest)
    exact hIp (of_decide_eq_true hSource)

theorem Simulates.success (hSim : Simulates throttle ip state own) (source username : Text) :
    Simulates throttle ip (state.recorded source username)
      { own with
        attempts := own.attempts ++
          if source = ip then [⟨username, state.clock, true, none⟩] else [] } :=
  ⟨hSim.appended (BruteForceThrottle.successRow state.rows source username state.clock),
    hSim.granted⟩

/-- The source's state after a call, its own or not. -/
def Own.after (throttle : BruteForceThrottle) (ip : Text) (own : Own) (label : Label) : Own :=
  match ownLabel ip label with
  | some call => own.step throttle call
  | none => own

theorem after_of {source : Text} {call : OwnLabel} {label : Label}
    (hLabel : ownLabel ip label = if source = ip then some call else none) :
    own.after throttle ip label = if source = ip then own.step throttle call else own := by
  unfold Own.after
  rw [hLabel]
  by_cases hIp : source = ip <;> simp [hIp]

theorem simulates_of_step (hLinked : Linked throttle state) (hSim : Simulates throttle ip state own)
    {label : Label} (hStep : step throttle state label = some next)
    (hSettled : Settled throttle state label) :
    Simulates throttle ip next (own.after throttle ip label) := by
  cases moves_of_step hStep with
  | @refused request source username backoff now hClock hMany =>
    have hPruned := hSim.pruned hClock
    rw [after_of rfl]
    split
    next hIp =>
      subst hIp
      have hSame : own.step throttle (.reserve request username now) = own :=
        if_pos (hPruned.failures ▸ hMany)
      rw [hSame]
      exact hPruned
    · exact hPruned
  | @granted request source username backoff now delay hClock _ hFew =>
    rw [after_of rfl]
    exact (hSim.pruned hClock).reserved request delay username hFew
  | @released succeeded now grant hGrant hClock =>
    obtain ⟨hOut, hInTime⟩ := hSettled
    have hDeleted := hSim.deleted hLinked hGrant hClock hOut (hInTime grant hGrant rfl)
    rw [after_of rfl]
    cases succeeded with
    | false => exact hDeleted
    | true =>
      have hSuccess :=
        (hDeleted.success grant.reservation.ip grant.reservation.username).pruned le_rfl
      by_cases hIp : grant.reservation.ip = ip
      · simp only [if_pos hIp, Own.step, Bool.false_eq_true, if_false,
          List.append_nil] at hSuccess ⊢
        exact hSuccess
      · simp only [if_neg hIp, List.append_nil] at hSuccess ⊢
        exact hSuccess

theorem foldl_after (labels : List Label) (own : Own) :
    labels.foldl (Own.after throttle ip) own =
      (labels.filterMap (ownLabel ip)).foldl (Own.step throttle) own := by
  induction labels generalizing own with
  | nil => rfl
  | cons label labels ih =>
    rw [List.foldl_cons, ih]
    cases hOwn : ownLabel ip label with
    | none => simp only [Own.after, hOwn, List.filterMap_cons_none hOwn]
    | some call => simp only [Own.after, hOwn, List.filterMap_cons_some hOwn, List.foldl_cons]

theorem simulates_run {start stop : State} {labels : List Label}
    (hRun : Run (SettledStep throttle) start labels stop) (hLinked : Linked throttle start)
    (hSim : Simulates throttle ip start own) :
    Simulates throttle ip stop
      ((labels.filterMap (ownLabel ip)).foldl (Own.step throttle) own) := by
  rw [← foldl_after]
  induction hRun generalizing own with
  | nil state => exact hSim
  | cons hHead _ ih =>
    obtain ⟨hStep, hSettled⟩ := hHead
    exact ih (linked_of_step hLinked hStep hSettled) (simulates_of_step hLinked hSim hStep hSettled)

theorem ownGrants_of_run {start stop : State} {labels : List Label} (hInitial : Initial start)
    (hRun : Run (SettledStep throttle) start labels stop) :
    ownGrants ip stop.granted =
      ((labels.filterMap (ownLabel ip)).foldl (Own.step throttle)
        ⟨ownAttempts ip start.rows, []⟩).granted := by
  have hSim : Simulates throttle ip start ⟨ownAttempts ip start.rows, []⟩ :=
    ⟨rfl, by rw [hInitial.granted]; rfl⟩
  exact (simulates_run hRun (linked_initial hInitial) hSim).granted

end Simulation

/-! ## The results -/

/-- Over all runs in which every reservation is released at most once and not later than the window
after it was granted: in every closed window at most the maximum of a source's reservations stay,
and what is granted to a source does not change with the rows and calls of other sources. -/
theorem reservations_bounded (throttle : BruteForceThrottle) :
    (∀ (start stop : State) (labels : List Label), Initial start →
      Run (SettledStep throttle) start labels stop →
      ∀ ip first, (staying throttle stop ip first).length ≤ throttle.maxFailures) ∧
    (∀ (ip : Text) (start stop : State) (labels : List Label) (otherStart otherStop : State)
        (otherLabels : List Label),
      Initial start → Run (SettledStep throttle) start labels stop →
      Initial otherStart → Run (SettledStep throttle) otherStart otherLabels otherStop →
      ownAttempts ip start.rows = ownAttempts ip otherStart.rows →
      labels.filterMap (ownLabel ip) = otherLabels.filterMap (ownLabel ip) →
      ownGrants ip stop.granted = ownGrants ip otherStop.granted) := by
  constructor
  · intro start stop labels hInitial hRun
    exact bounded_of_run hInitial hRun
  · intro ip start stop labels otherStart otherStop otherLabels hInitial hRun hOther hOtherRun
      hRows hLabels
    rw [ownGrants_of_run hInitial hRun, ownGrants_of_run hOther hOtherRun, hRows, hLabels]

/-- One failure in ten microseconds. -/
def strictThrottle : BruteForceThrottle where
  maxFailures := 1
  window := 10
  globalMaxFailures := 100
  backoffAfter := 3
  usernameKey := id

def emptyTable : State where
  rows := []
  granted := []
  released := []
  succeeded := []
  clock := 0

theorem initial_emptyTable : Initial emptyTable := ⟨List.nodup_nil, nofun, rfl, nofun⟩

def sourceX : Text := ['x']

def sourceY : Text := ['y']

/-- The source `y` tries twice. -/
def ownCalls : List Label :=
  [.reserve 2 sourceY ['v'] true 11, .reserve 3 sourceY ['v'] true 12]

/-- The source `x` reserves before and releases in between, in time. -/
def timelyCalls : List Label :=
  [.reserve 1 sourceX ['u'] true 5, .reserve 2 sourceY ['v'] true 11,
    .release 1 sourceX ['u'] false 11, .reserve 3 sourceY ['v'] true 12]

/-- The same, with the reservation of `x` made a window before. -/
def lateCalls : List Label :=
  [.reserve 1 sourceX ['u'] true 0, .reserve 2 sourceY ['v'] true 11,
    .release 1 sourceX ['u'] false 11, .reserve 3 sourceY ['v'] true 12]

/-- With a release in time the second attempt of `y` is refused, as it is without `x`. -/
theorem reservations_bounded_with_timely_release :
    ∃ stop otherStop : State,
      exec (checked (step strictThrottle) (Settled strictThrottle)) emptyTable timelyCalls =
        some stop ∧
      exec (checked (step strictThrottle) (Settled strictThrottle)) emptyTable ownCalls =
        some otherStop ∧
      (staying strictThrottle stop sourceY 11).length ≤ 1 ∧
      ownGrants sourceY stop.granted = ownGrants sourceY otherStop.granted := by
  obtain ⟨stop, hStop⟩ := Option.isSome_iff_exists.mp (show
    (exec (checked (step strictThrottle) (Settled strictThrottle)) emptyTable timelyCalls).isSome
      by decide +kernel)
  obtain ⟨otherStop, hOtherStop⟩ := Option.isSome_iff_exists.mp (show
    (exec (checked (step strictThrottle) (Settled strictThrottle)) emptyTable ownCalls).isSome
      by decide +kernel)
  refine ⟨stop, otherStop, hStop, hOtherStop, ?_, ?_⟩
  · exact (reservations_bounded strictThrottle).1 emptyTable stop timelyCalls initial_emptyTable
      (Run.of_exec_checked hStop) sourceY 11
  · exact (reservations_bounded strictThrottle).2 sourceY emptyTable stop timelyCalls emptyTable
      otherStop ownCalls initial_emptyTable (Run.of_exec_checked hStop) initial_emptyTable
      (Run.of_exec_checked hOtherStop) rfl (by decide +kernel)

/-- The row of `x` was pruned and its id given to that of `y`, which the late release deletes: two
reservations of `y` stay in one window, of which there would be one without `x`. -/
theorem reservations_unbounded :
    (exec (step strictThrottle) emptyTable lateCalls).map
        (fun stop => (staying strictThrottle stop sourceY 11).length) = some 2 ∧
      (exec (step strictThrottle) emptyTable ownCalls).map
        (fun stop => (staying strictThrottle stop sourceY 11).length) = some 1 ∧
      lateCalls.filterMap (ownLabel sourceY) = ownCalls.filterMap (ownLabel sourceY) := by
  exact ⟨by decide +kernel, by decide +kernel, by decide +kernel⟩

end TimelapseManager.Security.Throttle
