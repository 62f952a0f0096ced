import TimelapseManager.Lib.KeyedRows
import TimelapseManager.Lib.Runs

/-!
# The login throttle

`BruteForceThrottle` counts the failed logins of a source in a sliding window.  An attempt is
recorded as a failure before the password is checked (`try_reserve`); its row is deleted again, by
its id, if the attempt succeeded or is not to count (`release`).

The ids of `login_attempt` are those SQLite chooses, one more than the largest in the table, so the
id of a row that is gone can be given again.  The results hold of runs in which a reservation is
released once and not later than the window after it was granted (`Settled`).
-/

namespace TimelapseManager.Security.Throttle

open KeyedRows Runs

abbrev Text := List Char

/-! ## The table -/

/-- What a row says of an attempt.  The request that reserved it is a ghost: nothing reads it. -/
structure Attempt where
  username : Text
  attemptedAt : ℤ
  succeeded : Bool
  request : Option ℕ
  deriving DecidableEq

/-- A row of `login_attempt`. -/
structure LoginAttempt extends Attempt where
  id : ℕ
  ip : Text
  deriving DecidableEq

/-- What the throttle is made with: the settings, and `username_key`. -/
structure BruteForceThrottle where
  maxFailures : ℕ
  window : ℤ
  globalMaxFailures : ℕ
  backoffAfter : ℕ
  usernameKey : Text → Text

/-- `_prune`. -/
def prune (rows : List LoginAttempt) (cutoff : ℤ) : List LoginAttempt :=
  rows.filter fun row => cutoff ≤ row.attemptedAt

/-- `_recent_ip_failures`. -/
def recentIpFailures (rows : List LoginAttempt) (ip : Text) (cutoff : ℤ) : ℕ :=
  rows.countP fun failure =>
    failure.ip = ip && !failure.succeeded && cutoff ≤ failure.attemptedAt && !rows.any fun row =>
        row.ip = ip && row.username = failure.username && row.succeeded &&
          failure.attemptedAt < row.attemptedAt

/-- `_PASSWORD_CHANGE_PREFIX`. -/
def passwordChangePrefix : Text := "account:".toList

def isPasswordChange (ip : Text) : Bool := passwordChangePrefix.isPrefixOf ip

/-- `_recent_username_failures`. -/
def recentUsernameFailures (rows : List LoginAttempt) (username : Text) (cutoff : ℤ) : ℕ :=
  rows.countP fun failure =>
    failure.username = username && !failure.succeeded && cutoff ≤ failure.attemptedAt &&
      !isPasswordChange failure.ip &&
      !rows.any fun row =>
        row.ip = failure.ip && row.username = failure.username && row.succeeded &&
          failure.attemptedAt < row.attemptedAt && !isPasswordChange row.ip

/-- `_recent_login_failures`. -/
def recentLoginFailures (rows : List LoginAttempt) (cutoff : ℤ) : ℕ :=
  rows.countP fun row =>
    !row.succeeded && cutoff ≤ row.attemptedAt && !isPasswordChange row.ip

/-- `backoff_seconds`. -/
def backoffSeconds (priorFailures after : ℕ) : ℕ :=
  if priorFailures < after then 0 else min (2 ^ min (priorFailures - after) 16) 30

/-- The id SQLite gives to a new row. -/
def nextId (rows : List LoginAttempt) : ℕ :=
  rows.foldr (fun row largest => max row.id largest) 0 + 1

/-- `LoginReservation`. -/
structure LoginReservation where
  attemptId : ℕ
  ip : Text
  username : Text
  delaySeconds : ℕ
  deriving DecidableEq

namespace BruteForceThrottle

variable (throttle : BruteForceThrottle)

/-- `_backoff_delay`. -/
def backoffDelay (rows : List LoginAttempt) (username : Text) (cutoff : ℤ) : ℕ :=
  let prior := recentUsernameFailures rows username cutoff
  let raised :=
    if throttle.globalMaxFailures ≤ recentLoginFailures rows cutoff then
      max prior throttle.backoffAfter
    else prior
  backoffSeconds raised throttle.backoffAfter

/-- The row that `try_reserve` inserts. -/
def reservedRow (rows : List LoginAttempt) (request : ℕ)
    (ip username : Text) (now : ℤ) : LoginAttempt where
  username := throttle.usernameKey username
  attemptedAt := now
  succeeded := false
  request := some request
  id := nextId rows
  ip := ip

/-- The transaction of `try_reserve`. -/
def tryReserve (rows : List LoginAttempt) (request : ℕ)
    (ip username : Text) (backoff : Bool) (now : ℤ) :
    Option LoginReservation × List LoginAttempt :=
  let cutoff := now - throttle.window
  let pruned := prune rows cutoff
  if throttle.maxFailures ≤ recentIpFailures pruned ip cutoff then (none, pruned)
  else
    let key := throttle.usernameKey username
    let delay := if backoff then throttle.backoffDelay pruned key cutoff else 0
    let row := throttle.reservedRow pruned request ip username now
    (some ⟨row.id, ip, key, delay⟩, pruned ++ [row])

/-- The row that `record_success` inserts. -/
def successRow (rows : List LoginAttempt) (ip username : Text) (now : ℤ) : LoginAttempt where
  username := username
  attemptedAt := now
  succeeded := true
  request := none
  id := nextId rows
  ip := ip

/-- The transaction of `release`. -/
def release (rows : List LoginAttempt)
    (reservation : LoginReservation) (succeeded : Bool) (now : ℤ) : List LoginAttempt :=
  let rest := rows.filter fun row => row.id ≠ reservation.attemptId
  if succeeded then
    prune (rest ++ [successRow rest reservation.ip reservation.username now])
      (now - throttle.window)
  else rest

end BruteForceThrottle

/-! ## Runs -/

/-- A reservation with the request that holds it and the time it was granted. -/
structure Grant where
  request : ℕ
  reservation : LoginReservation
  grantedAt : ℤ
  deriving DecidableEq

/-- The table, the reservations granted so far, which of them were released, the pairs of source and
username that have succeeded, and the time of the last call. -/
structure State where
  rows : List LoginAttempt
  granted : List Grant
  released : List ℕ
  succeeded : List (Text × Text)
  clock : ℤ
  deriving DecidableEq

/-- A call with its time.  A release names the reservation by its request, with the source and the
username that it holds. -/
inductive Label
  | reserve (request : ℕ) (ip username : Text) (backoff : Bool) (now : ℤ)
  | release (request : ℕ) (ip username : Text) (succeeded : Bool) (now : ℤ)
  deriving DecidableEq

/-- One call, as one transaction, with the clock not going back. -/
def step (throttle : BruteForceThrottle) (state : State) : Label → Option State
  | .reserve request ip username backoff now =>
    if state.clock ≤ now ∧ request ∉ state.granted.map Grant.request then
      match throttle.tryReserve state.rows request ip username backoff now with
      | (none, rows) => some { state with rows := rows, clock := now }
      | (some reservation, rows) =>
        some { state with
          rows := rows
          granted := state.granted ++ [⟨request, reservation, now⟩]
          clock := now }
    else none
  | .release request ip username succeeded now =>
    match state.granted.find? fun grant => grant.request = request with
    | none => none
    | some grant =>
      if state.clock ≤ now ∧ grant.reservation.ip = ip ∧ grant.reservation.username = username then
        some { state with
          rows := throttle.release state.rows grant.reservation succeeded now
          released := request :: state.released
          succeeded := if succeeded then (ip, username) :: state.succeeded else state.succeeded
          clock := now }
      else none

/-- A reservation is released once, and not later than the window after it was granted. -/
def Settled (throttle : BruteForceThrottle) (state : State) : Label → Prop
  | .reserve _ _ _ _ _ => True
  | .release request _ _ _ now =>
    request ∉ state.released ∧
      ∀ grant ∈ state.granted, grant.request = request → now ≤ grant.grantedAt + throttle.window

instance (throttle : BruteForceThrottle) (state : State) (label : Label) :
    Decidable (Settled throttle state label) := by
  cases label <;> unfold Settled <;> infer_instance

/-- The calls that keep to it. -/
abbrev SettledStep (throttle : BruteForceThrottle) : State → Label → State → Prop :=
  Guarded (Steps (step throttle)) (Settled throttle)

/-- No reservation is out yet. -/
structure Initial (state : State) : Prop where
  ids : (state.rows.map LoginAttempt.id).Nodup
  untagged : ∀ row ∈ state.rows, row.request = none
  granted : state.granted = []
  succeeded : ∀ row ∈ state.rows, row.succeeded = true → (row.ip, row.username) ∈ state.succeeded

/-! ## What a step does -/

section Steps

variable (throttle : BruteForceThrottle) (state : State)

/-- The rows before the window are deleted. -/
abbrev State.pruned (now : ℤ) : State :=
  { state with rows := prune state.rows (now - throttle.window), clock := now }

/-- A reservation is granted. -/
abbrev State.reserved (request : ℕ) (ip username : Text) (delay : ℕ) : State :=
  { state with
    rows := state.rows ++ [throttle.reservedRow state.rows request ip username state.clock]
    granted := state.granted ++
      [⟨request, ⟨nextId state.rows, ip, throttle.usernameKey username, delay⟩, state.clock⟩] }

/-- The row with the id of a reservation is deleted. -/
abbrev State.deleted (grant : Grant) (now : ℤ) : State :=
  { state with
    rows := state.rows.filter fun row => row.id ≠ grant.reservation.attemptId
    released := grant.request :: state.released
    clock := now }

/-- A success is recorded. -/
abbrev State.recorded (ip username : Text) : State :=
  { state with
    rows := state.rows ++ [BruteForceThrottle.successRow state.rows ip username state.clock]
    succeeded := (ip, username) :: state.succeeded }

/-- What the step function can do. -/
inductive Moves : Label → State → Prop
  | refused {request : ℕ} {ip username : Text} {backoff : Bool} {now : ℤ}
      (hClock : state.clock ≤ now)
      (hMany : throttle.maxFailures ≤
        recentIpFailures (state.pruned throttle now).rows ip (now - throttle.window)) :
      Moves (.reserve request ip username backoff now) (state.pruned throttle now)
  | granted {request : ℕ} {ip username : Text} {backoff : Bool} {now : ℤ} {delay : ℕ}
      (hClock : state.clock ≤ now) (hFresh : request ∉ state.granted.map Grant.request)
      (hFew : recentIpFailures (state.pruned throttle now).rows ip (now - throttle.window) <
        throttle.maxFailures) :
      Moves (.reserve request ip username backoff now)
        ((state.pruned throttle now).reserved throttle request ip username delay)
  | released {succeeded : Bool} {now : ℤ} (grant : Grant) (hGrant : grant ∈ state.granted)
      (hClock : state.clock ≤ now) :
      Moves (.release grant.request grant.reservation.ip grant.reservation.username succeeded now)
        (if succeeded then
          ((state.deleted grant now).recorded grant.reservation.ip
            grant.reservation.username).pruned throttle now
        else state.deleted grant now)

variable {throttle state}

theorem moves_of_step {label : Label} {next : State}
    (hStep : step throttle state label = some next) :
    Moves throttle state label next := by
  cases label with
  | reserve request ip username backoff now =>
    obtain ⟨⟨hClock, hFresh⟩, hNext⟩ := Option.ite_none_right_eq_some.mp hStep
    by_cases hMany : throttle.maxFailures ≤
        recentIpFailures (prune state.rows (now - throttle.window)) ip (now - throttle.window)
    · simp only [BruteForceThrottle.tryReserve, if_pos hMany] at hNext
      cases hNext
      exact Moves.refused hClock hMany
    · simp only [BruteForceThrottle.tryReserve, if_neg hMany] at hNext
      cases hNext
      exact Moves.granted hClock hFresh (not_le.mp hMany)
  | release request ip username succeeded =>
    simp only [step] at hStep
    cases hFind : state.granted.find? fun grant => grant.request = request with rw [hFind] at hStep
    | none => cases hStep
    | some grant =>
      obtain ⟨⟨hClock, hIp, hUsername⟩, hNext⟩ := Option.ite_none_right_eq_some.mp hStep
      have hFound := List.find?_some hFind
      have hRequest : grant.request = request := of_decide_eq_true hFound
      subst hRequest hIp hUsername
      cases hNext
      have hReleased := @Moves.released throttle state succeeded _ grant
        (List.mem_of_find?_eq_some hFind) hClock
      cases succeeded with
      | false | true => exact hReleased

end Steps

/-! ## Rows and reservations -/

/-- The row that a reservation was inserted as. -/
def Grant.row (grant : Grant) : LoginAttempt where
  username := grant.reservation.username
  attemptedAt := grant.grantedAt
  succeeded := false
  request := some grant.request
  id := grant.reservation.attemptId
  ip := grant.reservation.ip

/-- The rows and the reservations belong together: a row with a request is of a reservation, and
the row of a reservation that was not released is in the table as long as it is in the window. -/
structure Linked (throttle : BruteForceThrottle) (state : State) : Prop where
  ids : (state.rows.map LoginAttempt.id).Nodup
  requests : (state.granted.map Grant.request).Nodup
  tagged : ∀ row ∈ state.rows, row.request ≠ none → ∃ grant ∈ state.granted, grant.row = row
  held : ∀ grant ∈ state.granted, grant.request ∉ state.released →
    state.clock - throttle.window ≤ grant.grantedAt → grant.row ∈ state.rows
  times : ∀ grant ∈ state.granted, grant.grantedAt ≤ state.clock
  successes : ∀ row ∈ state.rows, row.succeeded = true → (row.ip, row.username) ∈ state.succeeded

section Table

variable {rows : List LoginAttempt}

theorem id_lt_nextId {row : LoginAttempt} (hMem : row ∈ rows) : row.id < nextId rows := by
  unfold nextId
  induction rows with
  | nil => cases hMem
  | cons first rest ih =>
    rcases List.mem_cons.mp hMem with rfl | hRest
    · exact Nat.lt_succ_of_le (le_max_left _ _)
    · exact lt_of_lt_of_le (ih hRest) (Nat.succ_le_succ (le_max_right _ _))

theorem mem_prune {row : LoginAttempt} {cutoff : ℤ} :
    row ∈ prune rows cutoff ↔ row ∈ rows ∧ cutoff ≤ row.attemptedAt := by
  unfold prune
  rw [List.mem_filter, decide_eq_true_eq]

theorem prune_sublist (cutoff : ℤ) : (prune rows cutoff).Sublist rows := List.filter_sublist

theorem nodup_append_nextId (hIds : (rows.map LoginAttempt.id).Nodup) {row : LoginAttempt}
    (hId : row.id = nextId rows) : ((rows ++ [row]).map LoginAttempt.id).Nodup := by
  refine nodup_map_append hIds ?_
  intro hMem
  obtain ⟨old, hOld, hSame⟩ := List.mem_map.mp hMem
  exact (id_lt_nextId hOld).ne (hSame.trans hId)

theorem eq_of_id_eq (hIds : (rows.map LoginAttempt.id).Nodup) {row other : LoginAttempt}
    (hRow : row ∈ rows) (hOther : other ∈ rows) (hId : row.id = other.id) : row = other :=
  List.inj_on_of_nodup_map hIds hRow hOther hId

end Table

section Invariant

variable {throttle : BruteForceThrottle} {state next : State} {label : Label}

theorem linked_initial (hInitial : Initial state) : Linked throttle state := { hInitial with
  requests := by rw [hInitial.granted]; exact List.nodup_nil
  tagged := by
    intro row hRow hRequest
    exact absurd (hInitial.untagged row hRow) hRequest
  held := by
    intro grant hGrant
    rw [hInitial.granted] at hGrant
    cases hGrant
  times := by
    intro grant hGrant
    rw [hInitial.granted] at hGrant
    cases hGrant
  successes := hInitial.succeeded }

variable {grant : Grant}

section

variable (hLinked : Linked throttle state)
include hLinked

theorem Linked.grant_eq {other : Grant}
    (hGrant : grant ∈ state.granted) (hOther : other ∈ state.granted)
    (hRequest : grant.request = other.request) : grant = other :=
  List.inj_on_of_nodup_map hLinked.requests hGrant hOther hRequest

theorem Linked.id_eq_iff (hGrant : grant ∈ state.granted) (hOut : grant.request ∉ state.released)
    (hWindow : state.clock - throttle.window ≤ grant.grantedAt) {row : LoginAttempt}
    (hRow : row ∈ state.rows) :
    row.id = grant.reservation.attemptId ↔ row.request = some grant.request := by
  constructor
  · intro hId
    rw [eq_of_id_eq hLinked.ids hRow (hLinked.held grant hGrant hOut hWindow) hId]
    rfl
  · intro hRequest
    obtain ⟨other, hOther, rfl⟩ := hLinked.tagged row hRow (by rw [hRequest]; nofun)
    rw [hLinked.grant_eq hOther hGrant (Option.some.inj hRequest)]
    rfl

theorem Linked.pruned {now : ℤ} (hClock : state.clock ≤ now) :
    Linked throttle (state.pruned throttle now) where
  ids := ((prune_sublist _).map _).nodup hLinked.ids
  requests := hLinked.requests
  tagged := fun row hRow => hLinked.tagged row (mem_prune.mp hRow).1
  held := by
    intro grant hGrant hOut hWindow
    have hWindow : now - throttle.window ≤ grant.grantedAt := hWindow
    exact mem_prune.mpr ⟨hLinked.held grant hGrant hOut (by omega), hWindow⟩
  times := fun grant hGrant => le_trans (hLinked.times grant hGrant) hClock
  successes := fun row hRow => hLinked.successes row (mem_prune.mp hRow).1

theorem Linked.granted {request delay : ℕ} {ip username : Text}
    (hFresh : request ∉ state.granted.map Grant.request) :
    Linked throttle (state.reserved throttle request ip username delay) where
  ids := nodup_append_nextId hLinked.ids rfl
  requests := nodup_map_append hLinked.requests hFresh
  tagged := by
    refine forall_mem_concat ?_ fun _ => ⟨_, List.mem_concat_self, rfl⟩
    intro row hOld hRequest
    obtain ⟨grant, hGrant, hOwn⟩ := hLinked.tagged row hOld hRequest
    exact ⟨grant, List.mem_append_left _ hGrant, hOwn⟩
  held := by
    refine forall_mem_concat ?_ fun _ _ => List.mem_concat_self
    intro grant hOld hOut hWindow
    exact List.mem_append_left _ (hLinked.held grant hOld hOut hWindow)
  times := forall_mem_concat hLinked.times le_rfl
  successes := forall_mem_concat hLinked.successes nofun

theorem Linked.deleted {now : ℤ} (hGrant : grant ∈ state.granted)
    (hClock : state.clock ≤ now) (hOut : grant.request ∉ state.released)
    (hWindow : now ≤ grant.grantedAt + throttle.window) :
    Linked throttle (state.deleted grant now) := { hLinked with
  ids := (List.filter_sublist.map _).nodup hLinked.ids
  tagged := fun row hRow => hLinked.tagged row (List.mem_filter.mp hRow).1
  held := by
    intro other hOther hStays hInWindow
    have hInWindow : now - throttle.window ≤ other.grantedAt := hInWindow
    obtain ⟨hNe, hKept⟩ := not_or.mp fun hEither => hStays (List.mem_cons.mpr hEither)
    have hRow := hLinked.held other hOther hKept (by omega)
    refine List.mem_filter.mpr ⟨hRow, decide_eq_true ?_⟩
    intro hId
    have hTag := (hLinked.id_eq_iff hGrant hOut (by omega) hRow).mp hId
    exact hNe (Option.some.inj hTag)
  times := fun other hOther => le_trans (hLinked.times other hOther) hClock
  successes := fun row hRow => hLinked.successes row (List.mem_filter.mp hRow).1 }

theorem Linked.success (ip username : Text) :
    Linked throttle (state.recorded ip username) := { hLinked with
  ids := nodup_append_nextId hLinked.ids rfl
  tagged := forall_mem_concat hLinked.tagged (absurd rfl)
  held := fun grant hGrant hOut hWindow =>
    List.mem_append_left _ (hLinked.held grant hGrant hOut hWindow)
  successes := by
    refine forall_mem_concat ?_ fun _ => List.mem_cons_self
    intro row hOld hSucceeded
    exact List.mem_cons_of_mem _ (hLinked.successes row hOld hSucceeded) }

theorem linked_of_step
    (hStep : step throttle state label = some next) (hSettled : Settled throttle state label) :
    Linked throttle next := by
  cases moves_of_step hStep with
  | refused hClock => exact hLinked.pruned hClock
  | granted hClock hFresh => exact (hLinked.pruned hClock).granted hFresh
  | @released succeeded now grant hGrant hClock =>
    obtain ⟨hOut, hInTime⟩ := hSettled
    have hDeleted := hLinked.deleted hGrant hClock hOut (hInTime grant hGrant rfl)
    cases succeeded with
    | false => exact hDeleted
    | true =>
      exact (hDeleted.success grant.reservation.ip grant.reservation.username).pruned le_rfl

end

/-! ## The bound -/

/-- The reservation was granted to the source in the closed window and not released, for a username
that has not succeeded from there. -/
def stays (throttle : BruteForceThrottle) (released : List ℕ) (succeeded : List (Text × Text))
    (ip : Text) (start : ℤ) (grant : Grant) : Bool :=
  grant.reservation.ip = ip && start ≤ grant.grantedAt &&
    grant.grantedAt ≤ start + throttle.window && grant.request ∉ released &&
    (ip, grant.reservation.username) ∉ succeeded

/-- The reservations of a source and a window that stay. -/
def staying (throttle : BruteForceThrottle) (state : State) (ip : Text) (start : ℤ) : List Grant :=
  state.granted.filter (stays throttle state.released state.succeeded ip start)

theorem stays_iff {released : List ℕ} {succeeded : List (Text × Text)} {ip : Text} {start : ℤ} :
    stays throttle released succeeded ip start grant = true ↔
      grant.reservation.ip = ip ∧ start ≤ grant.grantedAt ∧
        grant.grantedAt ≤ start + throttle.window ∧ grant.request ∉ released ∧
        (ip, grant.reservation.username) ∉ succeeded := by
  unfold stays
  simp only [Bool.and_eq_true, decide_eq_true_eq, and_assoc]

theorem Linked.nodup_rows (hLinked : Linked throttle state) (ip : Text) (start : ℤ) :
    ((staying throttle state ip start).map Grant.row).Nodup := by
  refine List.Nodup.map_on ?_ (hLinked.requests.of_map.filter _)
  intro first hFirst second hSecond hRow
  have hRequest : some first.request = some second.request := congrArg (fun row => row.request) hRow
  exact hLinked.grant_eq (List.mem_of_mem_filter hFirst) (List.mem_of_mem_filter hSecond)
    (Option.some.inj hRequest)

theorem Linked.staying_le (hLinked : Linked throttle state) (ip : Text) {start : ℤ}
    (hStart : state.clock - throttle.window ≤ start) :
    (staying throttle state ip start).length ≤
      recentIpFailures state.rows ip (state.clock - throttle.window) := by
  unfold recentIpFailures
  rw [List.countP_eq_length_filter, ← (staying throttle state ip start).length_map]
  refine (List.subperm_of_subset (hLinked.nodup_rows ip start) ?_).length_le
  intro row hMem
  obtain ⟨grant, hGrant, rfl⟩ := List.mem_map.mp hMem
  obtain ⟨hGranted, hStays⟩ := List.mem_filter.mp hGrant
  obtain ⟨hIp, hFrom, -, hOut, hNever⟩ := stays_iff.mp hStays
  have hWindow : state.clock - throttle.window ≤ grant.grantedAt := le_trans hStart hFrom
  refine List.mem_filter.mpr ⟨hLinked.held grant hGranted hOut hWindow, ?_⟩
  -- No success of the pair is in the table, so nothing forgives the row.
  have hUnforgiven : (state.rows.any fun row =>
      row.ip = ip && row.username = grant.row.username && row.succeeded &&
        grant.row.attemptedAt < row.attemptedAt) = false := by
    refine List.any_eq_false.mpr ?_
    intro other hOther hSuccess
    simp only [Bool.and_eq_true, decide_eq_true_eq] at hSuccess
    obtain ⟨⟨⟨hSameIp, hSameName⟩, hSucceeded⟩, -⟩ := hSuccess
    have hPair := hLinked.successes other hOther hSucceeded
    rw [hSameIp, hSameName] at hPair
    exact hNever hPair
  rw [hUnforgiven]
  simp only [Grant.row, hIp, hWindow, decide_true, Bool.not_false, Bool.and_self]

/-- Not more reservations stay than the maximum. -/
def Bounded (throttle : BruteForceThrottle) (state : State) : Prop :=
  ∀ ip start, (staying throttle state ip start).length ≤ throttle.maxFailures

theorem Linked.bounded_granted (hLinked : Linked throttle state) (hBounded : Bounded throttle state)
    {new : Grant} (hTime : new.grantedAt = state.clock)
    (hFew : recentIpFailures state.rows new.reservation.ip (state.clock - throttle.window) <
      throttle.maxFailures) (rows : List LoginAttempt) :
    Bounded throttle { state with rows := rows, granted := state.granted ++ [new] } := by
  intro source start
  have hOld := hBounded source start
  show (List.filter (stays throttle state.released state.succeeded source start)
    (state.granted ++ [new])).length ≤ throttle.maxFailures
  rw [List.filter_append, List.length_append]
  by_cases hStays : stays throttle state.released state.succeeded source start new = true
  · -- The new one is counted: those before it are in the table, where fewer were found.
    obtain ⟨rfl, -, hEnd, -, -⟩ := stays_iff.mp hStays
    have hStart : state.clock - throttle.window ≤ start := by omega
    have hFound := hLinked.staying_le new.reservation.ip hStart
    unfold staying at hFound
    rw [List.filter_cons_of_pos hStays, List.filter_nil, List.length_singleton]
    omega
  · rw [List.filter_cons_of_neg hStays, List.filter_nil, List.length_nil]
    exact hOld

theorem bounded_of_step (hLinked : Linked throttle state) (hBounded : Bounded throttle state)
    (hStep : step throttle state label = some next) : Bounded throttle next := by
  cases moves_of_step hStep with
  | refused => exact hBounded
  | granted hClock _ hFew => exact (hLinked.pruned hClock).bounded_granted hBounded rfl hFew _
  | @released succeeded now grant =>
    -- What is released or has succeeded is not counted any more.
    intro ip start
    have hLess : ∀ succeeded, state.succeeded ⊆ succeeded → (state.granted.filter
        (stays throttle (grant.request :: state.released) succeeded ip start)).length ≤
          throttle.maxFailures := by
      intro succeeded hMore
      refine le_trans (List.Sublist.length_le ?_) (hBounded ip start)
      refine List.monotone_filter_right _ ?_
      intro other hStays
      obtain ⟨hIp, hFrom, hTo, hOut, hNever⟩ := stays_iff.mp hStays
      exact stays_iff.mpr ⟨hIp, hFrom, hTo, fun hMem => hOut (List.mem_cons_of_mem _ hMem),
        fun hMem => hNever (hMore hMem)⟩
    cases succeeded with
    | false => exact hLess _ (List.Subset.refl _)
    | true => exact hLess _ (List.subset_cons_self _ _)

theorem bounded_of_run {start stop : State} {labels : List Label} (hInitial : Initial start)
    (hRun : Run (SettledStep throttle) start labels stop) : Bounded throttle stop := by
  refine (Run.invariant (fun state => Linked throttle state ∧ Bounded throttle state) ?_ hRun
    ⟨linked_initial hInitial, ?_⟩).2
  · rintro state label next ⟨hLinked, hBounded⟩ ⟨hStep, hSettled⟩
    exact ⟨linked_of_step hLinked hStep hSettled, bounded_of_step hLinked hBounded hStep⟩
  · intro ip from_
    unfold staying
    rw [hInitial.granted]
    exact Nat.zero_le _

end Invariant

end TimelapseManager.Security.Throttle
