import TimelapseManager.Capture.Anchors

/-!
# The exact-time fire-log

The table `exact_time_fire` and the transactions the supervisor runs on it.  One
row per `(project, anchor, local date)`: the table is a function from keys to
rows, and the insert that hits an existing row is the `IntegrityError` of the
unique constraint.

Each definition is one transaction.  For each there is a lemma that it touches
its own key only, and one that says what a change of the row tells about the row
before.
-/

namespace TimelapseManager.Capture

open Function (update update_self update_of_ne)

/-! ## Rows -/

inductive FireStatus
  | captured
  | failed
  | retryPending
  | skippedMissed
  | skippedNoGeo
  deriving DecidableEq, Repr

structure FireKey where
  projectId : Nat
  anchorId : String
  localDate : Int
  deriving DecidableEq, Repr

structure Fire where
  status : FireStatus
  attempts : Nat
  nextAttemptAt : Option Int
  frameId : Option Nat
  detail : Option String
  deriving DecidableEq, Repr

abbrev FireLog := FireKey → Option Fire

variable {key : FireKey} {log next : FireLog}

/-! ## Transactions -/

/-- `_claim_exact_time_fire`: the insert, or `none` when the row exists. -/
def claimExactTimeFire (log : FireLog) (key : FireKey) (status : FireStatus)
    (detail : Option String) : Option FireLog :=
  match log key with
  | some _ => none
  | none => some (update log key (some ⟨status, 1, none, none, detail⟩))

/-- `UPDATE ... WHERE` of the row, and whether it changed one. -/
def updateWhere (log : FireLog) (key : FireKey) (fits : Fire → Prop) [DecidablePred fits]
    (change : Fire → Fire) : FireLog × Bool :=
  match log key with
  | none => (log, false)
  | some fire =>
    if fits fire then (update log key (some (change fire)), true) else (log, false)

/-- `_finalize_in_session`, and whether it changed the row. -/
def finalizeInSession (log : FireLog) (key : FireKey) (attempts : Nat)
    (detail : Option String) (expectedStatus : FireStatus) : FireLog × Bool :=
  updateWhere log key (fun fire => fire.status = expectedStatus ∧ fire.attempts = attempts)
    fun fire => { fire with status := .failed, nextAttemptAt := none, detail := detail }

inductive AnchorClaim
  | claimed (attempts : Nat)
  | pending (nextAttemptAt : Int)
  | finalized (attempts : Nat) (detail : Option String)
  | done
  deriving DecidableEq, Repr

/-- `_reclaim_anchor_retry`.  The `WHERE` of the update repeats what the select
of the same transaction has found, so the update takes the row. -/
def reclaimAnchorRetry (log : FireLog) (key : FireKey) (now : Int) (withinGrace : Bool) :
    FireLog × AnchorClaim :=
  match log key with
  | none => (log, .done)
  | some fire =>
    if fire.status ≠ .retryPending then (log, .done)
    else if withinGrace = false then
      match finalizeInSession log key fire.attempts fire.detail .retryPending with
      | (next, true) => (next, .finalized fire.attempts fire.detail)
      | (next, false) => (next, .done)
    else
      let taken : FireLog := update log key (some { fire with
        status := .failed, attempts := fire.attempts + 1, nextAttemptAt := none })
      match fire.nextAttemptAt with
      | some due =>
        if now < due then (log, .pending due)
        else (taken, .claimed (fire.attempts + 1))
      | none => (taken, .claimed (fire.attempts + 1))

/-- `_schedule_anchor_retry`, and whether the row was parked. -/
def scheduleAnchorRetry (log : FireLog) (key : FireKey) (attempts : Nat)
    (nextAttemptAt : Int) (detail : String) : FireLog × Bool :=
  updateWhere log key
    (fun fire => fire.status = .failed ∧ fire.attempts = attempts ∧ fire.nextAttemptAt = none)
    fun fire => { fire with
      status := .retryPending, nextAttemptAt := some nextAttemptAt, detail := some detail }

def recordExactTimeOutcome (log : FireLog) (key : FireKey) (status : FireStatus)
    (frameId : Option Nat) (detail : Option String) : FireLog :=
  (updateWhere log key (fun _ => True) fun fire => { fire with
    status := status, frameId := frameId, detail := detail, nextAttemptAt := none }).1

def releaseExactTimeFire (log : FireLog) (key : FireKey) : FireLog :=
  update log key none

/-! ## What the transactions do to a row -/

/-- The row of a key goes from one status to another; no other row changes. -/
def MovesRow (log next : FireLog) (key : FireKey) (old new : FireStatus) : Prop :=
  ∃ before after, log key = some before ∧ before.status = old ∧
    next = update log key (some after) ∧ after.status = new

theorem claimExactTimeFire_eq_some {status : FireStatus} {detail : Option String}
    (hClaim : claimExactTimeFire log key status detail = some next) :
    log key = none ∧ next = update log key (some ⟨status, 1, none, none, detail⟩) := by
  unfold claimExactTimeFire at hClaim
  split at hClaim
  · cases hClaim
  · rename_i hAbsent
    cases hClaim
    exact ⟨hAbsent, rfl⟩

section Update

variable {fits : Fire → Prop} [DecidablePred fits] {change : Fire → Fire}

theorem updateWhere_moves {old : FireStatus} (hOld : ∀ fire, fits fire → fire.status = old) :
    (updateWhere log key fits change).1 = log ∨
      ∃ new, MovesRow log (updateWhere log key fits change).1 key old new := by
  unfold updateWhere
  split
  · exact Or.inl rfl
  next fire hRow =>
    split
    next hFits => exact Or.inr ⟨_, fire, _, hRow, hOld fire hFits, rfl, rfl⟩
    · exact Or.inl rfl

theorem updateWhere_eq_none_iff (other : FireKey) :
    (updateWhere log key fits change).1 other = none ↔ log other = none := by
  unfold updateWhere
  split
  · rfl
  next fire hRow =>
    split
    · by_cases hKey : other = key
      · simp [hKey, hRow]
      · simp [hKey]
    · rfl

end Update

theorem reclaimAnchorRetry_moves (log : FireLog) (key : FireKey) (now : Int) (withinGrace : Bool) :
    ((reclaimAnchorRetry log key now withinGrace).1 = log ∧
        ∀ attempts, (reclaimAnchorRetry log key now withinGrace).2 ≠ .claimed attempts) ∨
      MovesRow log (reclaimAnchorRetry log key now withinGrace).1 key .retryPending .failed := by
  unfold reclaimAnchorRetry
  split
  · exact Or.inl ⟨rfl, nofun⟩
  · rename_i fire hRow
    split
    · exact Or.inl ⟨rfl, nofun⟩
    · rename_i hStatus
      have hPending : fire.status = .retryPending := not_not.mp hStatus
      split
      · -- The grace window has closed: the row is finalised.
        simp only [finalizeInSession, updateWhere, hRow, hPending, and_self, if_true]
        exact Or.inr ⟨fire, _, hRow, hPending, rfl, rfl⟩
      · split
        · split
          · exact Or.inl ⟨rfl, nofun⟩
          · exact Or.inr ⟨fire, _, hRow, hPending, rfl, rfl⟩
        · exact Or.inr ⟨fire, _, hRow, hPending, rfl, rfl⟩

theorem recordExactTimeOutcome_moves (log : FireLog) (key : FireKey) (status : FireStatus)
    (frameId : Option Nat) (detail : Option String) :
    (log key = none ∧ recordExactTimeOutcome log key status frameId detail = log) ∨
      ∃ old, MovesRow log (recordExactTimeOutcome log key status frameId detail) key
        old status := by
  unfold recordExactTimeOutcome updateWhere
  split
  next hAbsent => exact Or.inl ⟨hAbsent, rfl⟩
  next fire hRow =>
    rw [if_pos trivial]
    exact Or.inr ⟨fire.status, fire, _, hRow, rfl, rfl, rfl⟩

theorem MovesRow.self {old new : FireStatus} (hMoves : MovesRow log next key old new) :
    (∃ fire, log key = some fire ∧ fire.status = old) ∧
      ∃ fire, next key = some fire ∧ fire.status = new := by
  obtain ⟨before, after, hRow, hOld, rfl, hNew⟩ := hMoves
  exact ⟨⟨before, hRow, hOld⟩, after, update_self key (some after) log, hNew⟩

theorem MovesRow.other {other : FireKey} {old new : FireStatus}
    (hMoves : MovesRow log next key old new) (hOther : other ≠ key) : next other = log other := by
  obtain ⟨_, after, _, _, rfl, _⟩ := hMoves
  exact update_of_ne hOther (some after) log

end TimelapseManager.Capture
