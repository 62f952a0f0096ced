import TimelapseManager.Lib.Dict
import TimelapseManager.Lib.Runs

/-!
# The hourly limit of problem reports

`_claim_row` of `reports/service.py`: a filing reads the clock, checks the limit and inserts its
row.  The check reads what is committed, without a lock; the lock is taken after it, for the key, so
that rows are inserted one after the other.  Two filings that have both passed the check are both
inserted (`last_place_taken_twice`).  While a row is only inserted if no other filing of its user
has passed the check, the limit holds in every hour (`filed_within_limit`).  No report is deleted.
-/

namespace TimelapseManager.Reports.RateLimit

open KeyedRows Runs

/-- Instants are microseconds. -/
def hour : ℤ := 3600000000

def keyAllocationAttempts : ℕ := 5

/-- The columns of a `report` row that the limit reads. -/
structure Report where
  userId : Option ℕ
  createdAt : ℤ

/-- Where a filing is: before the check of an attempt, behind it, or over. -/
inductive Phase
  | checking (attempt : ℕ)
  | passed (attempt : ℕ)
  | over

structure Filing where
  userId : Option ℕ
  now : ℤ
  phase : Phase

/-- The database, with the users and times of the `report.refused` events, and the filings. -/
structure State where
  reports : List Report
  refusals : List (Option ℕ × ℤ)
  filings : Dict ℕ Filing

/-- A filing reads the clock; checks the limit; inserts its row, unless its key is taken.  A report
is refused before it has a row. -/
inductive Label
  | start (id : ℕ) (userId : Option ℕ) (now : ℤ)
  | check (id : ℕ)
  | insert (id : ℕ) (keyTaken : Bool)
  | refuse (userId : Option ℕ) (time : ℤ)

namespace State

def empty : State := ⟨[], [], Dict.empty⟩

variable (state : State)

def reportsSince (userId : ℕ) (since : ℤ) : ℕ :=
  state.reports.countP fun report => report.userId = some userId ∧ since ≤ report.createdAt

def refusalsSince (userId : ℕ) (since : ℤ) : ℕ :=
  state.refusals.countP fun refusal => refusal.1 = some userId ∧ since ≤ refusal.2

/-- The user's reports in the hour from `start` on. -/
def reportsInHour (userId : ℕ) (start : ℤ) : ℕ :=
  state.reports.countP fun report =>
    report.userId = some userId ∧ start ≤ report.createdAt ∧ report.createdAt ≤ start + hour

/-- `check_rate_limit`: whether it lets the filing pass. -/
def checkRateLimit (perHour : ℕ) (filing : Filing) : Bool :=
  match filing.userId with
  | none => true
  | some userId =>
    state.reportsSince userId (filing.now - hour) + state.refusalsSince userId (filing.now - hour)
      < perHour

def setPhase (id : ℕ) (filing : Filing) (phase : Phase) : State :=
  { state with filings := state.filings.set id { filing with phase := phase } }

end State

def step (perHour : ℕ) (state : State) : Label → Option State
  | .start id userId now =>
    if state.filings.get? id = none then
      some (state.setPhase id ⟨userId, now, .over⟩ (.checking 0))
    else none
  | .check id => (state.filings.get? id).bind fun filing =>
    match filing.phase with
    | .checking attempt =>
      some (state.setPhase id filing
        (if state.checkRateLimit perHour filing then .passed attempt else .over))
    | _ => none
  | .insert id keyTaken => (state.filings.get? id).bind fun filing =>
    match filing.phase with
    | .passed attempt =>
      if keyTaken then
        some (state.setPhase id filing
          (if attempt + 1 < keyAllocationAttempts then .checking (attempt + 1) else .over))
      else
        some ({ state with
          reports := ⟨filing.userId, filing.now⟩ :: state.reports }.setPhase id filing .over)
    | _ => none
  | .refuse userId time => some { state with refusals := (userId, time) :: state.refusals }

/-! ## The limit -/

def Phase.hasPassed : Phase → Bool
  | .passed _ => true
  | _ => false

/-- A row is inserted only if no other filing of its user has passed the check.  An attempt whose
key is taken inserts nothing. -/
def Alone (state : State) : Label → Prop
  | .insert id false => ∀ own ∈ state.filings.get? id, ∀ row ∈ state.filings.rows,
    row.1 ≠ id → row.2.phase.hasPassed = true → own.userId = none ∨ row.2.userId ≠ own.userId
  | _ => True

/-- The limit holds in every hour, and leaves room for a filing that has passed the check. -/
structure Within (perHour : ℕ) (state : State) : Prop where
  hours : ∀ userId start, state.reportsInHour userId start ≤ perHour
  room : ∀ id filing userId, state.filings.get? id = some filing →
    filing.phase.hasPassed = true → filing.userId = some userId →
    state.reportsSince userId (filing.now - hour) < perHour

section Steps

variable {perHour id : ℕ} {state : State} {filing : Filing} {phase : Phase}

theorem Within.setPhase (hWithin : Within perHour state)
    (hRoom : phase.hasPassed = true → ∀ userId, filing.userId = some userId →
      state.reportsSince userId (filing.now - hour) < perHour) :
    Within perHour (state.setPhase id filing phase) := by
  refine ⟨hWithin.hours, ?_⟩
  intro other found userId hFound hPassed hUser
  rcases Dict.of_get?_set hFound with ⟨-, rfl⟩ | ⟨-, hOld⟩
  · exact hRoom hPassed userId hUser
  · exact hWithin.room other found userId hOld hPassed hUser

theorem Within.insert (hWithin : Within perHour state) (hGet : state.filings.get? id = some filing)
    (hPassed : filing.phase.hasPassed = true) (hAlone : Alone state (.insert id false)) :
    Within perHour ({ state with
      reports := ⟨filing.userId, filing.now⟩ :: state.reports }.setPhase id filing .over) := by
  constructor
  · intro userId start
    refine le_trans (List.countP_cons ..).le ?_
    split
    next hIn =>
      -- What this hour has is among what the check has counted.
      obtain ⟨hUser, hStart, hStop⟩ := of_decide_eq_true hIn
      change filing.now ≤ start + hour at hStop
      refine lt_of_le_of_lt (List.countP_mono_left ?_)
        (hWithin.room id filing userId hGet hPassed hUser)
      simp only [decide_eq_true_eq]
      rintro report - ⟨hOwn, hLater, -⟩
      exact ⟨hOwn, by omega⟩
    next => exact hWithin.hours userId start
  · intro other found userId hFound hOther hUser
    rcases Dict.of_get?_set hFound with ⟨-, rfl⟩ | ⟨hNe, hOld⟩
    · cases hOther
    · have hAway : filing.userId ≠ some userId := by
        intro hSame
        rcases hAlone filing hGet (other, found) (Dict.get?_eq_some_iff.mp hOld) hNe hOther with
          hNone | hUsers
        · rw [hSame] at hNone
          cases hNone
        · exact hUsers (hUser.trans hSame.symm)
      refine lt_of_eq_of_lt (List.countP_cons_of_neg ?_)
        (hWithin.room other found userId hOld hOther hUser)
      simp [hAway]

theorem Within.step {label : Label} {after : State} (hWithin : Within perHour state)
    (hStep : Guarded (Steps (step perHour)) Alone state label after) : Within perHour after := by
  obtain ⟨hStep, hAlone⟩ := hStep
  cases label with
  | start =>
    obtain ⟨-, rfl⟩ := of_guard hStep
    exact hWithin.setPhase nofun
  | check id =>
    obtain ⟨filing, hGet, hStep⟩ := Option.bind_eq_some_iff.mp hStep
    split at hStep
    · cases hStep
      refine hWithin.setPhase ?_
      intro hPassed userId hUser
      split at hPassed
      next hFew =>
        rw [State.checkRateLimit, hUser] at hFew
        exact lt_of_le_of_lt (Nat.le_add_right _ _) (of_decide_eq_true hFew)
      next => cases hPassed
    · cases hStep
  | insert id keyTaken =>
    obtain ⟨filing, hGet, hStep⟩ := Option.bind_eq_some_iff.mp hStep
    split at hStep
    next attempt hPhase =>
      cases keyTaken with cases hStep
      | true =>
        refine hWithin.setPhase ?_
        split <;> nofun
      | false => exact hWithin.insert hGet (by rw [hPhase]; rfl) hAlone
    next => cases hStep
  | refuse =>
    cases hStep
    exact { hWithin with }

end Steps

/-- If a row is only inserted while no other filing of its user has passed the check, no hour has
more reports of a user than the limit. -/
theorem filed_within_limit {perHour : ℕ} {labels : List Label} {state : State}
    (hRun : Run (Guarded (Steps (step perHour)) Alone) State.empty labels state) (userId : ℕ)
    (start : ℤ) :
    state.reportsInHour userId start ≤ perHour := by
  have hEmpty : Within perHour State.empty := ⟨fun _ _ => Nat.zero_le _, nofun⟩
  exact (hRun.invariant (Within perHour) (fun _ _ _ hWithin => hWithin.step) hEmpty).hours userId
    start

instance (state : State) : ∀ label, Decidable (Alone state label)
  | .insert id false => inferInstanceAs (Decidable (∀ own ∈ state.filings.get? id, _))
  | .insert _ true | .start .. | .check _ | .refuse .. => isTrue trivial

/-- Two filings, one after the other. -/
theorem filed_within_limit_in_turn :
    ∃ state : State, state.reportsInHour 7 0 = 2 ∧ state.reportsInHour 7 0 ≤ 2 := by
  have hExec : ∃ state ∈ exec (checked (step 2) Alone) State.empty [.start 0 (some 7) 0, .check 0,
      .insert 0 false, .start 1 (some 7) 1, .check 1, .insert 1 false],
      state.reportsInHour 7 0 = 2 := by decide +kernel
  obtain ⟨state, hRun, hTwo⟩ := hExec
  exact ⟨state, hTwo, filed_within_limit (Run.of_exec_checked hRun) 7 0⟩

/-- Two filings check before a row is inserted, and both pass: there are two reports where one is
allowed. -/
theorem last_place_taken_twice :
    ∃ state ∈ exec (step 1) State.empty [.start 0 (some 7) 0, .start 1 (some 7) 1, .check 0,
      .check 1, .insert 0 false, .insert 1 false], state.reportsInHour 7 0 = 2 := by
  decide +kernel

end TimelapseManager.Reports.RateLimit
