import TimelapseManager.Lib.KeyedRows
import TimelapseManager.Lib.Sessions

/-!
# User administration

`services/users.py`: disabling, deleting and demoting accounts, with the guard that keeps one
administrator who can sign in.  Each request runs in a session of its own (`Lib.Sessions`): the
target row and the count of administrators are read before the session's first write, which is when
SQLite serialises writers.

An account is modelled with the columns the guard reads; the target's sessions and the audit event
are left out.  A `DELETE` that matches no row is a warning of the ORM, an `UPDATE` that matches none
raises.
-/

namespace TimelapseManager.Services

open KeyedRows Runs Sessions

/-! ## Accounts -/

inductive Role
  | admin
  | operator
  | viewer
  deriving DecidableEq, Repr

/-- `_VALID_ROLES`. -/
def Role.ofText? : String → Option Role
  | "admin" => some .admin
  | "operator" => some .operator
  | "viewer" => some .viewer
  | _ => none

structure Account where
  id : ℕ
  role : Role
  passwordHash : Option String
  enabled : Bool
  deriving DecidableEq, Repr

/-- The rows `_enabled_admin_count` counts. -/
def Account.IsEnabledAdmin (account : Account) : Prop :=
  account.role = .admin ∧ account.passwordHash ≠ none ∧ account.enabled = true

instance (account : Account) : Decidable account.IsEnabledAdmin :=
  inferInstanceAs (Decidable (_ ∧ _ ∧ _))

/-- The `user` table. -/
abbrev UserTable := Rows Account.id

/-- What a request raises: an `AppError` with its text, or the ORM's stale row. -/
inductive UserError
  | notFound (message : String)
  | conflict (message : String)
  | validation (message : String) (field : String)
  | staleData
  deriving DecidableEq, Repr

/-- `_enabled_admin_count`. -/
def enabledAdminCount (table : UserTable) : ℕ :=
  table.rows.countP fun account => account.IsEnabledAdmin

/-- `UPDATE user SET ... WHERE id = ?`. -/
def updateUser (table : UserTable) (userId : ℕ) (change : Account → Account)
    (hId : ∀ account, (change account).id = account.id) : Except UserError UserTable :=
  match table.find? userId with
  | some _ => .ok (table.amend userId change hId)
  | none => .error .staleData

variable {table after : UserTable} {target : Account} {userId : ℕ} {value : Option Account}

theorem enabledAdminCount_pos :
    0 < enabledAdminCount table ↔ ∃ account ∈ table.rows, account.IsEnabledAdmin := by
  unfold enabledAdminCount
  rw [List.countP_pos_iff]
  simp only [decide_eq_true_eq]

theorem exists_other_of_two (hTwo : 1 < enabledAdminCount table) (userId : ℕ) :
    ∃ account ∈ table.rows, account.IsEnabledAdmin ∧ account.id ≠ userId := by
  by_contra hNone
  push Not at hNone
  have hIds : ∀ id ∈ (table.rows.filter fun account => account.IsEnabledAdmin).map Account.id,
      id = userId := by
    intro id hMem
    obtain ⟨account, hAccount, rfl⟩ := List.mem_map.mp hMem
    obtain ⟨hRow, hAdmin⟩ := List.mem_filter.mp hAccount
    exact hNone account hRow (of_decide_eq_true hAdmin)
  have hNodup : ((table.rows.filter fun account => account.IsEnabledAdmin).map Account.id).Nodup :=
    (List.filter_sublist.map Account.id).nodup table.nodup
  -- A list of copies of one id without repetition has at most one element.
  rw [List.eq_replicate_of_mem hIds, List.nodup_replicate, List.length_map] at hNodup
  unfold enabledAdminCount at hTwo
  rw [List.countP_eq_length_filter] at hTwo
  omega

/-! ## Requests -/

abbrev UserProgram := Program UserTable Empty UserError

/-- `_get_user_or_404`. -/
def getUserOr404 (userId : ℕ) : UserProgram Account := do
  match ← Program.ask fun table => table.find? userId with
  | none => .fail (.notFound "not found")
  | some target => pure target

/-- `_is_last_enabled_admin`. -/
def isLastEnabledAdmin (target : Account) : UserProgram Bool :=
  if target.IsEnabledAdmin then do
    let count ← Program.ask enabledAdminCount
    pure (count ≤ 1)
  else pure false

/-- The guard of `edit_user_role`: a change away from administrator is a demotion. -/
def isLastDemotion (target : Account) (role : Role) : UserProgram Bool :=
  if target.role = .admin ∧ role ≠ .admin then isLastEnabledAdmin target else pure false

/-- `edit_user_role`. -/
def editUserRole (userId : ℕ) (role : String) : UserProgram (Option Account) := do
  let target ← getUserOr404 userId
  match Role.ofText? role with
  | none => .fail (.validation "Invalid role." "role")
  | some role =>
    let isLast ← isLastDemotion target role
    if isLast then .fail (.conflict "Cannot demote the last remaining administrator.")
    else if role ≠ target.role then do
      Program.change fun table =>
        updateUser table userId (fun account => { account with role := role }) fun _ => rfl
      pure (some { target with role := role })
    else pure (some target)

/-- `disable_user`. -/
def disableUser (userId : ℕ) : UserProgram (Option Account) := do
  let target ← getUserOr404 userId
  let isLast ← isLastEnabledAdmin target
  if isLast then .fail (.conflict "Cannot disable the last remaining administrator.")
  else if target.enabled then do
    Program.change fun table =>
      updateUser table userId (fun account => { account with enabled := false }) fun _ => rfl
    pure (some { target with enabled := false })
  else pure (some target)

/-- `delete_user`. -/
def deleteUser (userId : ℕ) : UserProgram (Option Account) := do
  let target ← getUserOr404 userId
  let isLast ← isLastEnabledAdmin target
  if isLast then .fail (.conflict "Cannot remove the last remaining administrator.")
  else do
    Program.change fun table => .ok (table.erase userId)
    pure none

inductive UserRequest
  | editRole (userId : ℕ) (role : String)
  | disable (userId : ℕ)
  | delete (userId : ℕ)
  deriving DecidableEq, Repr

def serveUser : UserRequest → UserProgram (Option Account)
  | .editRole userId role => editUserRole userId role
  | .disable userId => disableUser userId
  | .delete userId => deleteUser userId

/-! ## A request alone -/

theorem getUserOr404_run (hRun : (getUserOr404 userId).run table = .ok (target, after)) :
    after = table ∧ target ∈ table.rows ∧ target.id = userId := by
  obtain ⟨found, between, hAsk, hRest⟩ := Program.run_bind.mp hRun
  cases hAsk
  dsimp only at hRest
  cases hGet : table.find? userId with rw [hGet] at hRest
  | none => cases hRest
  | some account =>
    cases hRest
    exact ⟨rfl, Rows.find?_eq_some_iff.mp hGet⟩

theorem exists_other_of_not_admin (hTarget : target ∈ table.rows)
    (hCount : 0 < enabledAdminCount table) (hNotAdmin : ¬target.IsEnabledAdmin) :
    ∃ account ∈ table.rows, account.IsEnabledAdmin ∧ account.id ≠ target.id := by
  obtain ⟨account, hMem, hAdmin⟩ := enabledAdminCount_pos.mp hCount
  refine ⟨account, hMem, hAdmin, ?_⟩
  intro hSame
  rw [table.eq_of_key_eq hMem hTarget hSame] at hAdmin
  exact hNotAdmin hAdmin

theorem isLastEnabledAdmin_run {isLast : Bool}
    (hRun : (isLastEnabledAdmin target).run table = .ok (isLast, after))
    (hTarget : target ∈ table.rows) (hCount : 0 < enabledAdminCount table)
    (hNotLast : isLast = false) :
    after = table ∧ ∃ account ∈ table.rows, account.IsEnabledAdmin ∧ account.id ≠ target.id := by
  unfold isLastEnabledAdmin at hRun
  split at hRun
  next =>
    obtain ⟨count, between, hAsk, hRest⟩ := Program.run_bind.mp hRun
    cases hAsk
    cases hRest
    have hTwo := of_decide_eq_false hNotLast
    exact ⟨rfl, exists_other_of_two (Nat.not_le.mp hTwo) target.id⟩
  next hNotAdmin =>
    cases hRun
    exact ⟨rfl, exists_other_of_not_admin hTarget hCount hNotAdmin⟩

theorem enabledAdminCount_of_update {change : Account → Account}
    {hId : ∀ account, (change account).id = account.id}
    (hUpdate : updateUser table userId change hId = .ok after)
    (hOther : ∃ account ∈ table.rows, account.IsEnabledAdmin ∧ account.id ≠ userId) :
    0 < enabledAdminCount after := by
  obtain ⟨account, hMem, hAdmin, hNe⟩ := hOther
  unfold updateUser at hUpdate
  split at hUpdate
  next =>
    cases hUpdate
    exact enabledAdminCount_pos.mpr ⟨account, Rows.mem_amend_of_ne hMem hNe, hAdmin⟩
  next => cases hUpdate

theorem disableUser_keeps_admin (hCount : 0 < enabledAdminCount table)
    (hRun : (disableUser userId).run table = .ok (value, after)) : 0 < enabledAdminCount after := by
  obtain ⟨target, _, hGet, hRest⟩ := Program.run_bind.mp hRun
  obtain ⟨rfl, hTarget, rfl⟩ := getUserOr404_run hGet
  obtain ⟨isLast, _, hLast, hBody⟩ := Program.run_bind.mp hRest
  split at hBody
  next => cases hBody
  next hNotLast =>
    obtain ⟨rfl, hOther⟩ := isLastEnabledAdmin_run hLast hTarget hCount (by simpa using hNotLast)
    split at hBody
    next =>
      obtain ⟨_, _, hChange, hDone⟩ := Program.run_bind.mp hBody
      cases hDone
      exact enabledAdminCount_of_update (Program.run_change hChange) hOther
    next =>
      cases hBody
      exact hCount

theorem deleteUser_keeps_admin (hCount : 0 < enabledAdminCount table)
    (hRun : (deleteUser userId).run table = .ok (value, after)) : 0 < enabledAdminCount after := by
  obtain ⟨target, _, hGet, hRest⟩ := Program.run_bind.mp hRun
  obtain ⟨rfl, hTarget, rfl⟩ := getUserOr404_run hGet
  obtain ⟨isLast, _, hLast, hBody⟩ := Program.run_bind.mp hRest
  split at hBody
  next => cases hBody
  next hNotLast =>
    obtain ⟨rfl, hOther⟩ := isLastEnabledAdmin_run hLast hTarget hCount (by simpa using hNotLast)
    obtain ⟨_, _, hChange, hDone⟩ := Program.run_bind.mp hBody
    cases hDone
    cases Program.run_change hChange
    obtain ⟨account, hMem, hAdmin, hNe⟩ := hOther
    exact enabledAdminCount_pos.mpr ⟨account, Rows.mem_erase_of_ne hMem hNe, hAdmin⟩

theorem isLastDemotion_run {role : Role} {isLast : Bool}
    (hRun : (isLastDemotion target role).run table = .ok (isLast, after))
    (hTarget : target ∈ table.rows) (hCount : 0 < enabledAdminCount table)
    (hNotLast : isLast = false) :
    after = table ∧ (role ≠ target.role →
      ∃ account ∈ table.rows, account.IsEnabledAdmin ∧ account.id ≠ target.id) := by
  unfold isLastDemotion at hRun
  split at hRun
  next =>
    obtain ⟨hAfter, hOther⟩ := isLastEnabledAdmin_run hRun hTarget hCount hNotLast
    exact ⟨hAfter, fun _ => hOther⟩
  next hKept =>
    cases hRun
    refine ⟨rfl, fun hChanged => exists_other_of_not_admin hTarget hCount ?_⟩
    rintro ⟨hAdmin, -⟩
    apply hKept
    rw [hAdmin] at hChanged
    exact ⟨hAdmin, hChanged⟩

theorem editUserRole_keeps_admin {role : String} (hCount : 0 < enabledAdminCount table)
    (hRun : (editUserRole userId role).run table = .ok (value, after)) :
    0 < enabledAdminCount after := by
  obtain ⟨target, _, hGet, hRest⟩ := Program.run_bind.mp hRun
  obtain ⟨rfl, hTarget, rfl⟩ := getUserOr404_run hGet
  split at hRest
  next => cases hRest
  next newRole _ =>
    obtain ⟨isLast, _, hLast, hBody⟩ := Program.run_bind.mp hRest
    split at hBody
    next => cases hBody
    next hNotLast =>
      obtain ⟨rfl, hOther⟩ := isLastDemotion_run hLast hTarget hCount (by simpa using hNotLast)
      split at hBody
      next hChanged =>
        obtain ⟨_, _, hChange, hDone⟩ := Program.run_bind.mp hBody
        cases hDone
        exact enabledAdminCount_of_update (Program.run_change hChange) (hOther hChanged)
      next =>
        cases hBody
        exact hCount

/-! ## Requests at the same time -/

/-- Along every interleaving in which a request starts to write while what it has read still
holds, an enabled administrator remains. -/
theorem enabled_admin_remains {first : UserTable} (hFirst : 0 < enabledAdminCount first)
    {labels : List (Label UserRequest)} {last : World UserTable Empty UserError (Option Account)}
    (hRun : Run (Guarded (SessionStep serveUser) ReadsCurrent) (.idle first) labels last) :
    0 < enabledAdminCount last.committed := by
  refine committed_of_serial (fun table => 0 < enabledAdminCount table) ?_ hFirst hRun
  intro request table value after hCount hServed
  cases request with
  | editRole => exact editUserRole_keeps_admin hCount hServed
  | disable userId => exact disableUser_keeps_admin hCount hServed
  | delete userId => exact deleteUser_keeps_admin hCount hServed

/-- Two administrators. -/
def twoAdmins : UserTable where
  rows := [⟨1, .admin, some "hash", true⟩, ⟨2, .admin, some "hash", true⟩]
  nodup := by decide

def disabledFirst : UserTable where
  rows := [⟨1, .admin, some "hash", false⟩, ⟨2, .admin, some "hash", true⟩]
  nodup := by decide

/-- Both are to be disabled at the same time.  The second request has found its account when the
first one commits; it counts one administrator then, and is refused. -/
theorem enabled_admin_remains_disabled :
    ∃ last, Run (Guarded (SessionStep serveUser) ReadsCurrent) (.idle twoAdmins)
        [.opens 1 (.disable 1), .opens 2 (.disable 2), .advance 1, .advance 2, .advance 1,
          .advance 1, .commit 1, .advance 2, .advance 2] last ∧
      last.committed = disabledFirst ∧ 0 < enabledAdminCount last.committed := by
  refine Run.exists_and ?_ fun _ hRun _ => enabled_admin_remains (by decide) hRun
  refine ⟨_, .cons ⟨rfl, nofun⟩ (.cons ⟨rfl, nofun⟩ (.cons ⟨rfl, ?_⟩ (.cons ⟨rfl, ?_⟩
    (.cons ⟨rfl, ?_⟩ (.cons ⟨rfl, ?_⟩ (.cons ⟨rfl, nofun⟩ (.cons ⟨rfl, ?_⟩ (.cons ⟨rfl, ?_⟩
      (.nil _))))))))), rfl⟩
  · exact readsCurrent_of_not_write rfl nofun
  · exact readsCurrent_of_not_write rfl nofun
  · exact readsCurrent_of_not_write rfl nofun
  · exact readsCurrent_advance rfl fun _ => ⟨⟨trivial, rfl⟩, rfl⟩
  · exact readsCurrent_of_not_write rfl nofun
  · exact readsCurrent_of_not_write rfl nofun

/-- Both requests count two administrators before either writes; each disables one. -/
theorem concurrent_disables_lock_out :
    ∃ last, Run (SessionStep serveUser) (.idle twoAdmins)
        [.opens 1 (.disable 1), .opens 2 (.disable 2), .advance 1, .advance 1, .advance 2,
          .advance 2, .advance 1, .commit 1, .advance 2, .commit 2] last ∧
      enabledAdminCount last.committed = 0 := by
  refine ⟨_, Run.cons rfl (Run.cons rfl (Run.cons rfl (Run.cons rfl (Run.cons rfl (Run.cons rfl
    (Run.cons rfl (Run.cons rfl (Run.cons rfl (Run.cons rfl (Run.nil _)))))))))), rfl⟩

end TimelapseManager.Services
