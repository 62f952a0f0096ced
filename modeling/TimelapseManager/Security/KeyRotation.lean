import TimelapseManager.Lib.Runs
import TimelapseManager.Security.Keystore

/-!
# Rotating the key, and starting after a rotation that did not finish

`secrets rotate` runs `KeyFileProvider.rotate` with the callback of `_rotate`; a start runs
`ensure_key_integrity`.  Each durable effect (the creation of a file, its write, the commit of a
transaction, a rename, an unlink) is a step of its own, and the process may crash or raise between
any two of them.  While a file is being written it may hold any part of what is written.  The
command refuses to run while the service answers, so one process acts at a time; between a start
and the next stop the service may store and remove secrets.

As long as nothing is raised between the callback's commit and the end of the `try` of `rotate`, no
ciphertext is ever without its key.  In the remaining case (`late_interrupt_loses_key`) the handler
discards the staged key although the database already depends on it.
-/

namespace TimelapseManager.Security

open Runs

variable {Key : Type}

/-! ## The processes -/

/-- Where the running process is. -/
inductive KeyPhase (Key : Type)
  | stopped
  /-- A start, after `recover_staged_key`. -/
  | checking
  /-- A start that has created the key file and is writing it. -/
  | minting
  /-- A start about to commit the fingerprint of the stored key. -/
  | recording
  | serving
  /-- `rotate` holds both ciphers; nothing is staged yet. -/
  | opened (old new : Key)
  /-- The staged file exists and is being written. -/
  | created (old new : Key)
  /-- Inside the `try`, before the callback's commit. -/
  | staged (old new : Key)
  /-- Inside the `try`, after the callback's commit. -/
  | committed (old new : Key)
  /-- Past the `try`. -/
  | returned (old new : Key)
  /-- In the handler, before `discard_staged_key`. -/
  | failed
  deriving DecidableEq

structure KeyState (Key : Type) where
  vault : Vault Key
  phase : KeyPhase Key
  deriving DecidableEq

/-- The durable steps, and the ways a process ends early. -/
inductive KeyStep (Key : Type)
  | start
  | check
  | mintPart (content : Option Key)
  | mint (key : Key)
  | record
  | save (column : SecretColumn) (plain : String)
  | forget (index : Nat)
  | stop
  | rotate (new : Key)
  | create
  | writePart (content : Option Key)
  | write
  | commit
  | leave
  | promote
  | discard
  /-- An exception or an interrupt reaches the process. -/
  | raised
  | crash
  deriving DecidableEq

variable (scheme : KeyScheme Key) (vault : Vault Key)

/-- The beginning of `_check_sync`: an interrupted rotation is dealt with first. -/
def beginStart : Option (KeyState Key) :=
  match vault.recorded with
  | none => some ⟨vault, .checking⟩
  | some recorded =>
    (recoverStagedKey scheme vault recorded).map fun after => ⟨after, .checking⟩

/-- The verdict of `_check_sync` and what it does first. -/
def finishCheck [DecidableEq Key] (scheme : KeyScheme Key) (vault : Vault Key) : KeyState Key :=
  match checkSync scheme vault with
  | .accept => ⟨vault, .serving⟩
  | .refuse _ => ⟨vault, .stopped⟩
  | .create => ⟨{ vault with keyFile := .blank }, .minting⟩
  | .record => ⟨vault, .recording⟩

/-- `_rerecord`, or the row `_record_first_time` adds, committed. -/
def recordKey : Vault Key :=
  { vault with recorded := some ((vault.fingerprint scheme).getD "") }

/-- The service encrypts a secret; it holds no cipher of a malformed key. -/
def saveSecret (column : SecretColumn) (plain : String) : Option (KeyState Key) :=
  match vault.keyFile.read with
  | none => none
  | some key =>
    if scheme.wellFormed key then
      let ciphertext : Ciphertext Key := ⟨column, key, plain⟩
      some ⟨{ vault with ciphertexts := ciphertext :: vault.ciphertexts }, .serving⟩
    else none

/-- `_rotate` up to and including the `get_cipher` of `rotate`.  Without a record it
reports an error and changes nothing. -/
def beginRotate (new : Key) : Option (KeyState Key) :=
  match vault.recorded with
  | none => some ⟨vault, .stopped⟩
  | some recorded =>
    (recoverStagedKey scheme vault recorded).map fun after =>
      match after.keyFile.read with
      | none => ⟨after, .stopped⟩
      | some old =>
        if scheme.fingerprint old = recorded ∧ scheme.wellFormed old = true then
          ⟨after, .opened old new⟩
        else ⟨after, .stopped⟩

/-- The exclusive creation in `_stage_key`.  A leftover is a `FileExistsError`, raised
before the `try`. -/
def createStaged (vault : Vault Key) (old new : Key) : KeyState Key :=
  match vault.nextFile with
  | .absent => ⟨{ vault with nextFile := .blank }, .created old new⟩
  | _ => ⟨vault, .stopped⟩

/-- The callback of `_rotate`: one transaction, or an exception that rolls it back. -/
def commitRotation [DecidableEq Key] (scheme : KeyScheme Key) (vault : Vault Key) (old new : Key) :
    KeyState Key :=
  match reencryptAll old new vault.ciphertexts, vault.nextFile.read, vault.recorded with
  | some ciphertexts, some staged, some _ =>
    ⟨{ vault with
        ciphertexts := ciphertexts
        recorded := some (scheme.fingerprint staged) }, .committed old new⟩
  | _, _, _ => ⟨vault, .failed⟩

/-- Where an exception takes the process: the `try` of `rotate` has a handler, everything
else ends. -/
def KeyPhase.afterRaise : KeyPhase Key → KeyPhase Key
  | .staged _ _ => .failed
  | .committed _ _ => .failed
  | _ => .stopped

/-- One step; `none` where the process is not at a point that takes it. -/
def keyStep [DecidableEq Key] (scheme : KeyScheme Key) (state : KeyState Key) (step : KeyStep Key) :
    Option (KeyState Key) :=
  match step, state.phase with
  | .start, .stopped => beginStart scheme state.vault
  | .check, .checking => some (finishCheck scheme state.vault)
  | .mintPart content, .minting =>
    some ⟨{ state.vault with keyFile := .written content }, .minting⟩
  | .mint key, .minting => some ⟨{ state.vault with keyFile := .holds key }, .recording⟩
  | .record, .recording => some ⟨recordKey scheme state.vault, .serving⟩
  | .save column plain, .serving => saveSecret scheme state.vault column plain
  | .forget index, .serving =>
    let kept := state.vault.ciphertexts.eraseIdx index
    some ⟨{ state.vault with ciphertexts := kept }, .serving⟩
  | .stop, .serving => some ⟨state.vault, .stopped⟩
  | .rotate new, .stopped => beginRotate scheme state.vault new
  | .create, .opened old new => some (createStaged state.vault old new)
  | .writePart content, .created old new =>
    some ⟨{ state.vault with nextFile := .written content }, .created old new⟩
  | .write, .created old new =>
    some ⟨{ state.vault with nextFile := .holds new }, .staged old new⟩
  | .commit, .staged old new => some (commitRotation scheme state.vault old new)
  | .leave, .committed old new => some ⟨state.vault, .returned old new⟩
  | .promote, .returned _ _ => state.vault.promoteStagedKey.map fun after => ⟨after, .stopped⟩
  | .discard, .failed => some ⟨state.vault.discardStagedKey, .stopped⟩
  | .raised, phase => some ⟨state.vault, phase.afterRaise⟩
  | .crash, _ => some ⟨state.vault, .stopped⟩
  | _, _ => none

/-- Runs of the command, of starts and of the service between them. -/
abbrev KeyRuns [DecidableEq Key] (scheme : KeyScheme Key) := Steps (keyStep scheme)

/-- Nothing is raised inside the `try` of `rotate` once the callback has committed. -/
def NoLateRaise (state : KeyState Key) (step : KeyStep Key) : Prop :=
  step = .raised → ∀ old new, state.phase ≠ .committed old new

/-- The file holds the key of the ciphertext. -/
def ReadableUnder [DecidableEq Key] (file : KeyFile Key) (ciphertext : Ciphertext Key) : Prop :=
  ∃ key, file.read = some key ∧ decryptsWith key ciphertext = true

/-! ## The invariant -/

section Invariant

variable {scheme : KeyScheme Key} {vault after : Vault Key}

/-- The key is stored, and it is the recorded one. -/
def KeyStored (scheme : KeyScheme Key) (vault : Vault Key) (key : Key) : Prop :=
  vault.keyFile.read = some key ∧ vault.recorded = some (scheme.fingerprint key)

/-- The key of the ciphertext is stored and not contradicted by the record, or it is
staged and recorded. -/
def Recoverable (scheme : KeyScheme Key) (vault : Vault Key) (ciphertext : Ciphertext Key) :
    Prop :=
  (vault.keyFile.read = some ciphertext.key ∧
    (vault.recorded = none ∨ vault.recorded = some (scheme.fingerprint ciphertext.key))) ∨
  (vault.nextFile.read = some ciphertext.key ∧
    vault.recorded = some (scheme.fingerprint ciphertext.key))

def AllRecoverable (scheme : KeyScheme Key) (vault : Vault Key) : Prop :=
  ∀ ciphertext ∈ vault.ciphertexts, Recoverable scheme vault ciphertext

variable {key new : Key} {state : KeyState Key}

theorem AllRecoverable.key_eq (hAll : AllRecoverable scheme vault)
    (hRecorded : vault.recorded = some (scheme.fingerprint key)) {ciphertext : Ciphertext Key}
    (hMem : ciphertext ∈ vault.ciphertexts) : ciphertext.key = key := by
  have hPrint : vault.recorded = some (scheme.fingerprint ciphertext.key) := by
    rcases hAll ciphertext hMem with ⟨-, hNone | hPrint⟩ | ⟨-, hPrint⟩
    · rw [hRecorded] at hNone
      cases hNone
    · exact hPrint
    · exact hPrint
  rw [hRecorded, Option.some_inj] at hPrint
  exact scheme.fingerprint_injective hPrint.symm

theorem AllRecoverable.of_key (hStored : vault.keyFile.read = some key)
    (hRecorded : vault.recorded = none ∨ vault.recorded = some (scheme.fingerprint key))
    (hKey : ∀ ciphertext ∈ vault.ciphertexts, ciphertext.key = key) :
    AllRecoverable scheme vault := by
  intro ciphertext hMem
  have hEq := hKey ciphertext hMem
  subst hEq
  exact Or.inl ⟨hStored, hRecorded⟩

theorem AllRecoverable.of_keyStored (hAll : AllRecoverable scheme vault)
    (hStored : KeyStored scheme vault key) (hAfter : KeyStored scheme after key)
    (hCiphertexts : ∀ ciphertext ∈ after.ciphertexts, ciphertext ∈ vault.ciphertexts) :
    AllRecoverable scheme after := by
  refine AllRecoverable.of_key hAfter.1 (Or.inr hAfter.2) ?_
  intro ciphertext hMem
  exact hAll.key_eq hStored.2 (hCiphertexts ciphertext hMem)

/-- What is known at each point of a process. -/
def PhaseInv (scheme : KeyScheme Key) (vault : Vault Key) : KeyPhase Key → Prop
  | .stopped => True
  | .checking => True
  | .minting => vault.ciphertexts = []
  | .recording =>
    ∃ key, vault.keyFile.read = some key ∧ ∀ ciphertext ∈ vault.ciphertexts, ciphertext.key = key
  | .serving => ∃ key, KeyStored scheme vault key
  | .opened old _ => KeyStored scheme vault old
  | .created old _ => KeyStored scheme vault old
  | .staged old new => KeyStored scheme vault old ∧ vault.nextFile.read = some new
  | .committed _ new =>
    vault.nextFile.read = some new ∧ vault.recorded = some (scheme.fingerprint new)
  | .returned _ new =>
    vault.nextFile.read = some new ∧ vault.recorded = some (scheme.fingerprint new)
  | .failed => ∃ key, KeyStored scheme vault key

/-- Every ciphertext has its key, and the process is where it believes to be. -/
structure KeyInv (scheme : KeyScheme Key) (state : KeyState Key) : Prop where
  recoverable : AllRecoverable scheme state.vault
  phase : PhaseInv scheme state.vault state.phase

section

variable (hAll : AllRecoverable scheme vault)
include hAll

theorem recoverStagedKey_recoverable {recorded : String}
    (hRecorded : vault.recorded = some recorded)
    (hRecover : recoverStagedKey scheme vault recorded = some after) :
    AllRecoverable scheme after := by
  obtain ⟨hSame, hCiphertexts, rfl | ⟨key, hRead, hPrint⟩⟩ := recoverStagedKey_spec hRecover
  · exact hAll
  · -- The recorded key has become, or stayed, the stored one.
    subst hPrint
    refine AllRecoverable.of_key hRead (Or.inr (hSame.trans hRecorded)) ?_
    intro ciphertext hMem
    rw [hCiphertexts] at hMem
    exact hAll.key_eq hRecorded hMem

theorem beginStart_inv (hStep : beginStart scheme vault = some state) : KeyInv scheme state := by
  unfold beginStart at hStep
  split at hStep
  · cases hStep
    exact ⟨hAll, trivial⟩
  next recorded hRecorded =>
    obtain ⟨recovered, hRecover, rfl⟩ := Option.map_eq_some_iff.mp hStep
    exact ⟨recoverStagedKey_recoverable hAll hRecorded hRecover, trivial⟩

theorem finishCheck_inv [DecidableEq Key] : KeyInv scheme (finishCheck scheme vault) := by
  have hSound := checkSync_sound scheme vault
  unfold finishCheck
  split
  next hVerdict =>
    rw [hVerdict] at hSound
    exact ⟨hAll, hSound⟩
  · exact ⟨hAll, trivial⟩
  next hVerdict =>
    rw [hVerdict] at hSound
    have hEmpty : vault.ciphertexts = [] := hSound
    exact ⟨by intro ciphertext hMem; simp [hEmpty] at hMem, hEmpty⟩
  next hVerdict =>
    rw [hVerdict] at hSound
    obtain ⟨⟨key, hRead⟩, hFirst⟩ := hSound
    refine ⟨hAll, key, hRead, ?_⟩
    intro ciphertext hMem
    rcases hFirst with hNone | hEmpty
    · -- Without a record, only the stored key can be the ciphertext's.
      rcases hAll ciphertext hMem with ⟨hStored, -⟩ | ⟨-, hSome⟩
      · exact Option.some_inj.mp (hStored.symm.trans hRead)
      · rw [hNone] at hSome
        cases hSome
    · simp [hEmpty] at hMem

theorem saveSecret_inv {column : SecretColumn} {plain : String}
    (hStored : KeyStored scheme vault key)
    (hStep : saveSecret scheme vault column plain = some state) : KeyInv scheme state := by
  unfold saveSecret at hStep
  rw [hStored.1] at hStep
  dsimp only at hStep
  split_ifs at hStep
  cases hStep
  refine ⟨AllRecoverable.of_key hStored.1 (Or.inr hStored.2) ?_, key, hStored⟩
  exact List.forall_mem_cons.mpr ⟨rfl, fun _ hMem => hAll.key_eq hStored.2 hMem⟩

theorem beginRotate_inv
    (hStep : beginRotate scheme vault new = some state) : KeyInv scheme state := by
  unfold beginRotate at hStep
  split at hStep
  · cases hStep
    exact ⟨hAll, trivial⟩
  next recorded hRecorded =>
    obtain ⟨recovered, hRecover, hState⟩ := Option.map_eq_some_iff.mp hStep
    have hRecovered := recoverStagedKey_recoverable hAll hRecorded hRecover
    split at hState
    · subst hState
      exact ⟨hRecovered, trivial⟩
    next old hOld =>
      split_ifs at hState with hMatches
      · subst hState
        have hSame := (recoverStagedKey_spec hRecover).1
        refine ⟨hRecovered, hOld, ?_⟩
        rw [hSame, hRecorded, hMatches.1]
      · subst hState
        exact ⟨hRecovered, trivial⟩

theorem commitRotation_inv [DecidableEq Key] {old : Key}
    (hStored : KeyStored scheme vault old) (hStaged : vault.nextFile.read = some new) :
    KeyInv scheme (commitRotation scheme vault old new) := by
  unfold commitRotation
  split
  next ciphertexts staged recorded hRewritten hRead _ =>
    have hSame : staged = new := Option.some_inj.mp (hRead.symm.trans hStaged)
    subst hSame
    refine ⟨?_, hStaged, rfl⟩
    intro ciphertext hMem
    have hKey := reencryptAll_key hRewritten ciphertext hMem
    subst hKey
    exact Or.inr ⟨hStaged, rfl⟩
  · exact ⟨hAll, old, hStored⟩

end

theorem allRecoverable_of_empty (hEmpty : vault.ciphertexts = []) :
    AllRecoverable scheme vault := by
  intro ciphertext hMem
  rw [hEmpty] at hMem
  cases hMem

theorem mint_inv {key : Key} (hEmpty : vault.ciphertexts = []) :
    KeyInv scheme ⟨{ vault with keyFile := .holds key }, .recording⟩ := by
  refine ⟨allRecoverable_of_empty hEmpty, key, rfl, ?_⟩
  intro ciphertext hMem
  rw [hEmpty] at hMem
  cases hMem

theorem recordKey_inv (hPhase : PhaseInv scheme vault .recording) :
    KeyInv scheme ⟨recordKey scheme vault, .serving⟩ := by
  obtain ⟨key, hRead, hKey⟩ := hPhase
  have hStored : KeyStored scheme (recordKey scheme vault) key := by
    refine ⟨hRead, ?_⟩
    simp [recordKey, Vault.fingerprint, hRead]
  exact ⟨AllRecoverable.of_key hStored.1 (Or.inr hStored.2) hKey, key, hStored⟩

theorem createStaged_inv {old : Key} (hAll : AllRecoverable scheme vault)
    (hStored : KeyStored scheme vault old) : KeyInv scheme (createStaged vault old new) := by
  unfold createStaged
  split
  · exact ⟨hAll.of_keyStored hStored hStored fun _ hMem => hMem, hStored⟩
  · exact ⟨hAll, trivial⟩

/-- The staged key takes the place of the stored one; the record names it already. -/
theorem promote_inv {old : Key} (hAll : AllRecoverable scheme vault)
    (hPhase : PhaseInv scheme vault (.returned old new))
    (hPromoted : vault.promoteStagedKey = some after) : KeyInv scheme ⟨after, .stopped⟩ := by
  obtain ⟨hStaged, hRecorded⟩ := hPhase
  obtain ⟨hRead, hSame, hCiphertexts⟩ := Vault.promoteStagedKey_read hStaged hPromoted
  refine ⟨AllRecoverable.of_key hRead (Or.inr (hSame.trans hRecorded)) ?_, trivial⟩
  intro ciphertext hMem
  rw [hCiphertexts] at hMem
  exact hAll.key_eq hRecorded hMem

/-- Where an exception leads.  After the commit the handler would discard the recorded key. -/
theorem raised_inv {phase : KeyPhase Key} (hInv : KeyInv scheme ⟨vault, phase⟩)
    (hGood : ∀ old new, phase ≠ .committed old new) : KeyInv scheme ⟨vault, phase.afterRaise⟩ := by
  refine ⟨hInv.recoverable, ?_⟩
  cases phase with
  | staged old new => exact ⟨old, hInv.phase.1⟩
  | committed old new => exact absurd rfl (hGood old new)
  | _ => exact trivial

/-- Each label belongs to one phase; the two ways to end early belong to all. -/
theorem keyInv_step [DecidableEq Key] {next : KeyState Key} {step : KeyStep Key}
    (hInv : KeyInv scheme state) (hGood : NoLateRaise state step)
    (hStep : keyStep scheme state step = some next) : KeyInv scheme next := by
  obtain ⟨vault, phase⟩ := state
  have ⟨hAll, hPhase⟩ := hInv
  unfold keyStep at hStep
  dsimp only at hPhase hStep
  split at hStep
  case h_1 => exact beginStart_inv hAll hStep
  case h_6 =>
    obtain ⟨key, hStored⟩ := hPhase
    exact saveSecret_inv hAll hStored hStep
  case h_9 => exact beginRotate_inv hAll hStep
  case h_15 =>
    obtain ⟨promoted, hPromoted, rfl⟩ := Option.map_eq_some_iff.mp hStep
    exact promote_inv hAll hPhase hPromoted
  all_goals cases hStep
  case h_2 => exact finishCheck_inv hAll
  case h_3 => exact ⟨allRecoverable_of_empty hPhase, hPhase⟩
  case h_4 => exact mint_inv hPhase
  case h_5 => exact recordKey_inv hPhase
  case h_7 =>
    obtain ⟨key, hStored⟩ := hPhase
    exact ⟨hAll.of_keyStored hStored hStored fun _ hMem => List.mem_of_mem_eraseIdx hMem,
      key, hStored⟩
  case h_8 | h_18 => exact ⟨hAll, trivial⟩
  case h_10 => exact createStaged_inv hAll hPhase
  case h_11 => exact ⟨hAll.of_keyStored hPhase hPhase fun _ hMem => hMem, hPhase⟩
  case h_12 => exact ⟨hAll.of_keyStored hPhase hPhase fun _ hMem => hMem, hPhase, rfl⟩
  case h_13 => exact commitRotation_inv hAll hPhase.1 hPhase.2
  case h_14 => exact ⟨hAll, hPhase⟩
  case h_16 =>
    obtain ⟨key, hStored⟩ := hPhase
    exact ⟨hAll.of_keyStored hStored hStored fun _ hMem => hMem, trivial⟩
  case h_17 => exact raised_inv hInv (hGood rfl)

end Invariant

/-! ## No ciphertext without its key -/

theorem AllRecoverable.readable [DecidableEq Key] {scheme : KeyScheme Key} {vault : Vault Key}
    (hAll : AllRecoverable scheme vault) {ciphertext : Ciphertext Key}
    (hMem : ciphertext ∈ vault.ciphertexts) :
    ReadableUnder vault.keyFile ciphertext ∨ ReadableUnder vault.nextFile ciphertext := by
  rcases hAll ciphertext hMem with ⟨hStored, -⟩ | ⟨hStaged, -⟩
  · exact Or.inl ⟨ciphertext.key, hStored, decryptsWith_eq_true.mpr rfl⟩
  · exact Or.inr ⟨ciphertext.key, hStaged, decryptsWith_eq_true.mpr rfl⟩

/-- Start from a stopped service whose stored key decrypts every ciphertext and is the
recorded one, if one is recorded.  Let rotations, starts and the service run in any
order, crash anywhere and raise anywhere but between the callback's commit and the end
of the `try` of `rotate`.  Then every ciphertext decrypts under the stored or the staged
key, and under the stored key whenever a start has succeeded. -/
theorem rotation_keeps_ciphertexts_readable [DecidableEq Key] (scheme : KeyScheme Key)
    {first last : KeyState Key} {steps : List (KeyStep Key)} (hStopped : first.phase = .stopped)
    (hReadable : ∀ ciphertext ∈ first.vault.ciphertexts,
      ReadableUnder first.vault.keyFile ciphertext)
    (hRecorded : ∀ key, first.vault.keyFile.read = some key →
      first.vault.recorded = none ∨ first.vault.recorded = some (scheme.fingerprint key))
    (hRun : Run (Guarded (KeyRuns scheme) NoLateRaise) first steps last) :
    (∀ ciphertext ∈ last.vault.ciphertexts,
      ReadableUnder last.vault.keyFile ciphertext ∨ ReadableUnder last.vault.nextFile ciphertext) ∧
      (last.phase = .serving → ∀ ciphertext ∈ last.vault.ciphertexts,
        ReadableUnder last.vault.keyFile ciphertext) := by
  have hFirst : KeyInv scheme first := by
    refine ⟨?_, by rw [hStopped]; exact trivial⟩
    intro ciphertext hMem
    obtain ⟨key, hRead, hKey⟩ := hReadable ciphertext hMem
    have hSame : ciphertext.key = key := decryptsWith_eq_true.mp hKey
    subst hSame
    exact Or.inl ⟨hRead, hRecorded ciphertext.key hRead⟩
  have hLast : KeyInv scheme last :=
    hRun.invariant (KeyInv scheme) (fun _ _ _ hInv hStep => keyInv_step hInv hStep.2 hStep.1) hFirst
  constructor
  · intro ciphertext hMem
    exact hLast.recoverable.readable hMem
  · intro hServing ciphertext hMem
    have hPhase := hLast.phase
    rw [hServing] at hPhase
    obtain ⟨key, hStored⟩ := hPhase
    exact ⟨key, hStored.1, decryptsWith_eq_true.mpr (hLast.recoverable.key_eq hStored.2 hMem)⟩

/-- Keys that are their own fingerprints, for runs on given keys. -/
def plainScheme : KeyScheme String where
  fingerprint := id
  fingerprint_injective := Function.injective_id
  wellFormed := fun _ => true

def smtpPassword (key : String) : Ciphertext String :=
  ⟨.smtpPassword, key, "hunter2"⟩

/-- One SMTP password under `key`, which is recorded; `stored` is in the key file and
nothing is staged. -/
def smtpVault (key stored : String) : Vault String where
  keyFile := .holds stored
  nextFile := .absent
  recorded := some key
  ciphertexts := [smtpPassword key]

/-- The machine goes down after the commit and before the rename; the next start
finishes the rotation. -/
theorem rotation_keeps_ciphertexts_readable_crashed :
    ReadableUnder (smtpVault "new" "new").keyFile (smtpPassword "new") := by
  have hRun : Run (Guarded (KeyRuns plainScheme) NoLateRaise)
      ⟨smtpVault "old" "old", .stopped⟩
      [.rotate "new", .create, .writePart (some "ne"), .write, .commit, .leave, .crash,
        .start, .check]
      ⟨smtpVault "new" "new", .serving⟩ := by
    apply Run.of_exec
    · intro step hMem state hRaised
      subst hRaised
      simp at hMem
    · decide
  have hFirst : ∀ ciphertext ∈ (smtpVault "old" "old").ciphertexts,
      ReadableUnder (smtpVault "old" "old").keyFile ciphertext := by
    intro ciphertext hMem
    cases List.mem_singleton.mp hMem
    exact ⟨"old", rfl, rfl⟩
  have hRecorded : ∀ key, (smtpVault "old" "old").keyFile.read = some key →
      (smtpVault "old" "old").recorded = none ∨
        (smtpVault "old" "old").recorded = some (plainScheme.fingerprint key) := by
    intro key hKey
    exact Or.inr hKey
  exact (rotation_keeps_ciphertexts_readable plainScheme rfl hFirst hRecorded hRun).2 rfl
    (smtpPassword "new") List.mem_cons_self

/-- An interrupt that arrives after the callback's commit runs the handler of `rotate`,
which discards the only copy of the key the database now depends on. -/
theorem late_interrupt_loses_key :
    exec (keyStep plainScheme) ⟨smtpVault "old" "old", .stopped⟩
        [.rotate "new", .create, .write, .commit, .raised, .discard] =
      some ⟨smtpVault "new" "old", .stopped⟩ ∧
    ¬ReadableUnder (smtpVault "new" "old").keyFile (smtpPassword "new") ∧
    ¬ReadableUnder (smtpVault "new" "old").nextFile (smtpPassword "new") := by
  refine ⟨by decide, ?_, ?_⟩
  · rintro ⟨key, hRead, hKey⟩
    cases hRead
    exact absurd hKey (by decide)
  · rintro ⟨key, hRead, -⟩
    cases hRead

/-! ## The staged file after a crash -/

/-- The label belongs to the process that runs. -/
def SameProcess (_ : KeyState Key) (step : KeyStep Key) : Prop :=
  match step with
  | .start | .rotate _ => False
  | _ => True

/-- What holds of the files in `rotate` and after it: the recorded key is the stored one, or
the staged one once that is written, or nothing is staged. -/
def Rotating (scheme : KeyScheme Key) (state : KeyState Key) : Prop :=
  let stored := state.vault.fingerprint scheme = state.vault.recorded
  state.vault.recorded ≠ none ∧
    match state.phase with
    | .opened _ _ | .created _ _ => stored
    | .staged _ _ | .committed _ _ | .returned _ _ | .failed | .stopped =>
      stored ∨ state.vault.nextFile.read.map scheme.fingerprint = state.vault.recorded ∨
        state.vault.nextFile = .absent
    | _ => False

/-- The staged file is as it was, and no rotation runs. -/
def StagedKept (file : KeyFile Key) (state : KeyState Key) : Prop :=
  state.vault.nextFile = file ∧
    match state.phase with
    | .stopped | .checking | .minting | .recording | .serving => True
    | _ => False

section Restart

variable {scheme : KeyScheme Key} {vault after : Vault Key} {state next : KeyState Key}
  {label : KeyStep Key}

theorem promoteStagedKey_spec (hPromoted : vault.promoteStagedKey = some after) :
    after.nextFile = .absent ∧ after.recorded = vault.recorded := by
  unfold Vault.promoteStagedKey at hPromoted
  split at hPromoted
  · cases hPromoted
  · cases hPromoted
    exact ⟨rfl, rfl⟩

theorem Rotating.step [DecidableEq Key] (hRotating : Rotating scheme state)
    (hSame : SameProcess state label) (hStep : keyStep scheme state label = some next) :
    Rotating scheme next := by
  obtain ⟨vault, phase⟩ := state
  unfold keyStep at hStep
  split at hStep <;>
    grind [Rotating, SameProcess, createStaged, commitRotation, KeyPhase.afterRaise,
      Vault.discardStagedKey, Vault.fingerprint, Option.map_eq_some_iff,
      promoteStagedKey_spec]

theorem StagedKept.step [DecidableEq Key] {file : KeyFile Key} (hKept : StagedKept file state)
    (hSame : SameProcess state label) (hStep : keyStep scheme state label = some next) :
    StagedKept file next := by
  obtain ⟨vault, phase⟩ := state
  unfold keyStep at hStep
  split at hStep <;>
    grind [StagedKept, SameProcess, finishCheck, recordKey, saveSecret, KeyPhase.afterRaise]

theorem beginRotate_rotating {old new : Key}
    (hStep : beginRotate scheme vault new = some ⟨after, .opened old new⟩) :
    Rotating scheme ⟨after, .opened old new⟩ := by
  unfold beginRotate at hStep
  split at hStep
  · cases hStep
  next recorded hRecorded =>
    obtain ⟨recovered, hRecover, hState⟩ := Option.map_eq_some_iff.mp hStep
    have hSpec := recoverStagedKey_spec hRecover
    grind [Rotating, Vault.fingerprint]

end Restart

/-- A rotation ends anywhere, and a later start goes through.  The start has left no
staged file, and the next rotation can create its own, exactly if the file was not
created and left blank. -/
theorem restart_clears_staged_file [DecidableEq Key] (scheme : KeyScheme Key)
    {first vault crashed after : Vault Key} {old new : Key} {started : KeyState Key}
    {rotation start : List (KeyStep Key)}
    (hOpened : keyStep scheme ⟨first, .stopped⟩ (.rotate new) = some ⟨vault, .opened old new⟩)
    (hCrash : Run (Guarded (KeyRuns scheme) SameProcess) ⟨vault, .opened old new⟩ rotation
      ⟨crashed, .stopped⟩)
    (hStart : keyStep scheme ⟨crashed, .stopped⟩ .start = some started)
    (hServes : Run (Guarded (KeyRuns scheme) SameProcess) started start ⟨after, .serving⟩) :
    (after.nextFile = .absent ↔ crashed.nextFile ≠ .blank) ∧
      ∀ old new, (createStaged after old new).phase = .created old new ↔
        crashed.nextFile ≠ .blank := by
  have hRotating : Rotating scheme ⟨crashed, .stopped⟩ :=
    hCrash.invariant (Rotating scheme) (fun _ _ _ hInv hStep => hInv.step hStep.2 hStep.1)
      (beginRotate_rotating hOpened)
  have hStarted : StagedKept started.vault.nextFile started ∧
      (started.vault.nextFile = .absent ↔ crashed.nextFile ≠ .blank) := by
    simp only [keyStep, beginStart] at hStart
    split at hStart
    next hNone => exact absurd hNone hRotating.1
    next recorded hRecorded =>
      obtain ⟨recovered, hRecover, rfl⟩ := Option.map_eq_some_iff.mp hStart
      refine ⟨⟨rfl, trivial⟩, ?_⟩
      unfold recoverStagedKey at hRecover
      cases hFile : crashed.nextFile <;>
        grind [Rotating, KeyFile.read, Vault.discardStagedKey, promoteStagedKey_spec]
  have hKept := hServes.invariant (StagedKept started.vault.nextFile)
    (fun _ _ _ hInv hStep => hInv.step hStep.2 hStep.1) hStarted.1
  have hAbsent := hStarted.2
  rw [← hKept.1] at hAbsent
  refine ⟨hAbsent, fun old new => ?_⟩
  rw [← hAbsent]
  unfold createStaged
  cases after.nextFile <;> simp

/-- The power goes while the staged file is written. -/
theorem restart_clears_staged_file_partial :
    (createStaged (smtpVault "old" "old") "old" "newer").phase = .created "old" "newer" := by
  have hOpened : keyStep plainScheme ⟨smtpVault "old" "old", .stopped⟩ (.rotate "new") =
      some ⟨smtpVault "old" "old", .opened "old" "new"⟩ := by decide
  have hCrash : Run (Guarded (KeyRuns plainScheme) SameProcess)
      ⟨smtpVault "old" "old", .opened "old" "new"⟩ [.create, .writePart (some "ne"), .crash]
      ⟨{ smtpVault "old" "old" with nextFile := .holds "ne" }, .stopped⟩ :=
    .cons ⟨rfl, trivial⟩ (.cons ⟨rfl, trivial⟩ (.cons ⟨rfl, trivial⟩ (.nil _)))
  have hServes : Run (Guarded (KeyRuns plainScheme) SameProcess)
      ⟨smtpVault "old" "old", .checking⟩ [.check] ⟨smtpVault "old" "old", .serving⟩ :=
    .cons ⟨show keyStep plainScheme _ _ = _ by decide, trivial⟩ (.nil _)
  have hBoth := restart_clears_staged_file plainScheme hOpened hCrash (by decide) hServes
  exact (hBoth.2 "old" "newer").mpr nofun

/-- The power goes between the creation of the staged file and its write: it stays blank
through the next start, and the next rotation is refused. -/
theorem blank_staged_file_blocks_rotation :
    exec (keyStep plainScheme) ⟨smtpVault "old" "old", .stopped⟩
        [.rotate "new", .create, .crash, .start, .check, .stop, .rotate "newer", .create] =
      some ⟨{ smtpVault "old" "old" with nextFile := .blank }, .stopped⟩ := by
  decide

end TimelapseManager.Security
