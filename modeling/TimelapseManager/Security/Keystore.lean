import Mathlib.Data.List.Basic

/-!
# The key file, its staged successor and the key check at start

What `KeyFileProvider` keeps on disk, what `secrets_meta` records about it, and the functions of
`key_integrity.py` that compare the two.  Encryption is ideal: a ciphertext remembers the key it was
made with, and no other key decrypts it.  Only the file provider is here.  A file may be absent, or
present and blank: it is created before it is written, and a blank one reads as absent but still
blocks an exclusive creation.
-/

namespace TimelapseManager.Security

variable {Key : Type}

/-! ## Keys and ciphertexts -/

/-- What is used of a key: its `key_fingerprint`, which tells keys apart, and whether
`Fernet` accepts it. -/
structure KeyScheme (Key : Type) where
  fingerprint : Key → String
  fingerprint_injective : Function.Injective fingerprint
  wellFormed : Key → Bool

/-- `SECRET_COLUMNS`. -/
inductive SecretColumn
  | cameraCredentials
  | defaultCameraCredentials
  | ldapBindPassword
  | smtpPassword
  | webhookSigningSecret
  deriving DecidableEq, Repr

def secretColumns : List SecretColumn :=
  [.cameraCredentials, .defaultCameraCredentials, .ldapBindPassword, .smtpPassword,
    .webhookSigningSecret]

theorem mem_secretColumns (column : SecretColumn) : column ∈ secretColumns := by
  cases column <;> decide

/-- One stored `enc:v1:` value. -/
structure Ciphertext (Key : Type) where
  column : SecretColumn
  key : Key
  plain : String
  deriving DecidableEq

/-- `Fernet.decrypt`; `none` is `InvalidToken`. -/
def Ciphertext.decrypt [DecidableEq Key] (key : Key) (ciphertext : Ciphertext Key) :
    Option String :=
  if ciphertext.key = key then some ciphertext.plain else none

/-- `decrypts_with`. -/
def decryptsWith [DecidableEq Key] (key : Key) (ciphertext : Ciphertext Key) : Bool :=
  (ciphertext.decrypt key).isSome

@[simp] theorem decryptsWith_eq_true [DecidableEq Key] {key : Key} {ciphertext : Ciphertext Key} :
    decryptsWith key ciphertext = true ↔ ciphertext.key = key := by
  unfold decryptsWith Ciphertext.decrypt
  split <;> simp_all

/-- `sample_ciphertexts`: the first value of each column that has one. -/
def sampleCiphertexts (ciphertexts : List (Ciphertext Key)) : List (Ciphertext Key) :=
  secretColumns.filterMap fun column =>
    ciphertexts.find? fun ciphertext => ciphertext.column = column

/-- `has_ciphertext`. -/
def hasCiphertext (ciphertexts : List (Ciphertext Key)) : Bool :=
  !(sampleCiphertexts ciphertexts).isEmpty

theorem hasCiphertext_eq_false {ciphertexts : List (Ciphertext Key)}
    (hNone : hasCiphertext ciphertexts = false) : ciphertexts = [] := by
  cases ciphertexts with
  | nil => rfl
  | cons ciphertext rest =>
    exfalso
    have hEmpty : sampleCiphertexts (ciphertext :: rest) = [] := by
      simpa [hasCiphertext] using hNone
    -- The column of the first ciphertext cannot come out empty.
    have hColumn := List.filterMap_eq_nil_iff.mp hEmpty ciphertext.column
      (mem_secretColumns ciphertext.column)
    rw [List.find?_eq_none] at hColumn
    have hNot := hColumn ciphertext List.mem_cons_self
    simp at hNot

/-- `reencrypt_all`; `none` is the `InvalidToken` of a value `old` cannot decrypt. -/
def reencryptAll [DecidableEq Key] (old new : Key) (ciphertexts : List (Ciphertext Key)) :
    Option (List (Ciphertext Key)) :=
  ciphertexts.mapM fun ciphertext =>
    (ciphertext.decrypt old).map fun plain => ⟨ciphertext.column, new, plain⟩

theorem reencryptAll_key [DecidableEq Key] {old new : Key}
    {ciphertexts rewritten : List (Ciphertext Key)}
    (hRewritten : reencryptAll old new ciphertexts = some rewritten) :
    ∀ ciphertext ∈ rewritten, ciphertext.key = new := by
  unfold reencryptAll at hRewritten
  induction ciphertexts generalizing rewritten with
  | nil =>
    have hNil : rewritten = [] := by simpa using hRewritten.symm
    simp [hNil]
  | cons first rest ih =>
    rw [List.mapM_cons] at hRewritten
    obtain ⟨head, hHead, hRewritten⟩ := Option.bind_eq_some_iff.mp hRewritten
    obtain ⟨tail, hTail, hRewritten⟩ := Option.bind_eq_some_iff.mp hRewritten
    obtain ⟨plain, -, hHead⟩ := Option.map_eq_some_iff.mp hHead
    cases hRewritten
    intro ciphertext hMem
    cases hMem with
    | head => rw [← hHead]
    | tail _ hMem => exact ih hTail ciphertext hMem

/-! ## Files -/

/-- A key file. -/
inductive KeyFile (Key : Type)
  | absent
  | blank
  | holds (content : Key)
  deriving DecidableEq

/-- `_read_file`: a blank file counts as absent. -/
def KeyFile.read : KeyFile Key → Option Key
  | .absent => none
  | .blank => none
  | .holds content => some content

/-- A file that exists and whose write is under way. -/
def KeyFile.written : Option Key → KeyFile Key
  | none => .blank
  | some content => .holds content

/-- The key file, `<key file>.next`, the fingerprint in the `secrets_meta` row and the
ciphertext columns. -/
structure Vault (Key : Type) where
  keyFile : KeyFile Key
  nextFile : KeyFile Key
  recorded : Option String
  ciphertexts : List (Ciphertext Key)
  deriving DecidableEq

/-- `fingerprint` of the provider. -/
def Vault.fingerprint (scheme : KeyScheme Key) (vault : Vault Key) : Option String :=
  vault.keyFile.read.map scheme.fingerprint

/-- `promote_staged_key`; `none` is the `FileNotFoundError` of `os.replace`. -/
def Vault.promoteStagedKey (vault : Vault Key) : Option (Vault Key) :=
  match vault.nextFile with
  | .absent => none
  | file => some { vault with keyFile := file, nextFile := .absent }

/-- `discard_staged_key`. -/
def Vault.discardStagedKey (vault : Vault Key) : Vault Key :=
  { vault with nextFile := .absent }

variable {vault : Vault Key}

theorem Vault.promoteStagedKey_read {after : Vault Key} {staged : Key}
    (hStaged : vault.nextFile.read = some staged)
    (hPromoted : vault.promoteStagedKey = some after) :
    after.keyFile.read = some staged ∧ after.recorded = vault.recorded ∧
      after.ciphertexts = vault.ciphertexts := by
  unfold Vault.promoteStagedKey at hPromoted
  split at hPromoted
  · cases hPromoted
  · cases hPromoted
    exact ⟨hStaged, rfl, rfl⟩

/-! ## Recovery -/

/-- `recover_staged_key`. -/
def recoverStagedKey (scheme : KeyScheme Key) (vault : Vault Key) (recorded : String) :
    Option (Vault Key) :=
  match vault.nextFile.read with
  | none => some vault
  | some staged =>
    if scheme.fingerprint staged = recorded then vault.promoteStagedKey
    else if vault.fingerprint scheme = some recorded then some vault.discardStagedKey
    -- Neither key is the recorded one: the staged key is left for the operator.
    else some vault

theorem recoverStagedKey_spec {scheme : KeyScheme Key} {after : Vault Key} {recorded : String}
    (hRecover : recoverStagedKey scheme vault recorded = some after) :
    after.recorded = vault.recorded ∧ after.ciphertexts = vault.ciphertexts ∧
      (after = vault ∨
        ∃ key, after.keyFile.read = some key ∧ scheme.fingerprint key = recorded) := by
  unfold recoverStagedKey at hRecover
  split at hRecover
  · cases hRecover
    exact ⟨rfl, rfl, Or.inl rfl⟩
  next staged hStaged =>
    split_ifs at hRecover with hMatches hStored
    · obtain ⟨hRead, hRecorded, hCiphertexts⟩ := Vault.promoteStagedKey_read hStaged hRecover
      exact ⟨hRecorded, hCiphertexts, Or.inr ⟨staged, hRead, hMatches⟩⟩
    · cases hRecover
      obtain ⟨key, hRead, hPrint⟩ := Option.map_eq_some_iff.mp hStored
      exact ⟨rfl, rfl, Or.inr ⟨key, hRead, hPrint⟩⟩
    · cases hRecover
      exact ⟨rfl, rfl, Or.inl rfl⟩

/-! ## The check at start -/

/-- Why a start is refused. -/
inductive KeyFault
  | missing (expected : Option String)
  | undecryptable
  | notRecorded (found expected : String)
  /-- `Fernet` or the file system refuses the key; `problem` is the exception's text. -/
  | unloadable (problem : String)
  deriving DecidableEq, Repr

/-- How a start goes on. -/
inductive StartVerdict
  /-- The loaded key is the recorded one. -/
  | accept
  | refuse (fault : KeyFault)
  /-- No key and nothing encrypted: `_create_key`, then record it. -/
  | create
  /-- Record the fingerprint of the stored key. -/
  | record
  deriving DecidableEq, Repr

/-- `get_cipher` of a start that will then record the key. -/
def loadOrCreate (scheme : KeyScheme Key) (vault : Vault Key) : StartVerdict :=
  match vault.keyFile with
  | .holds key =>
    if scheme.wellFormed key then .record
    else .refuse (.unloadable "Fernet key must be 32 url-safe base64-encoded bytes.")
  -- The exclusive creation fails, and nobody writes the key the loser waits for.
  | .blank => .refuse (.unloadable "File exists")
  | .absent => .create

/-- `_record_first_time`. -/
def recordFirstTime [DecidableEq Key] (scheme : KeyScheme Key) (vault : Vault Key) : StartVerdict :=
  if hasCiphertext vault.ciphertexts then
    match vault.keyFile.read with
    | none => .refuse (.missing none)
    | some key =>
      if scheme.wellFormed key = false then
        .refuse (.unloadable "Fernet key must be 32 url-safe base64-encoded bytes.")
      else if (sampleCiphertexts vault.ciphertexts).all (decryptsWith key) then .record
      else .refuse .undecryptable
  else loadOrCreate scheme vault

/-- `_verify_recorded`, once `recover_staged_key` has run. -/
def verifyRecorded (scheme : KeyScheme Key) (vault : Vault Key) (recorded : String) :
    StartVerdict :=
  match vault.keyFile.read with
  | none =>
    if hasCiphertext vault.ciphertexts then .refuse (.missing (some recorded))
    else loadOrCreate scheme vault
  | some key =>
    if scheme.fingerprint key = recorded then .accept
    else if hasCiphertext vault.ciphertexts then
      .refuse (.notRecorded (scheme.fingerprint key) recorded)
    else .record

/-- `_check_sync`, once the staged key has been dealt with. -/
def checkSync [DecidableEq Key] (scheme : KeyScheme Key) (vault : Vault Key) : StartVerdict :=
  match vault.recorded with
  | none => recordFirstTime scheme vault
  | some recorded => verifyRecorded scheme vault recorded

/-- What a verdict says about the disk it was given on. -/
def StartVerdict.Sound (scheme : KeyScheme Key) (vault : Vault Key) : StartVerdict → Prop
  | .accept =>
    ∃ key, vault.keyFile.read = some key ∧ vault.recorded = some (scheme.fingerprint key)
  | .refuse _ => True
  | .create => vault.ciphertexts = []
  | .record =>
    (∃ key, vault.keyFile.read = some key) ∧ (vault.recorded = none ∨ vault.ciphertexts = [])

theorem loadOrCreate_sound (scheme : KeyScheme Key) (hEmpty : vault.ciphertexts = []) :
    (loadOrCreate scheme vault).Sound scheme vault := by
  unfold loadOrCreate
  split
  next key hFile =>
    split_ifs
    · exact ⟨⟨key, by rw [hFile]; rfl⟩, Or.inr hEmpty⟩
    · exact trivial
  · exact trivial
  · exact hEmpty

theorem checkSync_sound [DecidableEq Key] (scheme : KeyScheme Key) (vault : Vault Key) :
    (checkSync scheme vault).Sound scheme vault := by
  have hEmpty (hNone : ¬hasCiphertext vault.ciphertexts = true) : vault.ciphertexts = [] :=
    hasCiphertext_eq_false (Bool.eq_false_iff.mpr hNone)
  unfold checkSync
  split
  next hRecorded =>
    unfold recordFirstTime
    split_ifs with hSome
    · split
      · exact trivial
      next key hRead =>
        split_ifs
        · exact trivial
        · exact ⟨⟨key, hRead⟩, Or.inl hRecorded⟩
        · exact trivial
    · exact loadOrCreate_sound scheme (hEmpty hSome)
  next recorded hRecorded =>
    unfold verifyRecorded
    split
    · split_ifs with hSome
      · exact trivial
      · exact loadOrCreate_sound scheme (hEmpty hSome)
    next key hRead =>
      split_ifs with hPrint hSome
      · exact ⟨key, hRead, by rw [hPrint]; exact hRecorded⟩
      · exact trivial
      · exact ⟨⟨key, hRead⟩, Or.inr (hEmpty hSome)⟩

end TimelapseManager.Security
