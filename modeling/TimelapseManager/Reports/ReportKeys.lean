import TimelapseManager.Lib.Runs

/-!
# Report keys

`next_report_key` numbers the reports of a UTC day: one more than the highest number among the keys
that the table and the audit log still hold.  Filings are serialised by the write lock; deletions,
refusals and prunes take rows away and name them in the log.

The number has four digits up to 9999.  The key after that is longer, the pattern of a key does not
match it, and it is not counted when the next one is made.
-/

namespace TimelapseManager.Reports.ReportKeys

open Runs

abbrev Text := List Char

/-- Decides the membership of a key. -/
local instance lawfulKeys : LawfulBEq Text := inferInstance

/-- `{now:%Y%m%d}`. -/
abbrev Day := { text : Text // text.length = 8 ∧ text.all Char.isDigit = true }

def keyPrefix (day : Day) : Text := "TLM-".toList ++ day.val ++ ['-']

/-- `{number:04d}`. -/
def padded (number : ℕ) : Text :=
  List.replicate (4 - (Nat.toDigits 10 number).length) '0' ++ Nat.toDigits 10 number

/-- `REPORT_KEY_PATTERN`. -/
def isReportKey (key : Text) : Bool :=
  key.take 4 = "TLM-".toList && ((key.drop 4).take 8).all Char.isDigit &&
    (key.drop 12).take 1 = ['-'] && (key.drop 13).all Char.isDigit && key.length = 17

/-- The report table, the keys each audit event names, and the keys of all reports so far, latest
first. -/
structure State where
  rows : List Text
  audit : List (List Text)
  issued : List Text

/-- `_keys_in_audit_log`.  The message of an event holds the keys it names. -/
def keysInAuditLog (audit : List (List Text)) (start : Text) : List Text :=
  (audit.filter fun keys => keys.any start.isPrefixOf).flatten

/-- `int(key.rsplit("-", 1)[1])`. -/
def numberOf (key : Text) : ℕ :=
  Nat.ofDigitChars 10 ((key.splitOn '-').getLastD []) 0

/-- The numbers of a day that the table and the log still know. -/
def numbers (state : State) (day : Day) : List ℕ :=
  let start := keyPrefix day
  let keys := state.rows.filter start.isPrefixOf ++ keysInAuditLog state.audit start
  (keys.filter fun key => start.isPrefixOf key && isReportKey key).map numberOf

def nextReportKey (state : State) (day : Day) : Text :=
  keyPrefix day ++ padded ((numbers state day).max?.getD 0 + 1)

/-- `_claim_row`, `_finish`, `report_delete`, `_discard` and `prune_reports`. -/
inductive Label
  | file (day : Day)
  | finish (key : Text)
  | delete (key : Text)
  | refuse (key : Text)
  | prune (keys : List Text)

/-- The reports go and an event names them. -/
def State.remove (state : State) (keys : List Text) : State :=
  { state with rows := state.rows.filter (· ∉ keys), audit := keys :: state.audit }

def step (state : State) : Label → Option State
  | .file day =>
    let key := nextReportKey state day
    -- The unique constraint refuses a key that is in the table.
    if key ∈ state.rows then some state
    else some { state with rows := key :: state.rows, issued := key :: state.issued }
  | .finish key =>
    if key ∈ state.rows then some { state with audit := [key] :: state.audit } else none
  | .delete key => if key ∈ state.rows then some (state.remove [key]) else none
  -- The row may be gone by then.
  | .refuse key => if key ∈ state.issued then some (state.remove [key]) else none
  | .prune keys => if ∀ key ∈ keys, key ∈ state.rows then some (state.remove keys) else none

/-- The keys of a day. -/
def State.issuedOn (state : State) (day : Day) : List Text :=
  state.issued.filter (keyPrefix day).isPrefixOf

/-- The key a day's report gets after so many others. -/
def keyAfter (day : Day) (count : ℕ) : Text :=
  keyPrefix day ++ padded (min count 9999 + 1)

/-- Every key issued is still known, and the keys of a day are numbered in turn. -/
structure Sound (state : State) : Prop where
  known : ∀ key, key ∈ state.issued ↔ key ∈ state.rows ∨ key ∈ state.audit.flatten
  numbered : ∀ day, state.issuedOn day =
    ((List.range (state.issuedOn day).length).map (keyAfter day)).reverse

variable {state after : State} {day : Day} {label : Label}

theorem mem_padded {char : Char} {number : ℕ} (hMem : char ∈ padded number) :
    char.isDigit = true := by
  rcases List.mem_append.mp hMem with hZero | hDigit
  · rw [(List.mem_replicate.mp hZero).2]
    decide
  · exact Nat.isDigit_of_mem_toDigits (by decide) (by decide) hDigit

theorem isReportKey_padded (number : ℕ) :
    isReportKey (keyPrefix day ++ padded number) = true ↔ number < 10000 := by
  have hShort : (padded number).length = 4 ↔ number < 10000 := by
    rw [← Nat.length_toDigits_le_iff (b := 10) (k := 4) (by decide) (by decide), padded]
    simp
    omega
  obtain ⟨day, hLength, hDay⟩ := day
  have hRest : day.drop 9 = [] := List.drop_eq_nil_of_le (by omega)
  have hDigits := List.all_eq_true.mp hDay
  have hPadded : ∀ char ∈ padded number, char.isDigit = true := fun _ => mem_padded
  simp [isReportKey, keyPrefix, List.drop_append, List.take_append, hLength, hRest]
  rw [and_iff_right ⟨hDigits, hPadded⟩]
  omega

theorem numberOf_padded (number : ℕ) : numberOf (keyPrefix day ++ padded number) = number := by
  have hParts : keyPrefix day ++ padded number =
      ['-'].intercalate ["TLM".toList, day.val, padded number] := by
    simp [keyPrefix]
  have hDay : '-' ∉ day.val := fun hMem =>
    absurd (List.all_eq_true.mp day.property.2 _ hMem) (by decide)
  have hPadded : '-' ∉ padded number := fun hMem => absurd (mem_padded hMem) (by decide)
  rw [numberOf, hParts, List.splitOn_intercalate]
  · simp [padded, Nat.ofDigitChars_append]
  · simp [hDay, hPadded]
  · simp

theorem isPrefixOf_key (other : Day) (text : Text) :
    (keyPrefix other).isPrefixOf (keyPrefix day ++ text) = true ↔ other = day := by
  rw [List.isPrefixOf_iff_prefix]
  constructor
  · intro hStart
    have hLength : (keyPrefix other).length = (keyPrefix day).length := by
      simp [keyPrefix, other.property.1, day.property.1]
    have hEq := List.prefix_of_prefix_length_le hStart (List.prefix_append _ _) hLength.le
    exact Subtype.ext (by simpa [keyPrefix] using hEq.eq_of_length hLength)
  · rintro rfl
    exact List.prefix_append _ _

section

variable (hSound : Sound state)
include hSound

theorem Sound.mem_issuedOn (key : Text) : key ∈ state.issuedOn day ↔
    ∃ place < (state.issuedOn day).length, keyAfter day place = key := by
  rw [hSound.numbered day]
  simp

theorem Sound.mem_numbers (number : ℕ) : number ∈ numbers state day ↔
    0 < number ∧ number ≤ min (state.issuedOn day).length 9999 := by
  have hKeys (key : Text) : ((key ∈ state.rows ∧ (keyPrefix day).isPrefixOf key = true ∨
      key ∈ keysInAuditLog state.audit (keyPrefix day)) ∧ (keyPrefix day).isPrefixOf key = true) ↔
      key ∈ state.issuedOn day := by
    rw [State.issuedOn, List.mem_filter, hSound.known, keysInAuditLog]
    simp only [List.mem_flatten, List.mem_filter, List.any_eq_true]
    grind
  simp only [numbers, List.mem_map, List.mem_filter, List.mem_append, Bool.and_eq_true, ← and_assoc,
    hKeys, hSound.mem_issuedOn]
  constructor
  · rintro ⟨key, ⟨⟨place, hPlace, rfl⟩, hForm⟩, rfl⟩
    have hFour := (isReportKey_padded _).mp hForm
    rw [keyAfter, numberOf_padded]
    omega
  · rintro ⟨hPos, hLe⟩
    have hPlace : min (number - 1) 9999 + 1 = number := by omega
    refine ⟨_, ⟨⟨number - 1, by omega, rfl⟩, ?_⟩, ?_⟩
    · rw [keyAfter, isReportKey_padded]
      omega
    · rw [keyAfter, numberOf_padded, hPlace]

theorem Sound.nextReportKey_eq (day : Day) :
    nextReportKey state day = keyAfter day (state.issuedOn day).length := by
  have hMem (number : ℕ) : number ∈ numbers state day ↔ _ := hSound.mem_numbers number
  unfold nextReportKey keyAfter
  congr 3
  cases hMax : (numbers state day).max? with
  | none =>
    have hNone := (hMem 1).not.mp (by simp [List.max?_eq_none_iff.mp hMax])
    rw [Option.getD_none]
    omega
  | some highest =>
    obtain ⟨hHighest, hBound⟩ := List.max?_eq_some_iff.mp hMax
    have hPos := (hMem highest).mp hHighest
    have hLast := hBound _ ((hMem (min (state.issuedOn day).length 9999)).mpr (by omega))
    exact le_antisymm hPos.2 hLast

theorem Sound.step (hStep : Steps step state label after) : Sound after := by
  have hRow {key : Text} (hMem : key ∈ state.rows) : key ∈ state.issued :=
    (hSound.known key).mpr (Or.inl hMem)
  have hRemove (keys : List Text) (hKeys : ∀ key ∈ keys, key ∈ state.issued) :
      Sound (state.remove keys) := by
    refine ⟨fun key => ?_, hSound.numbered⟩
    have hKnown := hSound.known key
    have hKey := hKeys key
    simp only [State.remove, List.mem_filter, List.flatten_cons, List.mem_append, decide_eq_true_eq]
    tauto
  cases label with simp only [Steps, ReportKeys.step] at hStep
  | file day =>
    split at hStep
    · cases hStep
      exact hSound
    · cases hStep
      refine ⟨fun key => ?_, fun other => ?_⟩
      · simp only [List.mem_cons, hSound.known key, or_assoc]
      · have hNumbered := hSound.numbered other
        simp only [State.issuedOn, List.filter_cons] at hNumbered ⊢
        rw [hSound.nextReportKey_eq day, keyAfter]
        by_cases hDay : other = day
        · subst hDay
          rw [if_pos ((isPrefixOf_key _ _).mpr rfl), List.length_cons, List.range_succ,
            List.map_append, List.reverse_append, ← hNumbered]
          rfl
        · rw [if_neg ((isPrefixOf_key _ _).not.mpr hDay)]
          exact hNumbered
  | finish key =>
    obtain ⟨hMem, rfl⟩ := of_guard hStep
    refine ⟨fun other => ?_, hSound.numbered⟩
    have hKnown := hSound.known other
    have hKey := hRow hMem
    simp only [List.flatten_cons, List.mem_append, List.mem_singleton]
    grind
  | delete key =>
    obtain ⟨hMem, rfl⟩ := of_guard hStep
    exact hRemove [key] (by simpa using hRow hMem)
  | refuse key =>
    obtain ⟨hIssued, rfl⟩ := of_guard hStep
    exact hRemove [key] (by simpa using hIssued)
  | prune keys =>
    obtain ⟨hRows, rfl⟩ := of_guard hStep
    exact hRemove keys fun key hMem => hRow (hRows key hMem)

theorem Sound.fresh_iff (day : Day) :
    nextReportKey state day ∉ state.issued ↔ (state.issuedOn day).length < 10000 := by
  have hMem : keyAfter day (state.issuedOn day).length ∈ state.issued ↔
      keyAfter day (state.issuedOn day).length ∈ state.issuedOn day := by
    rw [State.issuedOn, List.mem_filter, keyAfter, isPrefixOf_key, and_iff_left rfl]
  rw [hSound.nextReportKey_eq, hMem, hSound.mem_issuedOn]
  constructor
  · intro hNew
    by_contra hMany
    refine hNew ⟨9999, by omega, ?_⟩
    rw [keyAfter, keyAfter, min_eq_right le_rfl, min_eq_right (by omega)]
  · rintro hFew ⟨place, hPlace, hSame⟩
    have hNumber := congrArg numberOf hSame
    rw [keyAfter, keyAfter, numberOf_padded, numberOf_padded] at hNumber
    omega

end

def State.initial : State := ⟨[], [], []⟩

variable {labels : List Label}

theorem sound_of_run (hRun : Run (Steps step) .initial labels state) : Sound state :=
  hRun.invariant Sound (fun _ _ _ hSound => hSound.step) ⟨by simp [State.initial], fun _ => rfl⟩

/-- A report's key is well formed while fewer than 9999 others of its day were issued, and new while
fewer than 10000 were. -/
theorem next_report_key_new (hRun : Run (Steps step) .initial labels state) (day : Day) :
    (isReportKey (nextReportKey state day) = true ↔ (state.issuedOn day).length < 9999) ∧
      (nextReportKey state day ∉ state.issued ↔ (state.issuedOn day).length < 10000) := by
  have hSound := sound_of_run hRun
  refine ⟨?_, hSound.fresh_iff day⟩
  rw [hSound.nextReportKey_eq, keyAfter, isReportKey_padded]
  omega

def someDay : Day := ⟨"20260101".toList, by decide⟩

/-- A report is deleted before the next one is filed, and that one is refused and discarded. -/
def sampleLabels : List Label :=
  [.file someDay, .delete (keyAfter someDay 0), .file someDay, .refuse (keyAfter someDay 1)]

/-- No row is left, and the third key is new all the same. -/
theorem third_report_key_new : ∃ state, Run (Steps step) .initial sampleLabels state ∧
    state.rows = [] ∧ isReportKey (nextReportKey state someDay) = true ∧
      nextReportKey state someDay ∉ state.issued := by
  have hExec : ∃ stop ∈ exec step .initial sampleLabels,
      stop.rows = [] ∧ (stop.issuedOn someDay).length = 2 := by
    decide +kernel
  obtain ⟨state, hRun, hRows, hCount⟩ := Run.exists_of_exec hExec
  have hNew := next_report_key_new hRun someDay
  exact ⟨state, hRun, hRows, hNew.1.mpr (by omega), hNew.2.mpr (by omega)⟩

theorem exists_filings (day : Day) {count : ℕ} (hCount : count ≤ 10000) :
    ∃ state, Run (Steps step) .initial (List.replicate count (.file day)) state ∧
      (state.issuedOn day).length = count := by
  induction count with
  | zero => exact ⟨_, .nil _, rfl⟩
  | succ count hRec =>
    obtain ⟨state, hRun, hLength⟩ := hRec (by omega)
    have hSound := sound_of_run hRun
    have hFresh := (hSound.fresh_iff day).mpr (by omega)
    have hRow : nextReportKey state day ∉ state.rows := fun hMem =>
      hFresh ((hSound.known _).mpr (Or.inl hMem))
    rw [List.replicate_succ']
    refine ⟨_, hRun.append (.cons (if_neg hRow) (.nil _)), ?_⟩
    rw [State.issuedOn, List.filter_cons, nextReportKey, if_pos ((isPrefixOf_key _ _).mpr rfl),
      List.length_cons, ← State.issuedOn, hLength]

/-- The ten thousandth key of a day has five digits, and the one after it is the same. -/
theorem report_key_repeated : ∃ state,
    Run (Steps step) .initial (List.replicate 10000 (.file someDay)) state ∧
      isReportKey (nextReportKey state someDay) = false ∧
      nextReportKey state someDay ∈ state.issued := by
  obtain ⟨state, hRun, hLength⟩ := exists_filings someDay le_rfl
  have hSound := sound_of_run hRun
  refine ⟨state, hRun, ?_, ?_⟩
  · rw [hSound.nextReportKey_eq, hLength, Bool.eq_false_iff, keyAfter, Ne, isReportKey_padded]
    decide
  · have hRepeated := (hSound.fresh_iff someDay).not.mpr (by omega)
    exact not_not.mp hRepeated

end TimelapseManager.Reports.ReportKeys
