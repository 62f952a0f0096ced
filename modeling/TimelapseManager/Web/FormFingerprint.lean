import TimelapseManager.Lib.Occurrence
import TimelapseManager.Web.IdempotencyOnce

/-!
# Which forms a fingerprint tells apart

`fingerprint_form` ends each name and each value of a form with a NUL.  The hashed text gives the
fields back while none of them has a NUL of its own, and a key used again with another form is then
refused; a NUL in a value can stand for the end of it.
-/

namespace TimelapseManager.Web.Idempotency

open KeyedRows Occurrence Runs

variable {Digest : Type} {first second : List (Text × Text)}

/-- No name and no value of the form has a NUL, those left out of the fingerprint apart. -/
def NulFree (form : List (Text × Text)) : Prop :=
  ∀ field ∈ form, field.1 ≠ "csrf_token".toList → '\x00' ∉ field.1 ∧ '\x00' ∉ field.2

/-- What `fingerprint_form` hashes of a field. -/
def framed (field : Text × Text) : Text :=
  field.1 ++ ['\x00'] ++ field.2 ++ ['\x00']

theorem eq_of_framed (hFirst : ∀ field ∈ first, '\x00' ∉ field.1 ∧ '\x00' ∉ field.2)
    (hSecond : ∀ field ∈ second, '\x00' ∉ field.1 ∧ '\x00' ∉ field.2)
    (hEq : first.flatMap framed = second.flatMap framed) : first = second := by
  induction first generalizing second with
  | nil =>
    cases second with
    | nil => rfl
    | cons field rest => simp [framed] at hEq
  | cons field rest hRec =>
    cases second with
    | nil => simp [framed] at hEq
    | cons other others =>
      obtain ⟨⟨hName, hValue⟩, hRest⟩ := List.forall_mem_cons.mp hFirst
      obtain ⟨⟨hOtherName, hOtherValue⟩, hOthers⟩ := List.forall_mem_cons.mp hSecond
      simp only [List.flatMap_cons, framed, List.append_assoc] at hEq
      obtain ⟨hNames, hAfter⟩ :=
        (firstAt_of_not_mem hName).unique (firstAt_of_not_mem hOtherName) hEq
      obtain ⟨hValues, hTail⟩ :=
        (firstAt_of_not_mem hValue).unique (firstAt_of_not_mem hOtherValue) hAfter
      rw [Prod.ext hNames hValues, hRec hRest hOthers hTail]

theorem exists_kept (sha256 : Text → Digest) (form : List (Text × Text)) :
    ∃ kept, fingerprintForm sha256 form = sha256 (List.flatMap framed kept) ∧
      ∀ field, field ∈ kept ↔ field ∈ form ∧ field.1 ≠ "csrf_token".toList := by
  refine ⟨_, rfl, fun field => ?_⟩
  rw [List.mem_filter, List.mem_insertionSort, decide_eq_true_eq]

theorem mem_of_fingerprint_eq {sha256 : Text → Digest} (hHash : Function.Injective sha256)
    (hFirst : NulFree first) (hSecond : NulFree second)
    (hEq : fingerprintForm sha256 first = fingerprintForm sha256 second) {field : Text × Text}
    (hName : field.1 ≠ "csrf_token".toList) : field ∈ first ↔ field ∈ second := by
  obtain ⟨kept, hText, hKept⟩ := exists_kept sha256 first
  obtain ⟨others, hOtherText, hOthers⟩ := exists_kept sha256 second
  rw [hText, hOtherText] at hEq
  have hSame := eq_of_framed (fun field hMem => ((hKept field).mp hMem).elim (hFirst field))
    (fun field hMem => ((hOthers field).mp hMem).elim (hSecond field)) (hHash hEq)
  have hMem := hKept field
  rw [hSame, hOthers, and_iff_left hName, and_iff_left hName] at hMem
  exact hMem.symm

/-- Forms without NULs that differ in a field other than the token have different fingerprints, and
a live key of the one refuses the other. -/
theorem other_form_refused [DecidableEq Digest] {sha256 : Text → Digest}
    (hHash : Function.Injective sha256) {stored form : Dict Text Text}
    (hStored : NulFree stored.rows) (hForm : NulFree form.rows) {name : Text}
    (hName : name ≠ "csrf_token".toList) (hDiffer : stored.get? name ≠ form.get? name) :
    fingerprintForm sha256 stored.rows ≠ fingerprintForm sha256 form.rows ∧
      ∀ (limits : Limits) (state : State Digest) (id : ℕ) (key : CacheKey) (phase : Phase) (now : ℚ)
        (entry : Entry Digest), entry.fingerprint = fingerprintForm sha256 stored.rows →
        (purgeExpired state.entries now).get? key = some entry →
        state.reserve limits id ⟨key, fingerprintForm sha256 form.rows, phase⟩ now =
          { state with entries := (purgeExpired state.entries now).set key entry }.setPhase id
            (.finished .mismatch) := by
  have hNe : fingerprintForm sha256 stored.rows ≠ fingerprintForm sha256 form.rows := by
    intro hEq
    refine hDiffer (Option.ext fun value => ?_)
    rw [Dict.get?_eq_some_iff, Dict.get?_eq_some_iff]
    exact mem_of_fingerprint_eq hHash hStored hForm hEq hName
  refine ⟨hNe, fun limits state id key phase now entry hEntry hGet => ?_⟩
  simp only [State.reserve, hGet, hEntry]
  rw [if_pos hNe]

def oneField : Dict Text Text := Dict.empty.set "a".toList "b".toList

/-- A key completed with the form of one field, and a request with it for the form of none. -/
def reused : State Text where
  clock := 0
  entries := Dict.empty.set shiftKey ⟨fingerprintForm id oneField.rows, 1, some okResponse, 1⟩
  requests := Dict.empty.set 2 ⟨shiftKey, fingerprintForm id [], .arrived 0⟩
  successes := []

/-- With a text as its own hash. -/
theorem other_form_refused_reused :
    (reused.reserve smallLimits 2 ⟨shiftKey, fingerprintForm id [], .arrived 0⟩ 0).stage 2 =
      some (shiftKey, .finished .mismatch) := by
  have hStored : NulFree oneField.rows := by
    unfold NulFree
    decide
  have hForm : NulFree (Dict.empty : Dict Text Text).rows := List.forall_mem_nil _
  have hDiffer : oneField.get? "a".toList ≠ Dict.get? .empty "a".toList := by decide
  have hReserve := (other_form_refused Function.injective_id hStored hForm (by decide) hDiffer).2
    smallLimits reused 2 shiftKey (.arrived 0) 0
    ⟨fingerprintForm id oneField.rows, 1, some okResponse, 1⟩ rfl (by decide +kernel)
  exact (congrArg (State.stage · 2) hReserve).trans (by decide +kernel)

/-- A key used for a form whose one value has NULs in it, and again for a form of two fields. -/
def nulRun : List Label :=
  [.send 1 1 shiftKey.2.1 (some shiftKey.2.2) [("a".toList, "b\x00c\x00d".toList)],
    .reserve 1, .answer 1 okResponse, .stamp 1, .complete 1,
    .send 2 1 shiftKey.2.1 (some shiftKey.2.2) [("a".toList, "b".toList), ("c".toList, "d".toList)],
    .reserve 2]

/-- The second form is answered with the response of the first. -/
theorem nul_form_replayed : ∃ state, Run (Steps (step smallLimits id)) (.initial 0) nulRun state ∧
    state.stage 2 = some (shiftKey, .finished (.replayed okResponse)) :=
  Run.exists_of_exec (by decide +kernel)

end TimelapseManager.Web.Idempotency
