import TimelapseManager.Lib.Retention
import Mathlib

/-!
# Snapshots before an upgrade

Every start of the service that finds the database behind head takes a snapshot of it at the
recorded revision, prunes the older snapshots, and then commits migrations one at a time until one
fails or head is reached.  `prune_snapshots` keeps the newest three and the oldest one of the
recorded revision: a migration that has been committed takes the protection of the first snapshot
away, and three more starts remove it (`first_snapshot_pruned`).
-/

namespace TimelapseManager.Db.Snapshots

abbrev Text := List Char

structure Snapshot where
  revision : Text
  takenAt : Text
  sequence : ℕ
  deriving DecidableEq

/-- The name of the file: `<db>.pre-<revision>-<stamp>`, with the sequence number behind it if it is
not zero. -/
def Snapshot.name (database : Text) (snapshot : Snapshot) : Text :=
  database ++ ['.', 'p', 'r', 'e', '-'] ++ snapshot.revision ++ '-' :: snapshot.takenAt ++
    if snapshot.sequence = 0 then [] else '-' :: Nat.toDigits 10 snapshot.sequence

def Snapshot.key (database : Text) (snapshot : Snapshot) : Text ×ₗ ℕ ×ₗ Text :=
  toLex (snapshot.takenAt, toLex (snapshot.sequence, snapshot.name database))

def snapshotKeep : ℕ := 3

def pruneSnapshots (database currentRevision : Text) (snapshots : List Snapshot) : List Snapshot :=
  snapshots.filter fun snapshot =>
    snapshot ∈ Retention.newest (Snapshot.key database) snapshotKeep snapshots ||
      Retention.oldest (Snapshot.key database)
        (fun other => other.revision = currentRevision) snapshots = some snapshot

/-- The first sequence number under which there is no file yet. -/
def freeSequence (snapshots : List Snapshot) (revision stamp : Text) : ℕ :=
  ((List.range (snapshots.length + 1)).find? fun sequence =>
    ⟨revision, stamp, sequence⟩ ∉ snapshots).getD 0

def newSnapshot (snapshots : List Snapshot) (revision stamp : Text) : Snapshot :=
  ⟨revision, stamp, freeSequence snapshots revision stamp⟩

def takeSnapshot (database revision stamp : Text) (snapshots : List Snapshot) : List Snapshot :=
  pruneSnapshots database revision (snapshots ++ [newSnapshot snapshots revision stamp])

/-- The database and its directory: the recorded revision, the revisions of the migrations from it
to head, and the snapshots on disk. -/
structure State where
  revision : Text
  pending : List Text
  snapshots : List Snapshot
  deriving DecidableEq

/-- One start of the service: the stamp of its snapshot, whether there is room for the copy and it
is made, and how many migrations are committed before one fails. -/
structure Start where
  stamp : Text
  copied : Bool
  committed : ℕ
  deriving DecidableEq

def State.commit (state : State) (committed : ℕ) : State :=
  { state with
    revision := (state.pending.take committed).getLastD state.revision
    pending := state.pending.drop committed }

/-- `apply_migrations`: at head there is nothing to do, and without a snapshot nothing is done. -/
def State.start (database : Text) (state : State) (start : Start) : State :=
  if state.pending = [] ∨ start.copied = false then state
  else
    State.commit { state with
      snapshots := takeSnapshot database state.revision start.stamp state.snapshots }
      start.committed

def State.starts (database : Text) (state : State) (starts : List Start) : State :=
  starts.foldl (State.start database) state

/-! ## Names and sequence numbers -/

theorem key_injective (database : Text) : Function.Injective (Snapshot.key database) := by
  rintro ⟨revision, takenAt, sequence⟩ ⟨other, otherTakenAt, otherSequence⟩ hKey
  have hPair := toLex_inj.mp hKey
  obtain ⟨hTaken, hRest⟩ := Prod.mk.inj hPair
  obtain ⟨hSequence, hName⟩ := Prod.mk.inj (toLex_inj.mp hRest)
  subst hTaken hSequence
  have hRevision : revision = other := by
    unfold Snapshot.name at hName
    simpa using hName
  rw [hRevision]

theorem freeSequence_eq_zero {snapshots : List Snapshot} {revision stamp : Text}
    (hNone : ∀ snapshot ∈ snapshots, snapshot.revision ≠ revision) :
    freeSequence snapshots revision stamp = 0 := by
  have hFree : (⟨revision, stamp, 0⟩ : Snapshot) ∉ snapshots := fun hMem => hNone _ hMem rfl
  unfold freeSequence
  rw [List.range_succ_eq_map, List.find?_cons, decide_eq_true hFree]
  rfl

/-! ## Pruning -/

section Prune

variable {database revision stamp : Text} {snapshot : Snapshot} {snapshots : List Snapshot}

theorem pruneSnapshots_sublist : (pruneSnapshots database revision snapshots).Sublist snapshots :=
  List.filter_sublist

theorem mem_pruneSnapshots_of_few (hMem : snapshot ∈ snapshots)
    (hFew : Retention.later (Snapshot.key database) snapshot snapshots < snapshotKeep) :
    snapshot ∈ pruneSnapshots database revision snapshots := by
  refine List.mem_filter.mpr ⟨hMem, ?_⟩
  rw [Bool.or_eq_true]
  exact Or.inl (decide_eq_true (Retention.mem_newest_of_few (key_injective database) hMem hFew))

theorem mem_pruneSnapshots_of_oldest (hMem : snapshot ∈ snapshots)
    (hLeast : ∀ other ∈ snapshots, other.revision = snapshot.revision →
      snapshot.key database ≤ other.key database) :
    snapshot ∈ pruneSnapshots database snapshot.revision snapshots := by
  refine List.mem_filter.mpr ⟨hMem, ?_⟩
  rw [Bool.or_eq_true]
  refine Or.inr (decide_eq_true ?_)
  refine Retention.oldest_eq_some (key_injective database) hMem (decide_eq_true rfl) ?_
  intro other hOther hRevision
  exact hLeast other hOther (of_decide_eq_true hRevision)

theorem later_concat_le (new : Snapshot) :
    Retention.later (Snapshot.key database) snapshot (snapshots ++ [new]) ≤
      Retention.later (Snapshot.key database) snapshot snapshots + 1 := by
  rw [Retention.later_append]
  exact Nat.add_le_add_left List.countP_le_length _

theorem later_takeSnapshot_le :
    Retention.later (Snapshot.key database) snapshot
        (takeSnapshot database revision stamp snapshots) ≤
      Retention.later (Snapshot.key database) snapshot snapshots + 1 :=
  le_trans (Retention.later_le_of_sublist pruneSnapshots_sublist) (later_concat_le _)

theorem key_le_of_stamp_le (hSequence : snapshot.sequence = 0) (hStamp : snapshot.takenAt ≤ stamp) :
    snapshot.key database ≤ (newSnapshot snapshots snapshot.revision stamp).key database := by
  rcases lt_or_eq_of_le hStamp with hLater | hSame
  · exact Prod.Lex.toLex_le_toLex.mpr (Or.inl hLater)
  · cases hNumber : (newSnapshot snapshots snapshot.revision stamp).sequence with
    | zero =>
      -- Then it has the name of the snapshot itself.
      have hEq : newSnapshot snapshots snapshot.revision stamp = snapshot := by
        obtain ⟨own, takenAt, sequence⟩ := snapshot
        dsimp only at hSequence hSame
        unfold newSnapshot at hNumber ⊢
        dsimp only at hNumber ⊢
        rw [hNumber, hSequence, hSame]
      rw [hEq]
    | succ number =>
      refine Prod.Lex.toLex_le_toLex.mpr (Or.inr ⟨hSame, ?_⟩)
      refine Prod.Lex.toLex_le_toLex.mpr (Or.inl ?_)
      rw [hSequence, hNumber]
      exact Nat.succ_pos number

end Prune

/-! ## Retries -/

def firstSnapshot (state : State) (first : Start) : Snapshot :=
  newSnapshot state.snapshots state.revision first.stamp

section Retries

variable (database : Text) (state : State) (first : Start)

/-- No snapshot of the first attempt's revision was on disk, and the clock has not gone back behind
the first attempt. -/
def Undisputed (retries : List Start) : Prop :=
  (∀ old ∈ state.snapshots, old.revision ≠ state.revision) ∧
    ∀ retry ∈ retries, first.stamp ≤ retry.stamp

/-- A retry that the first snapshot outlives: it finds head reached, makes no snapshot, makes the
first or second one since, or finds the revision of the first attempt still recorded, of which the
first snapshot is the oldest. -/
def Harmless (before : List Start) (retry : Start) : Prop :=
  (state.starts database (first :: before)).pending = [] ∨ retry.copied = false ∨
    before.countP Start.copied < 2 ∨
    (state.starts database (first :: before)).revision = state.revision ∧
      Undisputed state first (before ++ [retry])

structure KeptAfter (retries : List Start) : Prop where
  mem : firstSnapshot state first ∈ (state.starts database (first :: retries)).snapshots
  few : Retention.later (Snapshot.key database) (firstSnapshot state first)
    (state.starts database (first :: retries)).snapshots ≤ retries.countP Start.copied
  oldest : Undisputed state first retries →
    ∀ snapshot ∈ (state.starts database (first :: retries)).snapshots,
      snapshot.revision = state.revision →
      (firstSnapshot state first).key database ≤ snapshot.key database

variable {database state first}

theorem starts_append (retries : List Start) (retry : Start) :
    state.starts database (first :: (retries ++ [retry])) =
      (state.starts database (first :: retries)).start database retry := by
  unfold State.starts
  rw [← List.cons_append, List.foldl_append]
  rfl

theorem snapshots_start {start : Start} (hBehind : state.pending ≠ []) (hCopied : start.copied) :
    (state.start database start).snapshots =
      takeSnapshot database state.revision start.stamp state.snapshots := by
  unfold State.start
  rw [if_neg]
  · rfl
  · rintro (hHead | hFailed)
    · exact hBehind hHead
    · rw [hCopied] at hFailed
      cases hFailed

theorem keptAfter_nil (hBehind : state.pending ≠ []) (hCopied : first.copied = true)
    (hOlder : ∀ old ∈ state.snapshots,
      old.key database < (firstSnapshot state first).key database) :
    KeptAfter database state first [] := by
  have hSnapshots : (state.starts database [first]).snapshots =
      takeSnapshot database state.revision first.stamp state.snapshots :=
    snapshots_start hBehind hCopied
  have hLater : Retention.later (Snapshot.key database) (firstSnapshot state first)
      (state.snapshots ++ [firstSnapshot state first]) = 0 := by
    refine List.countP_eq_zero.mpr ?_
    simp only [decide_eq_true_eq, not_lt, List.forall_mem_append, List.forall_mem_singleton]
    exact ⟨fun snapshot hOld => (hOlder snapshot hOld).le, le_rfl⟩
  refine ⟨?_, ?_, ?_⟩
  · rw [hSnapshots]
    refine mem_pruneSnapshots_of_few (List.mem_append_right _ List.mem_cons_self) ?_
    exact lt_of_le_of_lt hLater.le (by decide)
  · rw [hSnapshots]
    exact le_trans (Retention.later_le_of_sublist pruneSnapshots_sublist) hLater.le
  · intro hUndisputed snapshot hMem hRevision
    rw [hSnapshots] at hMem
    rcases List.mem_append.mp (pruneSnapshots_sublist.subset hMem) with hOld | hNew
    · exact absurd hRevision (hUndisputed.1 snapshot hOld)
    · rw [List.mem_singleton.mp hNew]
      exact le_rfl

theorem KeptAfter.append {retries : List Start} {retry : Start}
    (hKept : KeptAfter database state first retries)
    (hHarmless : Harmless database state first retries retry) :
    KeptAfter database state first (retries ++ [retry]) := by
  have hShorter : Undisputed state first (retries ++ [retry]) → Undisputed state first retries :=
    fun hUndisputed => ⟨hUndisputed.1, fun other hMem =>
      hUndisputed.2 other (List.mem_append_left _ hMem)⟩
  obtain ⟨hKeptMem, hFew, hKeptOldest⟩ := hKept
  set reached := state.starts database (first :: retries)
  by_cases hIdle : reached.pending = [] ∨ retry.copied = false
  · -- Nothing happens.
    have hSame : state.starts database (first :: (retries ++ [retry])) = reached := by
      rw [starts_append]
      exact if_pos hIdle
    refine ⟨?_, ?_, ?_⟩
    · rw [hSame]
      exact hKeptMem
    · rw [hSame, List.countP_append]
      exact le_trans hFew (Nat.le_add_right _ _)
    · intro hUndisputed
      rw [hSame]
      exact hKeptOldest (hShorter hUndisputed)
  · obtain ⟨hBehind, hCopied⟩ := not_or.mp hIdle
    have hCopied : retry.copied = true := by simpa using hCopied
    have hSnapshots : (state.starts database (first :: (retries ++ [retry]))).snapshots =
        takeSnapshot database reached.revision retry.stamp reached.snapshots := by
      rw [starts_append]
      exact snapshots_start hBehind hCopied
    have hCount : (retries ++ [retry]).countP Start.copied = retries.countP Start.copied + 1 := by
      rw [List.countP_append, List.countP_singleton, if_pos hCopied]
    have hOldest : Undisputed state first (retries ++ [retry]) →
        ∀ snapshot ∈ reached.snapshots ++
            [newSnapshot reached.snapshots reached.revision retry.stamp],
          snapshot.revision = state.revision →
          (firstSnapshot state first).key database ≤ snapshot.key database := by
      intro hUndisputed snapshot hMem hRevision
      rcases List.mem_append.mp hMem with hOld | hNew
      · exact hKeptOldest (hShorter hUndisputed) snapshot hOld hRevision
      · have hStamp : (firstSnapshot state first).takenAt ≤ retry.stamp :=
          hUndisputed.2 retry (List.mem_append_right _ List.mem_cons_self)
        have hZero : (firstSnapshot state first).sequence = 0 :=
          freeSequence_eq_zero hUndisputed.1
        rw [List.mem_singleton.mp hNew] at hRevision ⊢
        have hSameRevision : reached.revision = (firstSnapshot state first).revision := hRevision
        rw [hSameRevision]
        exact key_le_of_stamp_le hZero hStamp
    refine ⟨?_, ?_, ?_⟩
    · rw [hSnapshots]
      have hMem := List.mem_append_left
        [newSnapshot reached.snapshots reached.revision retry.stamp] hKeptMem
      rcases hHarmless with hHead | hFailed | hEarly | ⟨hRevision, hUndisputed⟩
      · exact absurd hHead hBehind
      · rw [hCopied] at hFailed
        cases hFailed
      · refine mem_pruneSnapshots_of_few hMem (lt_of_le_of_lt (later_concat_le _) ?_)
        unfold snapshotKeep
        omega
      · have hSameRevision : reached.revision = (firstSnapshot state first).revision := hRevision
        have hLeast := hOldest hUndisputed
        rw [hSameRevision] at hMem hLeast ⊢
        exact mem_pruneSnapshots_of_oldest hMem hLeast
    · rw [hSnapshots, hCount]
      exact le_trans later_takeSnapshot_le (Nat.add_le_add_right hFew 1)
    · intro hUndisputed snapshot hMem hRevision
      rw [hSnapshots] at hMem
      exact hOldest hUndisputed snapshot (pruneSnapshots_sublist.subset hMem) hRevision

end Retries

/-- Over every sequence of starts after the first attempt, each of them harmless, and whatever older
snapshots there are, the snapshot of the first attempt stays on disk. -/
theorem first_snapshot_kept (database : Text) (state : State) (first : Start)
    (retries : List Start) (hBehind : state.pending ≠ []) (hCopied : first.copied = true)
    (hOlder : ∀ old ∈ state.snapshots, old.key database < (firstSnapshot state first).key database)
    (hHarmless : ∀ before retry after, retries = before ++ retry :: after →
      Harmless database state first before retry) :
    firstSnapshot state first ∈ (state.starts database (first :: retries)).snapshots := by
  have hKept : KeptAfter database state first retries := by
    induction retries using List.reverseRecOn with
    | nil => exact keptAfter_nil hBehind hCopied hOlder
    | append_singleton before retry ih =>
      refine (ih ?_).append (hHarmless before retry [] rfl)
      intro earlier other after hSplit
      refine hHarmless earlier other (after ++ [retry]) ?_
      rw [hSplit, List.append_assoc]
      rfl
  exact hKept.mem

/-- A database at revision `a` with two migrations to head. -/
def sampleState : State where
  revision := ['a']
  pending := [['b'], ['c']]
  snapshots := []

/-- A start in one of the seconds after noon, with so many migrations committed. -/
def sampleStart (second : Char) (committed : ℕ) : Start :=
  ⟨"20261027T12000".toList ++ [second], true, committed⟩

/-- Four attempts that commit nothing: every retry finds the first revision. -/
theorem first_snapshot_kept_over_failed_retries :
    firstSnapshot sampleState (sampleStart '0' 0) ∈
      (sampleState.starts ['d', 'b'] (sampleStart '0' 0 ::
        [sampleStart '1' 0, sampleStart '2' 0, sampleStart '3' 0])).snapshots := by
  have hRevisions : ∀ before ∈ [sampleStart '1' 0, sampleStart '2' 0, sampleStart '3' 0].inits,
      (sampleState.starts ['d', 'b'] (sampleStart '0' 0 :: before)).revision =
        sampleState.revision := by decide +kernel
  have hStamps : ∀ retry ∈ [sampleStart '1' 0, sampleStart '2' 0, sampleStart '3' 0],
      (sampleStart '0' 0).stamp ≤ retry.stamp := by decide +kernel
  refine first_snapshot_kept ['d', 'b'] sampleState (sampleStart '0' 0)
    [sampleStart '1' 0, sampleStart '2' 0, sampleStart '3' 0] (by decide) rfl (by decide) ?_
  intro before retry after hSplit
  refine Or.inr (Or.inr (Or.inr ⟨?_, by decide, ?_⟩))
  · exact hRevisions before ((List.mem_inits _ _).mpr ⟨retry :: after, hSplit.symm⟩)
  · intro other hMem
    refine hStamps other ?_
    rw [hSplit]
    rcases List.mem_append.mp hMem with hBefore | hRetry
    · exact List.mem_append_left _ hBefore
    · rw [List.mem_singleton.mp hRetry]
      simp

/-- The first attempt commits one migration before it fails; three more starts, none of which
reaches head, and its snapshot is gone. -/
theorem first_snapshot_pruned :
    let starts := [sampleStart '0' 1, sampleStart '1' 0, sampleStart '2' 0, sampleStart '3' 0]
    (sampleState.starts ['d', 'b'] starts).pending = [['c']] ∧
      firstSnapshot sampleState (sampleStart '0' 1) ∈
        (sampleState.starts ['d', 'b'] (starts.take 3)).snapshots ∧
      firstSnapshot sampleState (sampleStart '0' 1) ∉
        (sampleState.starts ['d', 'b'] starts).snapshots := by
  exact ⟨by decide +kernel, by decide +kernel, by decide +kernel⟩

end TimelapseManager.Db.Snapshots
