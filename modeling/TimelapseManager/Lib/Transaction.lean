import Mathlib

/-!
# Transactions with effects that are not undone

A body changes rows, removes things, and may raise at any point.  The rows are those of a
transaction: they are kept if the body returns and the commit succeeds, and rolled back otherwise.
What the body removed stays removed either way.

* `Effect` says of a body, in terms of the rows it starts from, whether it returns, which rows it
  leaves and what it removes; `Effect.bind` and `Effect.forEach` compose it.
* `inSession_agrees_iff` is when the rows that are left refer to nothing that was removed.
-/

namespace TimelapseManager.Transaction

variable {ε σ ρ φ ι : Type}

/-- Runs the body for every item, until it raises. -/
def forEach (body : ι → EStateM ε σ Unit) : List ι → EStateM ε σ Unit
  | [] => pure ()
  | item :: items => do
    body item
    forEach body items

/-- Raising an error of a kind ends the body, nothing more. -/
def suppress (kind : ε → Bool) (body : EStateM ε σ Unit) : EStateM ε σ Unit := fun state =>
  match body state with
  | .ok _ after => .ok () after
  | .error raised after => if kind raised then .ok () after else .error raised after

theorem suppress_suppress {kind inner : ε → Bool}
    (hInner : ∀ raised, inner raised = true → kind raised = true) (body : EStateM ε σ Unit) :
    suppress kind (suppress inner body) = suppress kind body := by
  funext state
  unfold suppress
  cases body state with
  | ok value after => rfl
  | error raised after =>
    by_cases hRaised : inner raised = true
    · simp only [hRaised, if_true, hInner raised hRaised]
    · simp only [hRaised]
      rfl

/-- The state in which a body ends. -/
def final : EStateM.Result ε σ Unit → σ
  | .ok _ after => after
  | .error _ after => after

def Returned : EStateM.Result ε σ Unit → Prop
  | .ok _ _ => True
  | .error _ _ => False

/-- What a body does, by the rows it starts from. -/
structure Effect (rows : σ → ρ) (has : σ → φ → Prop) (body : EStateM ε σ Unit)
    (returns : ρ → Prop) (next : ρ → ρ) (removes : ρ → φ → Prop) : Prop where
  returned : ∀ state, Returned (body state) ↔ returns (rows state)
  rows_eq : ∀ state, Returned (body state) → rows (final (body state)) = next (rows state)
  has_iff : ∀ state file, has (final (body state)) file ↔
    has state file ∧ ¬removes (rows state) file

section Compose

variable {rows : σ → ρ} {has : σ → φ → Prop}

theorem Effect.pure : Effect rows has (Pure.pure () : EStateM ε σ Unit) (fun _ => True) id
    (fun _ _ => False) where
  returned := fun _ => Iff.rfl
  rows_eq := fun _ _ => rfl
  has_iff := fun _ _ => ⟨fun hHas => ⟨hHas, not_false⟩, And.left⟩

variable {removes : ρ → φ → Prop} {returns : ρ → Prop} {items : List ι} {next : ι → ρ → ρ}
  {start : ρ}

theorem Effect.throw (raised : ε) {next : ρ → ρ} (hReturns : ∀ start, ¬returns start)
    (hRemoves : ∀ start file, ¬removes start file) :
    Effect rows has (MonadExcept.throw raised : EStateM ε σ Unit) returns next removes where
  returned := fun state => ⟨False.elim, hReturns (rows state)⟩
  rows_eq := fun _ hReturned => False.elim hReturned
  has_iff := fun state file => ⟨fun hHas => ⟨hHas, hRemoves (rows state) file⟩, And.left⟩

theorem Effect.congr {body : EStateM ε σ Unit} {returns' : ρ → Prop} {next next' : ρ → ρ}
    {removes' : ρ → φ → Prop} (hEffect : Effect rows has body returns next removes)
    (hReturns : ∀ start, returns' start ↔ returns start)
    (hNext : ∀ start, returns start → next' start = next start)
    (hRemoves : ∀ start file, removes' start file ↔ removes start file) :
    Effect rows has body returns' next' removes' where
  returned := fun state => (hEffect.returned state).trans (hReturns _).symm
  rows_eq := by
    intro state hReturned
    rw [hNext _ ((hEffect.returned state).mp hReturned)]
    exact hEffect.rows_eq state hReturned
  has_iff := by
    intro state file
    rw [hRemoves]
    exact hEffect.has_iff state file

theorem Effect.ofRows {body : ρ → EStateM ε σ Unit} {returns : ρ → ρ → Prop} {next : ρ → ρ → ρ}
    {removes : ρ → ρ → φ → Prop}
    (hBody : ∀ now, Effect rows has (body now) (returns now) (next now) (removes now)) :
    Effect rows has (fun state => body (rows state) state) (fun start => returns start start)
      (fun start => next start start) (fun start => removes start start) where
  returned := fun state => (hBody (rows state)).returned state
  rows_eq := fun state => (hBody (rows state)).rows_eq state
  has_iff := fun state => (hBody (rows state)).has_iff state

section

variable {first second : EStateM ε σ Unit} {state : σ}

theorem bind_of_returned (hReturned : Returned (first state)) :
    (do first; second : EStateM ε σ Unit) state = second (final (first state)) := by
  simp only [Bind.bind, EStateM.bind]
  cases hRun : first state with
  | ok value middle => rfl
  | error raised middle =>
    rw [hRun] at hReturned
    exact False.elim hReturned

theorem bind_of_raised (hRaised : ¬Returned (first state)) :
    (do first; second : EStateM ε σ Unit) state = first state := by
  simp only [Bind.bind, EStateM.bind]
  cases hRun : first state with
  | ok value middle =>
    rw [hRun] at hRaised
    exact absurd trivial hRaised
  | error raised middle => rfl

theorem Effect.bind {returns' : ρ → Prop} {next next' : ρ → ρ} {removes' : ρ → φ → Prop}
    (hFirst : Effect rows has first returns next removes)
    (hSecond : Effect rows has second returns' next' removes') :
    Effect rows has (do first; second) (fun start => returns start ∧ returns' (next start))
      (fun start => next' (next start))
      (fun start file => removes start file ∨ returns start ∧ removes' (next start) file) where
  returned := by
    intro state
    -- The second body is run only if the first returned, from the rows the first left.
    by_cases hReturned : Returned (first state)
    · rw [bind_of_returned hReturned, hSecond.returned, hFirst.rows_eq state hReturned,
        and_iff_right ((hFirst.returned state).mp hReturned)]
    · rw [bind_of_raised hReturned, ← hFirst.returned state]
      exact ⟨fun hAgain => absurd hAgain hReturned, And.left⟩
  rows_eq := by
    intro state hBoth
    by_cases hReturned : Returned (first state)
    · rw [bind_of_returned hReturned] at hBoth ⊢
      rw [hSecond.rows_eq _ hBoth, hFirst.rows_eq state hReturned]
    · rw [bind_of_raised hReturned] at hBoth
      exact absurd hBoth hReturned
  has_iff := by
    intro state file
    rw [not_or, ← and_assoc, ← hFirst.has_iff state file, ← hFirst.returned state]
    by_cases hReturned : Returned (first state)
    · rw [bind_of_returned hReturned, hSecond.has_iff, hFirst.rows_eq state hReturned,
        and_iff_right hReturned]
    · rw [bind_of_raised hReturned]
      exact ⟨fun hEnd => ⟨hEnd, fun hBoth => hReturned hBoth.1⟩, And.left⟩

end

/-- Every item's body returns. -/
def AllReturn (returns : ι → ρ → Prop) (next : ι → ρ → ρ) : List ι → ρ → Prop
  | [], _ => True
  | item :: items, start => returns item start ∧ AllReturn returns next items (next item start)

/-- The rows that are left after every item. -/
def nextAll (next : ι → ρ → ρ) : List ι → ρ → ρ
  | [], start => start
  | item :: items, start => nextAll next items (next item start)

/-- An item that is reached removes the file. -/
def SomeRemoves (returns : ι → ρ → Prop) (next : ι → ρ → ρ) (removes : ι → ρ → φ → Prop) :
    List ι → ρ → φ → Prop
  | [], _, _ => False
  | item :: items, start, file =>
    removes item start file ∨
      returns item start ∧ SomeRemoves returns next removes items (next item start) file

theorem Effect.forEach {body : ι → EStateM ε σ Unit} {returns : ι → ρ → Prop}
    {removes : ι → ρ → φ → Prop} (hBody : ∀ item ∈ items,
      Effect rows has (body item) (returns item) (next item) (removes item)) :
    Effect rows has (Transaction.forEach body items) (AllReturn returns next items)
      (nextAll next items) (SomeRemoves returns next removes items) := by
  induction items with
  | nil => exact Effect.pure
  | cons item items ih =>
    have hItem := hBody item List.mem_cons_self
    have hItems := ih (List.forall_mem_cons.mp hBody).2
    exact hItem.bind hItems

theorem SomeRemoves.of_forall (Keeps : ρ → Prop) (Refers : φ → Prop) {returns : ι → ρ → Prop}
    {removes : ι → ρ → φ → Prop} {file : φ} (hStart : Keeps start)
    (hNext : ∀ item ∈ items, ∀ now, Keeps now → Keeps (next item now))
    (hItem : ∀ item ∈ items, ∀ now, Keeps now → removes item now file → Refers file)
    (hSome : SomeRemoves returns next removes items start file) : Refers file := by
  induction items generalizing start with
  | nil => exact False.elim hSome
  | cons item items ih =>
    cases hSome with
    | inl hRemoves => exact hItem item List.mem_cons_self start hStart hRemoves
    | inr hLater =>
      exact ih (hNext item List.mem_cons_self start hStart)
        (List.forall_mem_cons.mp hNext).2
        (List.forall_mem_cons.mp hItem).2 hLater.2

theorem nextAll_id (items : List ι) (start : ρ) : nextAll (fun _ => id) items start = start := by
  induction items with
  | nil => rfl
  | cons _ items ih => exact ih

theorem allReturn_iff_forall {returns : ι → Prop} :
    AllReturn (fun item _ => returns item) next items start ↔ ∀ item ∈ items, returns item := by
  induction items generalizing start with
  | nil => simp [AllReturn]
  | cons item items ih => simp [AllReturn, ih]

theorem someRemoves_iff_exists {returns : ι → Prop} {removes : ι → φ → Prop} {file : φ} :
    SomeRemoves (fun item _ => returns item) next (fun item _ => removes item) items start file ↔
      ∃ before item after, items = before ++ item :: after ∧ (∀ other ∈ before, returns other) ∧
        removes item file := by
  induction items generalizing start with
  | nil => simp [SomeRemoves]
  | cons first items ih =>
    constructor
    · intro hSome
      cases hSome with
      | inl hRemoves => exact ⟨[], first, items, rfl, by simp, hRemoves⟩
      | inr hLater =>
        obtain ⟨before, item, after, rfl, hBefore, hRemoves⟩ := ih.mp hLater.2
        exact ⟨first :: before, item, after, rfl,
          List.forall_mem_cons.mpr ⟨hLater.1, hBefore⟩, hRemoves⟩
    · rintro ⟨before, item, after, hItems, hBefore, hRemoves⟩
      cases before with cases hItems
      | nil => exact Or.inl hRemoves
      | cons other before =>
        obtain ⟨hFirst, hBefore⟩ := List.forall_mem_cons.mp hBefore
        exact Or.inr ⟨hFirst, ih.mpr ⟨before, item, after, rfl, hBefore, hRemoves⟩⟩

end Compose

/-- Runs the body and commits; the rows are those of before if either fails. -/
def inSession (setRows : ρ → σ → σ) (rows : σ → ρ) (commitFails : Bool)
    (body : EStateM ε σ Unit) (state : σ) : σ :=
  match body state with
  | .ok _ after => if commitFails then setRows (rows state) after else after
  | .error _ after => setRows (rows state) after

section Session

variable {rows : σ → ρ} {has : σ → φ → Prop} {setRows : ρ → σ → σ} {body : EStateM ε σ Unit}
  {returns : ρ → Prop} {next : ρ → ρ} {removes : ρ → φ → Prop}

section

variable (hEffect : Effect rows has body returns next removes)
include hEffect

theorem Effect.rows_committed {state : σ} (hReturns : returns (rows state)) :
    rows (inSession setRows rows false body state) = next (rows state) := by
  have hReturned := (hEffect.returned state).mpr hReturns
  have hNext := hEffect.rows_eq state hReturned
  unfold inSession
  cases hRun : body state with
  | ok value after =>
    rw [hRun] at hNext
    exact hNext
  | error raised after =>
    rw [hRun] at hReturned
    exact False.elim hReturned

theorem Effect.rows_rolledBack
    (hRows : ∀ start state, rows (setRows start state) = start) {commitFails : Bool} {state : σ}
    (hFails : ¬(returns (rows state) ∧ commitFails = false)) :
    rows (inSession setRows rows commitFails body state) = rows state := by
  have hReturned := hEffect.returned state
  unfold inSession
  cases hRun : body state with
  | ok value after =>
    rw [hRun] at hReturned
    have hCommit : commitFails ≠ false := fun hCommit => hFails ⟨hReturned.mp trivial, hCommit⟩
    simp only [hCommit]
    exact hRows _ _
  | error raised after => exact hRows _ _

theorem Effect.has_inSession
    (hHas : ∀ start state file, has (setRows start state) file ↔ has state file)
    (commitFails : Bool) (state : σ) (file : φ) :
    has (inSession setRows rows commitFails body state) file ↔
      has state file ∧ ¬removes (rows state) file := by
  have hEnd := hEffect.has_iff state file
  unfold inSession
  cases hRun : body state with rw [hRun] at hEnd
  | ok value after =>
    cases commitFails with
    | false => exact hEnd
    | true => exact (hHas _ _ _).trans hEnd
  | error raised after => exact (hHas _ _ _).trans hEnd

theorem Effect.inSession_agrees_iff (hRows : ∀ start state, rows (setRows start state) = start)
    (hHas : ∀ start state file, has (setRows start state) file ↔ has state file)
    (commitFails : Bool) (state : σ) {Refers : ρ → φ → Prop}
    (hOwn : ∀ file, removes (rows state) file → Refers (rows state) file) :
    (∀ file, has state file → ¬has (inSession setRows rows commitFails body state) file →
        ¬Refers (rows (inSession setRows rows commitFails body state)) file) ↔
      (returns (rows state) ∧ commitFails = false →
        ∀ file, has state file → removes (rows state) file → ¬Refers (next (rows state)) file) ∧
      (¬(returns (rows state) ∧ commitFails = false) →
        ∀ file, has state file → ¬removes (rows state) file) := by
  -- A file is gone exactly if the body removed it.
  have hGone : ∀ file, has state file →
      (¬has (inSession setRows rows commitFails body state) file ↔ removes (rows state) file) := by
    intro file hFile
    rw [hEffect.has_inSession hHas, not_and_not_right, imp_iff_right hFile]
  by_cases hCommits : returns (rows state) ∧ commitFails = false
  · obtain ⟨hReturns, rfl⟩ := hCommits
    rw [hEffect.rows_committed hReturns]
    constructor
    · intro hAgrees
      refine ⟨fun _ file hFile hRemoves => ?_, fun hNot => absurd ⟨hReturns, rfl⟩ hNot⟩
      exact hAgrees file hFile ((hGone file hFile).mpr hRemoves)
    · rintro ⟨hUnshared, -⟩ file hFile hNot
      exact hUnshared ⟨hReturns, rfl⟩ file hFile ((hGone file hFile).mp hNot)
  · rw [hEffect.rows_rolledBack hRows hCommits]
    constructor
    · intro hAgrees
      refine ⟨fun hBoth => absurd hBoth hCommits, fun _ file hFile hRemoves => ?_⟩
      exact hAgrees file hFile ((hGone file hFile).mpr hRemoves) (hOwn file hRemoves)
    · rintro ⟨-, hNone⟩ file hFile hNot
      exact absurd ((hGone file hFile).mp hNot) (hNone hCommits file hFile)

end

end Session

end TimelapseManager.Transaction
