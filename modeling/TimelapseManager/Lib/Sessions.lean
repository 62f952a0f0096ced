import TimelapseManager.Lib.Runs

/-!
# Sessions of a single-writer store

A session is a program of accesses to a shared store.  Before its first write it reads the latest
committed state and holds nothing; from its first write to its commit it is the only writer, and it
works on its own pending state.  Named locks may be taken on top.

* `ReadsCurrent` is the side condition under which interleaving is harmless: what a session has
  read is still what the store answers when the session starts to write.
* `committed_of_serial`: what lone runs preserve, interleaved runs preserve.
-/

namespace TimelapseManager.Sessions

open Runs

/-! ## Programs -/

/-- Accesses to a store `σ` with locks `κ`, failing with `ε` or returning `α`. -/
inductive Program (σ κ ε α : Type) : Type 1
  | done (value : α)
  | fail (error : ε)
  | acquire (key : κ) (next : Program σ κ ε α)
  | read {β : Type} (query : σ → β) (next : β → Program σ κ ε α)
  | write (change : σ → Except ε σ) (next : Program σ κ ε α)

namespace Program

variable {σ κ ε α β : Type}

def bind : Program σ κ ε α → (α → Program σ κ ε β) → Program σ κ ε β
  | done value, rest => rest value
  | fail error, _ => fail error
  | acquire key next, rest => acquire key (next.bind rest)
  | read query next, rest => read query fun answer => (next answer).bind rest
  | write change next, rest => write change (next.bind rest)

instance : Monad (Program σ κ ε) where
  pure := done
  bind := bind

def ask (query : σ → α) : Program σ κ ε α :=
  read query done

def change (update : σ → Except ε σ) : Program σ κ ε Unit :=
  write update (done ())

def lock (key : κ) : Program σ κ ε Unit :=
  acquire key (done ())

/-- The program alone on a store: every access sees the store as the program left it. -/
def run : Program σ κ ε α → σ → Except ε (α × σ)
  | done value, store => .ok (value, store)
  | fail error, _ => .error error
  | acquire _ next, store => next.run store
  | read query next, store => (next (query store)).run store
  | write update next, store =>
    match update store with
    | .ok changed => next.run changed
    | .error error => .error error

theorem run_change {update : σ → Except ε σ} {store changed : σ} {value : Unit}
    (hRun : (change update : Program σ κ ε Unit).run store = .ok (value, changed)) :
    update store = .ok changed := by
  unfold change run at hRun
  split at hRun
  next hUpdate =>
    cases hRun
    exact hUpdate
  next => cases hRun

theorem run_bind {first : Program σ κ ε α} {rest : α → Program σ κ ε β} {store last : σ}
    {value : β} :
    (first >>= rest).run store = .ok (value, last) ↔
      ∃ middle between, first.run store = .ok (middle, between) ∧
        (rest middle).run between = .ok (value, last) := by
  change (first.bind rest).run store = _ ↔ _
  induction first generalizing store with
  | done middle =>
    constructor
    · intro hRest
      exact ⟨middle, store, rfl, hRest⟩
    · rintro ⟨_, _, hDone, hRest⟩
      cases hDone
      exact hRest
  | fail error =>
    constructor
    · intro hFail
      cases hFail
    · rintro ⟨_, _, hFail, -⟩
      cases hFail
  | acquire key next ih => exact ih
  | read query next ih => exact ih (query store)
  | write update next ih =>
    simp only [bind, run]
    cases update store with
    | error error => simp
    | ok changed => exact ih

end Program

/-! ## Interleaved sessions -/

section Steps

variable {σ κ ε α ρ : Type} [DecidableEq κ]

/-- An open session.  `pending` is the state of its transaction from its first write on;
`origin` and `current` are only there to be talked about: the whole program, and the
states that answer every read before the first write the way it was answered. -/
structure Session (σ κ ε α : Type) where
  origin : Program σ κ ε α
  program : Program σ κ ε α
  pending : Option σ
  current : σ → Prop

structure World (σ κ ε α : Type) where
  committed : σ
  session : ℕ → Option (Session σ κ ε α)
  writer : Option ℕ
  holder : κ → Option ℕ

inductive Label (ρ : Type)
  | opens (sid : ℕ) (request : ρ)
  | advance (sid : ℕ)
  | commit (sid : ℕ)
  | abort (sid : ℕ)

namespace World

def idle (store : σ) : World σ κ ε α where
  committed := store
  session := fun _ => none
  writer := none
  holder := fun _ => none

def put (world : World σ κ ε α) (sid : ℕ) (session : Session σ κ ε α) : World σ κ ε α :=
  { world with session := Function.update world.session sid (some session) }

/-- The session ends and gives up what it holds; nothing of its transaction stays. -/
def close (world : World σ κ ε α) (sid : ℕ) : World σ κ ε α where
  committed := world.committed
  session := Function.update world.session sid none
  writer := if world.writer = some sid then none else world.writer
  holder := fun key => if world.holder key = some sid then none else world.holder key

def access (world : World σ κ ε α) (sid : ℕ) (session : Session σ κ ε α) : Option (World σ κ ε α) :=
  match session.program with
  | .done _ => none
  | .fail _ => some (world.close sid)
  | .acquire key next =>
    if world.holder key = none ∨ world.holder key = some sid then
      some { world.put sid { session with program := next } with
        holder := Function.update world.holder key (some sid) }
    else none
  | .read query next =>
    match session.pending with
    | none =>
      some (world.put sid { session with
        program := next (query world.committed)
        current := fun store =>
          session.current store ∧ query store = query world.committed })
    | some store => some (world.put sid { session with program := next (query store) })
  | .write update next =>
    if world.writer = none ∨ world.writer = some sid then
      match update (session.pending.getD world.committed) with
      | .error _ => some (world.close sid)
      | .ok changed =>
        some { world.put sid { session with program := next, pending := some changed } with
          writer := some sid }
    else none

end World

/-- One step of one session; a request is served by its program. -/
def sessionStep (serve : ρ → Program σ κ ε α) (world : World σ κ ε α) :
    Label ρ → Option (World σ κ ε α)
  | .opens sid request =>
    match world.session sid with
    | some _ => none
    | none => some (world.put sid ⟨serve request, serve request, none, fun _ => True⟩)
  | .advance sid => (world.session sid).bind fun session => world.access sid session
  | .commit sid =>
    match world.session sid with
    | some ⟨_, .done _, pending, _⟩ =>
      some { world.close sid with committed := pending.getD world.committed }
    | _ => none
  | .abort sid => (world.session sid).map fun _ => world.close sid

abbrev SessionStep (serve : ρ → Program σ κ ε α) := Steps (sessionStep serve)

def Session.StartsWriting (session : Session σ κ ε α) : Prop :=
  session.pending = none ∧ ∃ update next, session.program = .write update next

/-- When a session starts to write, the store still answers what it answered before. -/
def ReadsCurrent (world : World σ κ ε α) (label : Label ρ) : Prop :=
  ∀ sid session, label = .advance sid → world.session sid = some session →
    session.StartsWriting → session.current world.committed

end Steps

/-! ## Every open session is on the way of its lone run -/

section Invariant

variable {σ κ ε α ρ : Type} {world next : World σ κ ε α} {sid other : ℕ}
  {session : Session σ κ ε α} {serve : ρ → Program σ κ ε α}

/-- Before the first write the rest of the program goes on from every state that answers
the reads alike; from then on it goes on from the pending state, as the lone run would
from the committed one. -/
structure OnTheWay (world : World σ κ ε α) (sid : ℕ) (session : Session σ κ ε α) : Prop where
  reading : session.pending = none → world.writer ≠ some sid ∧
    ∀ store, session.current store → session.origin.run store = session.program.run store
  writing : ∀ store, session.pending = some store → world.writer = some sid ∧
    session.origin.run world.committed = session.program.run store

structure SessionsInv (serve : ρ → Program σ κ ε α) (world : World σ κ ε α) : Prop where
  onTheWay : ∀ sid session, world.session sid = some session → OnTheWay world sid session
  served : ∀ sid session, world.session sid = some session →
    ∃ request, session.origin = serve request
  writerOpen : ∀ sid, world.writer = some sid → world.session sid ≠ none

theorem idle_inv (store : σ) : SessionsInv serve (World.idle store : World σ κ ε α) where
  onTheWay := nofun
  served := nofun
  writerOpen := nofun

theorem OnTheWay.frame (hWay : OnTheWay world other session)
    (hWriter : next.writer = some other ↔ world.writer = some other)
    (hCommitted : world.writer = some other → next.committed = world.committed) :
    OnTheWay next other session := by
  constructor
  · intro hPending
    obtain ⟨hNot, hRuns⟩ := hWay.reading hPending
    exact ⟨fun hIs => hNot (hWriter.mp hIs), hRuns⟩
  · intro store hPending
    obtain ⟨hIs, hRun⟩ := hWay.writing store hPending
    rw [hCommitted hIs]
    exact ⟨hWriter.mpr hIs, hRun⟩

section

variable (hWay : OnTheWay world sid session)
include hWay

/-- A lock changes nothing a lone run sees. -/
theorem OnTheWay.acquire {key : κ} {rest : Program σ κ ε α}
    (hProgram : session.program = .acquire key rest) :
    OnTheWay world sid { session with program := rest } := by
  constructor
  · intro hPending
    obtain ⟨hNot, hRuns⟩ := hWay.reading hPending
    refine ⟨hNot, fun store hStore => ?_⟩
    rw [hRuns store hStore, hProgram]
    rfl
  · intro store hPending
    obtain ⟨hIs, hRun⟩ := hWay.writing store hPending
    refine ⟨hIs, ?_⟩
    rw [hRun, hProgram]
    rfl

/-- A state that answers the read alike goes on with the same program. -/
theorem OnTheWay.readCommitted {β : Type} {query : σ → β} {rest : β → Program σ κ ε α}
    (hProgram : session.program = .read query rest) (hPending : session.pending = none) :
    OnTheWay world sid { session with
      program := rest (query world.committed)
      current := fun store => session.current store ∧ query store = query world.committed } := by
  obtain ⟨hNot, hRuns⟩ := hWay.reading hPending
  constructor
  · intro _
    refine ⟨hNot, fun store hStore => ?_⟩
    rw [hRuns store hStore.1, hProgram, ← hStore.2]
    rfl
  · intro store hSome
    rw [hPending] at hSome
    cases hSome

theorem OnTheWay.readPending {β : Type} {query : σ → β} {rest : β → Program σ κ ε α} {store : σ}
    (hProgram : session.program = .read query rest) (hPending : session.pending = some store) :
    OnTheWay world sid { session with program := rest (query store) } := by
  obtain ⟨hIs, hRun⟩ := hWay.writing store hPending
  constructor
  · intro hNone
    rw [hPending] at hNone
    cases hNone
  · intro other hSome
    cases hPending.symm.trans hSome
    refine ⟨hIs, ?_⟩
    rw [hRun, hProgram]
    rfl

/-- The first write starts from what was read, a later one from the pending state. -/
theorem OnTheWay.write {update : σ → Except ε σ} {rest : Program σ κ ε α} {changed : σ}
    (hProgram : session.program = .write update rest)
    (hCurrent : session.StartsWriting → session.current world.committed)
    (hUpdate : update (session.pending.getD world.committed) = .ok changed) :
    OnTheWay { world with writer := some sid } sid
      { session with program := rest, pending := some changed } := by
  constructor
  · intro hNone
    cases hNone
  · intro store hSome
    cases hSome
    refine ⟨rfl, ?_⟩
    have hRest : session.program.run (session.pending.getD world.committed) =
        rest.run changed := by
      rw [hProgram, Program.run, hUpdate]
    rw [← hRest]
    cases hPending : session.pending with
    | none => exact (hWay.reading hPending).2 _ (hCurrent ⟨hPending, update, rest, hProgram⟩)
    | some pending => exact (hWay.writing pending hPending).2

end

section

variable (hInv : SessionsInv serve world)
include hInv

theorem SessionsInv.update (sid : ℕ)
    (hSession : ∀ other, other ≠ sid → next.session other = world.session other)
    (hWriter : ∀ other, other ≠ sid → (next.writer = some other ↔ world.writer = some other))
    (hCommitted : ∀ other, other ≠ sid → world.writer = some other →
      next.committed = world.committed) (hSelf : ∀ session, next.session sid = some session →
      OnTheWay next sid session ∧ ∃ request, session.origin = serve request)
    (hWriterOpen : next.writer = some sid → next.session sid ≠ none) : SessionsInv serve next := by
  constructor
  · intro other session hOpen
    by_cases hOther : other = sid
    · subst hOther
      exact (hSelf session hOpen).1
    · rw [hSession other hOther] at hOpen
      exact (hInv.onTheWay other session hOpen).frame (hWriter other hOther)
        (hCommitted other hOther)
  · intro other session hOpen
    by_cases hOther : other = sid
    · subst hOther
      exact (hSelf session hOpen).2
    · rw [hSession other hOther] at hOpen
      exact hInv.served other session hOpen
  · intro other hIs
    by_cases hOther : other = sid
    · subst hOther
      exact hWriterOpen hIs
    · rw [hSession other hOther]
      exact hInv.writerOpen other ((hWriter other hOther).mp hIs)

theorem close_inv (sid : ℕ) {store : σ}
    (hStore : world.writer ≠ some sid → store = world.committed) :
    SessionsInv serve { world.close sid with committed := store } := by
  apply hInv.update sid
  · intro other hOther
    exact Function.update_of_ne hOther _ _
  · intro other hOther
    show (if world.writer = some sid then none else world.writer) = some other ↔ _
    split
    next hIs =>
      rw [hIs]
      constructor
      · intro hNone
        cases hNone
      · intro hSame
        exact absurd (Option.some.inj hSame).symm hOther
    next => exact Iff.rfl
  · intro other hOther hIs
    apply hStore
    rw [hIs]
    intro hSame
    exact hOther (Option.some.inj hSame)
  · intro session hOpen
    change Function.update world.session sid none sid = some session at hOpen
    rw [Function.update_self] at hOpen
    cases hOpen
  · intro hIs
    change (if world.writer = some sid then none else world.writer) = some sid at hIs
    split at hIs
    next => cases hIs
    next hNot => exact absurd hIs hNot

theorem put_inv [DecidableEq κ] (sid : ℕ)
    {session : Session σ κ ε α} {writer : Option ℕ} {holder : κ → Option ℕ}
    (hWriter : ∀ other, other ≠ sid → (writer = some other ↔ world.writer = some other))
    (hWay : OnTheWay { world with writer := writer } sid session)
    (hServed : ∃ request, session.origin = serve request) :
    SessionsInv serve { world.put sid session with writer := writer, holder := holder } := by
  apply hInv.update sid
  · intro other hOther
    exact Function.update_of_ne hOther _ _
  · exact hWriter
  · intro other _ _
    rfl
  · intro after hOpen
    change Function.update world.session sid (some session) sid = some after at hOpen
    rw [Function.update_self] at hOpen
    cases hOpen
    exact ⟨hWay.frame Iff.rfl fun _ => rfl, hServed⟩
  · intro _
    change Function.update world.session sid (some session) sid ≠ none
    rw [Function.update_self]
    exact Option.some_ne_none session

omit hInv in
theorem writer_of_free (hFree : world.writer = none ∨ world.writer = some sid) (other : ℕ)
    (hOther : other ≠ sid) : some sid = some other ↔ world.writer = some other := by
  constructor
  · intro hSame
    exact absurd (Option.some.inj hSame).symm hOther
  · intro hIs
    rcases hFree with hNone | hSelf
    · rw [hNone] at hIs
      cases hIs
    · exact hSelf.symm.trans hIs

/-- Every access of a session leaves it on its way, and the committed state as it is. -/
theorem access_inv [DecidableEq κ] (hOpen : world.session sid = some session)
    (hCurrent : session.StartsWriting → session.current world.committed)
    (hStep : world.access sid session = some next) :
    SessionsInv serve next ∧ next.committed = world.committed := by
  have hWay := hInv.onTheWay sid session hOpen
  have hServed := hInv.served sid session hOpen
  unfold World.access at hStep
  split at hStep
  next => cases hStep
  next =>
    cases hStep
    exact ⟨close_inv hInv sid fun _ => rfl, rfl⟩
  next key rest hProgram =>
    split at hStep
    next =>
      cases hStep
      exact ⟨put_inv hInv sid (fun _ _ => Iff.rfl) (hWay.acquire hProgram) hServed, rfl⟩
    next => cases hStep
  next query rest hProgram =>
    split at hStep
    next hPending =>
      cases hStep
      have hNext := hWay.readCommitted hProgram hPending
      exact ⟨put_inv hInv sid (fun _ _ => Iff.rfl) hNext hServed, rfl⟩
    next pending hPending =>
      cases hStep
      have hNext := hWay.readPending hProgram hPending
      exact ⟨put_inv hInv sid (fun _ _ => Iff.rfl) hNext hServed, rfl⟩
  next update rest hProgram =>
    split at hStep
    next hFree =>
      split at hStep
      next =>
        cases hStep
        exact ⟨close_inv hInv sid fun _ => rfl, rfl⟩
      next changed hUpdate =>
        cases hStep
        have hNext := hWay.write hProgram hCurrent hUpdate
        exact ⟨put_inv hInv sid (writer_of_free hFree) hNext hServed, rfl⟩
    next => cases hStep

end

theorem sessionStep_inv [DecidableEq κ] {Good : σ → Prop}
    (hSerial : ∀ request store value after, Good store →
      (serve request).run store = .ok (value, after) → Good after)
    {label : Label ρ} (hStep : SessionStep serve world label next)
    (hCurrent : ReadsCurrent world label) (hInv : SessionsInv serve world)
    (hGood : Good world.committed) : SessionsInv serve next ∧ Good next.committed := by
  unfold SessionStep Steps at hStep
  cases label with simp only [sessionStep] at hStep
  | opens sid request =>
    split at hStep
    next => cases hStep
    next hClosed =>
      cases hStep
      refine ⟨put_inv hInv sid (fun _ _ => Iff.rfl) ?_ ⟨request, rfl⟩, hGood⟩
      constructor
      · intro _
        exact ⟨fun hIs => hInv.writerOpen sid hIs hClosed, fun _ _ => rfl⟩
      · intro store hSome
        cases hSome
  | advance sid =>
    obtain ⟨session, hOpen, hAccess⟩ := Option.bind_eq_some_iff.mp hStep
    have hNext := access_inv hInv hOpen (hCurrent sid session rfl hOpen) hAccess
    rw [hNext.2]
    exact ⟨hNext.1, hGood⟩
  | commit sid =>
    split at hStep
    next origin value pending current hOpen =>
      cases hStep
      have hWay := hInv.onTheWay sid _ hOpen
      cases pending with
      | none => exact ⟨close_inv hInv sid fun _ => rfl, hGood⟩
      -- The only case that changes the store: the session is the writer, and its program has run
      -- on the store as it is.
      | some store =>
        obtain ⟨hIs, hRun⟩ := hWay.writing store rfl
        refine ⟨close_inv hInv sid fun hNot => absurd hIs hNot, ?_⟩
        obtain ⟨request, hOrigin⟩ := hInv.served sid _ hOpen
        rw [hOrigin] at hRun
        exact hSerial request _ _ _ hGood hRun
    next => cases hStep
  | abort sid =>
    obtain ⟨session, -, rfl⟩ := Option.map_eq_some_iff.mp hStep
    exact ⟨close_inv hInv sid fun _ => rfl, hGood⟩

theorem committed_of_serial [DecidableEq κ] (Good : σ → Prop)
    (hSerial : ∀ request store value after, Good store →
      (serve request).run store = .ok (value, after) → Good after)
    {store : σ} (hStore : Good store) {labels : List (Label ρ)} {last : World σ κ ε α}
    (hRun : Run (Guarded (SessionStep serve) ReadsCurrent) (.idle store) labels last) :
    Good last.committed := by
  have hBoth : SessionsInv serve last ∧ Good last.committed := by
    apply Run.invariant (fun world => SessionsInv serve world ∧ Good world.committed) _ hRun
      ⟨idle_inv store, hStore⟩
    intro before label after hBefore hStep
    exact sessionStep_inv hSerial hStep.1 hStep.2 hBefore.1 hBefore.2
  exact hBoth.2

end Invariant

/-! ## Single steps with current reads -/

section Current

variable {σ κ ε α ρ : Type} {world : World σ κ ε α} {sid : ℕ} {session : Session σ κ ε α}

theorem readsCurrent_advance (hOpen : world.session sid = some session)
    (hCurrent : session.StartsWriting → session.current world.committed) :
    ReadsCurrent world (.advance sid : Label ρ) := by
  intro other found hSame hFound hStarts
  cases hSame
  cases hOpen.symm.trans hFound
  exact hCurrent hStarts

/-- An access before the first write asks for nothing. -/
theorem readsCurrent_of_not_write (hOpen : world.session sid = some session)
    (hProgram : ∀ update next, session.program ≠ .write update next) :
    ReadsCurrent world (.advance sid : Label ρ) := by
  refine readsCurrent_advance hOpen ?_
  rintro ⟨-, update, next, hWrite⟩
  exact absurd hWrite (hProgram update next)

end Current

end TimelapseManager.Sessions
