import TimelapseManager.Lib.Runs

/-!
# Cached camera sessions

`CameraSessionRegistry` keeps one loaded session per camera.  A load runs off the loop; while it
does, the camera may be invalidated or a reconcile pass may observe another version of its rows.
A session that holds, or was refused, the default login is checked again at each use, which may
suspend the caller between its look into the cache and its answer.

`Current` is what every run keeps: a cached session has the version that is known, a session
answered from the cache had the version known when the call looked, and the load lock is held by
the one call that loads.
-/

namespace TimelapseManager.Capture.CameraSessions

open Runs
open Function (update update_of_ne update_self)

/-- What a session was built with: credentials of its own or none, the bound default, or
nothing because the default was withheld. -/
inductive Login
  | own
  | default
  | withheld
  deriving DecidableEq

structure Session (Version : Type) where
  id : ℕ
  version : Option Version
  login : Login
  deriving DecidableEq

/-- Where a call of `get` is.  A call that looked into the cache remembers the version that was
known then. -/
inductive Phase (Version : Type)
  | unused
  | checking (session : Session Version) (seen : Option Version)
  | waiting
  | loading (generation : ℕ)
  | fromCache (session : Session Version) (seen : Option Version)
  | fromLoad (session : Session Version)
  | failed
  deriving DecidableEq

/-- The call may be inside the `async with lock` block. -/
def Phase.mayLock {Version : Type} : Phase Version → Bool
  | .checking _ _ => true
  | .loading _ => true
  | _ => false

structure Get (Version : Type) where
  camera : ℕ
  phase : Phase Version

/-- The registry and the calls in progress.  `known` is the dictionary of the last reconcile
pass, in which a camera may be missing or have no version. -/
structure Registry (Version : Type) where
  sessions : ℕ → Option (Session Version)
  generations : ℕ → Option ℕ
  known : ℕ → Option (Option Version)
  lockedBy : ℕ → Option ℕ
  gets : ℕ → Get Version
  decidedAt : ℕ → ℚ
  clock : ℚ
  loads : ℕ

/-- What the loader gives: no such camera, a credential that cannot be decrypted, or a
configuration with its version and its login. -/
inductive Loaded (Version : Type)
  | missing
  | undecryptable
  | config (version : Option Version) (login : Login)

/-- What a call of `get` does next: it starts, gets the load lock it waited for, hears the answer
to its binding question, has its load end, or is cancelled. -/
inductive Action (Version : Type)
  | start (camera : ℕ)
  | lock
  | bound (stillBound : Bool)
  | load (loaded : Loaded Version)
  | cancel

/-- A call goes on, others use the registry, or time passes. -/
inductive Label (Version : Type)
  | act (call : ℕ) (action : Action Version)
  | invalidate (camera : ℕ)
  | invalidateAll
  | observe (versions : ℕ → Option (Option Version))
  | tick (now : ℚ)

def withheldRecheckSeconds : ℚ := 15

namespace Registry

variable {Version : Type}

def initial (clock : ℚ) : Registry Version where
  sessions := fun _ => none
  generations := fun _ => none
  known := fun _ => none
  lockedBy := fun _ => none
  gets := fun _ => ⟨0, .unused⟩
  decidedAt := fun _ => 0
  clock := clock
  loads := 0

section

variable (registry : Registry Version)

def generation (camera : ℕ) : ℕ :=
  (registry.generations camera).getD 0

def knownVersion (camera : ℕ) : Option Version :=
  (registry.known camera).join

def invalidate (camera : ℕ) : Registry Version :=
  { registry with
    sessions := update registry.sessions camera none
    generations := update registry.generations camera (some (registry.generation camera + 1)) }

/-- `invalidate_all`: once for a cached session, and once more for a generation. -/
def invalidateAll : Registry Version :=
  { registry with
    sessions := fun _ => none
    generations := fun camera =>
      match registry.sessions camera, registry.generations camera with
      | none, none => none
      | some _, none => some 1
      | none, some generation => some (generation + 1)
      | some _, some generation => some (generation + 2) }

/-- What a call does that found no session it may use: it waits for the load lock, or, with the
lock, starts a load. -/
def missed (call camera : ℕ) : Phase Version :=
  if registry.lockedBy camera = some call then .loading (registry.generation camera) else .waiting

/-- A look into the cache, up to the answer or to the question about the default login. -/
def lookUp (call camera : ℕ) : Registry Version × Get Version :=
  let seen := registry.knownVersion camera
  match registry.sessions camera with
  | none => (registry, ⟨camera, registry.missed call camera⟩)
  | some session =>
    match session.login with
    | .own => (registry, ⟨camera, .fromCache session seen⟩)
    | .default => (registry, ⟨camera, .checking session seen⟩)
    | .withheld =>
      if registry.clock - registry.decidedAt session.id < withheldRecheckSeconds then
        (registry, ⟨camera, .fromCache session seen⟩)
      else
        ({ registry with decidedAt := update registry.decidedAt session.id registry.clock },
          ⟨camera, .checking session seen⟩)

/-- The call goes on.  Outside the `async with lock` block it has no lock. -/
def become (call : ℕ) (get : Get Version) : Registry Version :=
  { registry with
    gets := update registry.gets call get
    lockedBy := fun camera =>
      if get.phase.mayLock = false ∧ registry.lockedBy camera = some call then none
      else registry.lockedBy camera }

/-- The call enters the `async with lock` block. -/
def takeLock (call camera : ℕ) : Registry Version :=
  { registry with lockedBy := update registry.lockedBy camera (some call) }

/-- Whether a session may keep its credentials, once the binding question is answered. -/
def holds (login : Login) (stillBound : Bool) : Bool :=
  match login with
  | .own => true
  | .default => stillBound
  | .withheld => !stillBound

end

variable [DecidableEq Version] (registry : Registry Version)

/-- Whether a reconcile pass drops a camera's session: unless the camera is in use with the
session's version. -/
def drops (versions : ℕ → Option (Option Version)) (camera : ℕ) : Bool :=
  match registry.sessions camera with
  | none => false
  | some session => versions camera ≠ some session.version

def observe (versions : ℕ → Option (Option Version)) : Registry Version :=
  { registry with
    known := versions
    sessions := fun camera =>
      if registry.drops versions camera then none else registry.sessions camera
    generations := fun camera =>
      if registry.drops versions camera then some (registry.generation camera + 1)
      else registry.generations camera }

def mayStore (camera generation : ℕ) (version : Option Version) : Bool :=
  registry.generation camera = generation &&
    (registry.knownVersion camera = none || registry.knownVersion camera = version)

/-- The rest of `_binding_holds` and of `get` after the question. -/
def answer (call camera : ℕ) (session : Session Version) (seen : Option Version)
    (stillBound : Bool) : Registry Version × Get Version :=
  if holds session.login stillBound then (registry, ⟨camera, .fromCache session seen⟩)
  else
    let registry :=
      if registry.sessions camera = some session then registry.invalidate camera else registry
    (registry, ⟨camera, registry.missed call camera⟩)

/-- The rest of `_load_session` after the load. -/
def store (camera generation : ℕ) (version : Option Version) (login : Login) :
    Registry Version × Get Version :=
  let session : Session Version := ⟨registry.loads + 1, version, login⟩
  ({ registry with
      sessions :=
        if registry.mayStore camera generation version then
          update registry.sessions camera (some session)
        else registry.sessions
      decidedAt := update registry.decidedAt session.id registry.clock
      loads := registry.loads + 1 }, ⟨camera, .fromLoad session⟩)

/-- A step of a call: what it does to the registry, and where the call goes on. -/
def act (call : ℕ) (action : Action Version) : Option (Registry Version × Get Version) :=
  let camera := (registry.gets call).camera
  match action, (registry.gets call).phase with
  | .start camera, .unused => some (registry.lookUp call camera)
  | .lock, .waiting =>
    if registry.lockedBy camera = none then
      some ((registry.takeLock call camera).lookUp call camera)
    else none
  | .bound stillBound, .checking session seen =>
    some (registry.answer call camera session seen stillBound)
  | .load .missing, .loading _ => some (registry, ⟨camera, .failed⟩)
  | .load .undecryptable, .loading _ => some (registry, ⟨camera, .failed⟩)
  | .load (.config version login), .loading generation =>
    some (registry.store camera generation version login)
  | .cancel, .checking _ _ => some (registry, ⟨camera, .failed⟩)
  | .cancel, .waiting => some (registry, ⟨camera, .failed⟩)
  | .cancel, .loading _ => some (registry, ⟨camera, .failed⟩)
  | _, _ => none

def step : Label Version → Option (Registry Version)
  | .act call action =>
    (registry.act call action).map fun moved => moved.1.become call moved.2
  | .invalidate camera => some (registry.invalidate camera)
  | .invalidateAll => some registry.invalidateAll
  | .observe versions => some (registry.observe versions)
  | .tick now => if registry.clock ≤ now then some { registry with clock := now } else none

abbrev Steps : Registry Version → Label Version → Registry Version → Prop :=
  Runs.Steps step

end Registry

/-! ## What every run keeps -/

section

variable {Version : Type}

/-- The session has the version that was known, if one was. -/
def Matches (seen : Option Version) (session : Session Version) : Prop :=
  ∀ version, seen = some version → session.version = some version

namespace Registry

/-- What a call may rely on: the version of what it looked up, and its lock while it loads. -/
def Sound (registry : Registry Version) (call camera : ℕ) : Phase Version → Prop
  | .checking session seen => Matches seen session
  | .loading generation =>
    registry.lockedBy camera = some call ∧ generation ≤ registry.generation camera
  | .fromCache session seen => Matches seen session
  | _ => True

def Cached (registry : Registry Version) : Prop :=
  ∀ camera session, registry.sessions camera = some session →
    Matches (registry.knownVersion camera) session

structure Current (registry : Registry Version) : Prop where
  cached : registry.Cached
  calls : ∀ call, registry.Sound call (registry.gets call).camera (registry.gets call).phase

/-- What all but a call's going on keeps: the calls and the locks they hold.  Generations only
grow. -/
structure Keeps (registry after : Registry Version) : Prop where
  gets : after.gets = registry.gets
  locks : ∀ camera call, registry.lockedBy camera = some call → after.lockedBy camera = some call
  generations : ∀ camera, registry.generation camera ≤ after.generation camera

variable {registry base after : Registry Version} {call camera generation : ℕ}
  {get : Get Version} {action : Action Version} {label : Label Version}
  {labels : List (Label Version)} {session : Session Version} {seen : Option Version}
  {phase : Phase Version}

theorem Current.initial (clock : ℚ) : (initial clock : Registry Version).Current where
  cached := nofun
  calls := fun _ => trivial

theorem Sound.mono (hSound : registry.Sound call camera phase)
    (hLock : phase.mayLock = true → registry.lockedBy camera = some call →
      after.lockedBy camera = some call)
    (hGeneration : registry.generation camera ≤ after.generation camera) :
    after.Sound call camera phase := by
  cases phase with
  | loading => exact ⟨hLock rfl hSound.1, hSound.2.trans hGeneration⟩
  | checking | fromCache => exact hSound
  | unused | waiting | fromLoad | failed => trivial

namespace Keeps

theorem refl : Keeps registry registry :=
  ⟨rfl, fun _ _ hLock => hLock, fun _ => Nat.le_refl _⟩

theorem trans {middle : Registry Version} (hFirst : Keeps registry middle)
    (hSecond : Keeps middle after) : Keeps registry after where
  gets := hSecond.gets.trans hFirst.gets
  locks := fun camera call hLock => hSecond.locks camera call (hFirst.locks camera call hLock)
  generations := fun camera => (hFirst.generations camera).trans (hSecond.generations camera)

theorem of_generations (hGets : after.gets = registry.gets)
    (hLocks : after.lockedBy = registry.lockedBy)
    (hGenerations : ∀ camera, registry.generation camera ≤ after.generation camera) :
    Keeps registry after :=
  ⟨hGets, fun camera call hLock => by rw [hLocks, hLock], hGenerations⟩

theorem takeLock (hFree : registry.lockedBy camera = none) :
    Keeps registry (registry.takeLock call camera) := by
  refine ⟨rfl, fun other holder hLock => ?_, fun _ => Nat.le_refl _⟩
  -- The lock was free, so whoever has one has it for another camera.
  have hCamera : other ≠ camera := by
    rintro rfl
    rw [hFree] at hLock
    cases hLock
  exact (update_of_ne hCamera _ _).trans hLock

theorem invalidate (camera : ℕ) : Keeps registry (registry.invalidate camera) := by
  refine .of_generations rfl rfl fun other => ?_
  by_cases hSame : other = camera
  · simp [Registry.invalidate, Registry.generation, hSame]
  · simp [Registry.invalidate, Registry.generation, update_of_ne hSame]

theorem invalidateAll : Keeps registry registry.invalidateAll := by
  refine .of_generations rfl rfl fun camera => ?_
  unfold Registry.invalidateAll Registry.generation
  cases hSession : registry.sessions camera <;> cases hGeneration : registry.generations camera <;>
    simp [hSession, hGeneration]

theorem observe [DecidableEq Version] (versions : ℕ → Option (Option Version)) :
    Keeps registry (registry.observe versions) := by
  refine .of_generations rfl rfl fun camera => ?_
  unfold Registry.observe
  simp only [Registry.generation]
  split
  · exact Nat.le_succ _
  · exact Nat.le_refl _

end Keeps

/-- Where a look into the cache takes a call. -/
def Looks (registry : Registry Version) (call camera : ℕ) (phase : Phase Version) : Prop :=
  match registry.sessions camera with
  | none => phase = registry.missed call camera
  | some session =>
    phase = .fromCache session (registry.knownVersion camera) ∨
      phase = .checking session (registry.knownVersion camera)

theorem looks_of_lookUp (hLook : registry.lookUp call camera = (base, get)) :
    (∃ decidedAt, base = { registry with decidedAt := decidedAt }) ∧ get.camera = camera ∧
      Looks registry call camera get.phase := by
  unfold lookUp at hLook
  unfold Looks
  simp only at hLook
  split at hLook
  · cases hLook
    exact ⟨⟨_, rfl⟩, rfl, rfl⟩
  · split at hLook
    · cases hLook
      exact ⟨⟨_, rfl⟩, rfl, Or.inl rfl⟩
    · cases hLook
      exact ⟨⟨_, rfl⟩, rfl, Or.inr rfl⟩
    · split at hLook
      · cases hLook
        exact ⟨⟨_, rfl⟩, rfl, Or.inl rfl⟩
      · cases hLook
        exact ⟨⟨_, rfl⟩, rfl, Or.inr rfl⟩

/-- Where an action takes a call from a phase.  A call that is over does nothing more. -/
def Goes (base : Registry Version) (action : Action Version) (camera : ℕ) (get : Get Version) :
    Phase Version → Prop
  | .unused | .waiting =>
    ∀ session seen, get.phase = .fromCache session seen → seen = base.knownVersion get.camera
  | .checking session seen =>
    get.phase = .failed ∨ get.phase = .fromCache session seen ∨
      ∃ stillBound, action = .bound stillBound ∧ holds session.login stillBound = false
  | .loading _ =>
    get.camera = camera ∧ (get.phase = .failed ∨ ∃ session, get.phase = .fromLoad session)
  | .fromCache _ _ | .fromLoad _ | .failed => False

/-- What an action of a call does to the registry, and where it takes the call. -/
structure Acted (registry base : Registry Version) (call : ℕ) (action : Action Version)
    (get : Get Version) : Prop where
  keeps : Keeps registry base
  cached : base.Cached
  sound : base.Sound call get.camera get.phase
  goes : Goes base action (registry.gets call).camera get (registry.gets call).phase

theorem sound_missed (registry : Registry Version) (call camera : ℕ) :
    registry.Sound call camera (registry.missed call camera) := by
  unfold missed
  split
  next hLock => exact ⟨hLock, Nat.le_refl _⟩
  · trivial

theorem Cached.invalidate (hCached : registry.Cached) (camera : ℕ) :
    (registry.invalidate camera).Cached := by
  intro other session hSession
  by_cases hSame : other = camera
  · simp [Registry.invalidate, hSame] at hSession
  · simp only [Registry.invalidate, update_of_ne hSame] at hSession
    exact hCached other session hSession

theorem Cached.observe [DecidableEq Version] (versions : ℕ → Option (Option Version)) :
    (registry.observe versions).Cached := by
  intro camera session hSession version hKnown
  unfold Registry.observe at hSession
  simp only at hSession
  split at hSession
  · cases hSession
  next hKeeps =>
    have hSame : versions camera = some session.version := by
      simpa [drops, hSession] using hKeeps
    have hVersion : (versions camera).join = some version := hKnown
    rw [hSame] at hVersion
    exact hVersion

theorem Cached.lookUp (hCached : registry.Cached)
    (hPhase : (registry.gets call).phase = .unused ∨ (registry.gets call).phase = .waiting)
    (hLook : registry.lookUp call camera = (base, get)) :
    Acted registry base call action get := by
  obtain ⟨⟨decidedAt, rfl⟩, rfl, hLooks⟩ := looks_of_lookUp hLook
  have hSound : registry.Sound call get.camera get.phase ∧ ∀ session seen,
      get.phase = .fromCache session seen → seen = registry.knownVersion get.camera := by
    unfold Looks at hLooks
    split at hLooks
    next =>
      rw [hLooks]
      refine ⟨sound_missed _ _ _, fun _ _ hFound => ?_⟩
      unfold missed at hFound
      split at hFound <;> cases hFound
    next session hSession =>
      have hMatches := hCached get.camera session hSession
      rcases hLooks with hFound | hFound
      · rw [hFound]
        exact ⟨hMatches, fun _ _ hSame => by cases hSame; rfl⟩
      · rw [hFound]
        exact ⟨hMatches, nofun⟩
  refine ⟨{ Keeps.refl with }, hCached, hSound.1.mono (fun _ hOwn => hOwn) (Nat.le_refl _), ?_⟩
  rcases hPhase with hUnused | hWaiting
  · rw [hUnused]
    exact hSound.2
  · rw [hWaiting]
    exact hSound.2

namespace Current

section

variable (hCurrent : registry.Current)
include hCurrent

theorem of_keeps (hKeeps : Keeps registry after) (hCached : after.Cached) : after.Current where
  cached := hCached
  calls := by
    intro call
    rw [hKeeps.gets]
    exact (hCurrent.calls call).mono (fun _ => hKeeps.locks _ _) (hKeeps.generations _)

theorem become (hSound : registry.Sound call get.camera get.phase) :
    (registry.become call get).Current where
  cached := hCurrent.cached
  calls := by
    intro other
    by_cases hSame : other = call
    · have hGet : (registry.become call get).gets other = get := by
        rw [hSame]
        exact update_self _ _ _
      rw [hGet, hSame]
      exact hSound.mono (fun hMay hLock => by simp [Registry.become, hMay, hLock])
        (Nat.le_refl _)
    · have hGet : (registry.become call get).gets other = registry.gets other :=
        update_of_ne hSame _ _
      rw [hGet]
      exact (hCurrent.calls other).mono (fun _ hLock => by simp [Registry.become, hLock, hSame])
        (Nat.le_refl _)

variable [DecidableEq Version]

theorem cached_store {version : Option Version} {login : Login} :
    (registry.store camera generation version login).1.Cached := by
  intro other session hSession known hKnown
  unfold Registry.store at hSession
  simp only at hSession
  split at hSession
  next hStore =>
    by_cases hSame : other = camera
    · subst hSame
      simp only [update_self, Option.some.injEq] at hSession
      subst hSession
      simp only [mayStore, Bool.and_eq_true, Bool.or_eq_true, decide_eq_true_eq] at hStore
      rcases hStore.2 with hNone | hVersion
      · exact absurd (hNone.symm.trans hKnown) nofun
      · exact hVersion.symm.trans hKnown
    · rw [update_of_ne hSame] at hSession
      exact hCurrent.cached other session hSession known hKnown
  · exact hCurrent.cached other session hSession known hKnown

theorem answer {stillBound : Bool}
    (hPhase : (registry.gets call).phase = .checking session seen)
    (hAnswer : registry.answer call (registry.gets call).camera session seen stillBound =
      (base, get)) : Acted registry base call (.bound stillBound) get := by
  have hOwn := hCurrent.calls call
  rw [hPhase] at hOwn
  unfold Registry.answer at hAnswer
  split at hAnswer
  · cases hAnswer
    exact ⟨.refl, hCurrent.cached, hOwn, by rw [hPhase]; exact Or.inr (Or.inl rfl)⟩
  next hDenied =>
    have hGoes : Goes base (.bound stillBound) (registry.gets call).camera get
        (registry.gets call).phase := by
      rw [hPhase]
      exact Or.inr (Or.inr ⟨stillBound, rfl, Bool.eq_false_iff.mpr hDenied⟩)
    simp only at hAnswer
    split at hAnswer
    · cases hAnswer
      exact ⟨.invalidate _, hCurrent.cached.invalidate _, sound_missed _ _ _, hGoes⟩
    · cases hAnswer
      exact ⟨.refl, hCurrent.cached, sound_missed _ _ _, hGoes⟩

theorem act (hAct : registry.act call action = some (base, get)) :
    Acted registry base call action get := by
  unfold Registry.act at hAct
  simp only at hAct
  split at hAct
  next hPhase => exact hCurrent.cached.lookUp (Or.inl hPhase) (Option.some.inj hAct)
  next hPhase =>
    obtain ⟨hFree, hLook⟩ := Option.ite_none_right_eq_some.mp hAct
    have hActed : Acted (registry.takeLock call (registry.gets call).camera) base call .lock get :=
      Cached.lookUp hCurrent.cached (Or.inr hPhase) (Option.some.inj hLook)
    exact { hActed with keeps := (Keeps.takeLock hFree).trans hActed.keeps }
  next hPhase => exact hCurrent.answer hPhase (Option.some.inj hAct)
  case h_6 hPhase =>
    cases hAct
    exact ⟨{ Keeps.refl with }, hCurrent.cached_store, trivial,
      by rw [hPhase]; exact ⟨rfl, Or.inr ⟨_, rfl⟩⟩⟩
  case h_4 hPhase | h_5 hPhase | h_9 hPhase =>
    cases hAct
    exact ⟨.refl, hCurrent.cached, trivial, by rw [hPhase]; exact ⟨rfl, Or.inl rfl⟩⟩
  case h_7 hPhase =>
    cases hAct
    exact ⟨.refl, hCurrent.cached, trivial, by rw [hPhase]; exact Or.inl rfl⟩
  case h_8 hPhase =>
    cases hAct
    exact ⟨.refl, hCurrent.cached, trivial, by rw [hPhase]; nofun⟩
  case h_10 => cases hAct

/-- A step is a change of the registry that keeps the calls, after which a call may go on. -/
theorem step_cases (hStep : Steps registry label after) :
    (Keeps registry after ∧ after.Cached) ∨
      ∃ call action base get, label = .act call action ∧ Acted registry base call action get ∧
        after = base.become call get := by
  cases label with
  | act call action =>
    obtain ⟨⟨base, get⟩, hAct, rfl⟩ := Option.map_eq_some_iff.mp hStep
    exact Or.inr ⟨call, action, base, get, rfl, hCurrent.act hAct, rfl⟩
  | invalidate camera =>
    cases hStep
    exact Or.inl ⟨.invalidate camera, hCurrent.cached.invalidate camera⟩
  | invalidateAll =>
    cases hStep
    exact Or.inl ⟨.invalidateAll, nofun⟩
  | observe versions =>
    cases hStep
    exact Or.inl ⟨.observe versions, Cached.observe versions⟩
  | tick =>
    obtain ⟨-, rfl⟩ := of_guard hStep
    exact Or.inl ⟨{ Keeps.refl with }, hCurrent.cached⟩

theorem step (hStep : Steps registry label after) : after.Current := by
  rcases hCurrent.step_cases hStep with ⟨hKeeps, hCached⟩ | ⟨_, _, _, _, -, hActed, rfl⟩
  · exact hCurrent.of_keeps hKeeps hCached
  · exact (hCurrent.of_keeps hActed.keeps hActed.cached).become hActed.sound

theorem generation_le_step (hStep : Steps registry label after) (camera : ℕ) :
    registry.generation camera ≤ after.generation camera := by
  rcases hCurrent.step_cases hStep with ⟨hKeeps, -⟩ | ⟨_, _, _, _, -, hActed, rfl⟩
  · exact hKeeps.generations camera
  · exact hActed.keeps.generations camera

/-- What a step does to one call: nothing, unless the call acts. -/
theorem get_step (hStep : Steps registry label after) (call : ℕ) :
    after.gets call = registry.gets call ∨
      ∃ action, label = .act call action ∧
        Goes after action (registry.gets call).camera (after.gets call)
          (registry.gets call).phase := by
  rcases hCurrent.step_cases hStep with ⟨hKeeps, -⟩ | ⟨other, action, base, get, rfl, hActed, rfl⟩
  · exact Or.inl (by rw [hKeeps.gets])
  · by_cases hSame : call = other
    · subst hSame
      have hGet : (base.become call get).gets call = get := update_self _ _ _
      rw [hGet]
      exact Or.inr ⟨action, rfl, hActed.goes⟩
    · exact Or.inl ((update_of_ne hSame _ _).trans (by rw [hActed.keeps.gets]))

theorem generation_le_run (hRun : Run Steps registry labels after) (camera : ℕ) :
    registry.generation camera ≤ after.generation camera ∧
      (Label.invalidate camera ∈ labels →
        registry.generation camera < after.generation camera) := by
  induction hRun with
  | nil registry => exact ⟨Nat.le_refl _, fun hMem => absurd hMem (by simp)⟩
  | @cons registry middle after label labels hHead _ ih =>
    obtain ⟨hLe, hLt⟩ := ih (hCurrent.step hHead)
    have hStep := hCurrent.generation_le_step hHead camera
    refine ⟨hStep.trans hLe, fun hMem => ?_⟩
    rcases List.mem_cons.mp hMem with rfl | hMem
    · cases hHead
      refine lt_of_lt_of_le ?_ hLe
      simp [Registry.invalidate, Registry.generation]
    · exact lt_of_le_of_lt hStep (hLt hMem)

end

end Current

/-! ## What becomes of a call -/

/-- The call is loading for its camera since the generation, or its load is over. -/
def Loads (registry : Registry Version) (call camera generation : ℕ) : Prop :=
  (registry.gets call).camera = camera ∧
    ((registry.gets call).phase = .loading generation ∨ (registry.gets call).phase = .failed ∨
      ∃ session, (registry.gets call).phase = .fromLoad session)

/-- The call keeps to the session it has found: it asks about it, has answered with it, or was
cancelled. -/
def KeepsTo (session : Session Version) (registry : Registry Version) (call : ℕ) : Prop :=
  (∃ seen, (registry.gets call).phase = .checking session seen) ∨
    (∃ seen, (registry.gets call).phase = .fromCache session seen) ∨
    (registry.gets call).phase = .failed

section

variable [DecidableEq Version] (hCurrent : registry.Current)
include hCurrent

theorem fromCache_step (hStep : Steps registry label after)
    (hBefore : (registry.gets call).phase = .unused ∨ (registry.gets call).phase = .waiting)
    (hAfter : (after.gets call).phase = .fromCache session seen) :
    seen = after.knownVersion (after.gets call).camera := by
  rcases hCurrent.get_step hStep call with hSame | ⟨action, -, hGoes⟩
  · rw [← hSame, hAfter] at hBefore
    simp at hBefore
  · rcases hBefore with hPhase | hPhase
    · rw [hPhase] at hGoes
      exact hGoes session seen hAfter
    · rw [hPhase] at hGoes
      exact hGoes session seen hAfter

theorem Loads.step (hLoads : registry.Loads call camera generation)
    (hStep : Steps registry label after) : after.Loads call camera generation := by
  rcases hCurrent.get_step hStep call with hSame | ⟨action, -, hGoes⟩
  · rw [Loads, hSame]
    exact hLoads
  · obtain ⟨hCamera, hLoading | hFailed | ⟨_, hOver⟩⟩ := hLoads
    · rw [hLoading] at hGoes
      exact ⟨hGoes.1.trans hCamera, Or.inr hGoes.2⟩
    · rw [hFailed] at hGoes
      exact hGoes.elim
    · rw [hOver] at hGoes
      exact hGoes.elim

/-- Only a denial takes a call from the session it has found. -/
theorem KeepsTo.step (hKeeps : KeepsTo session registry call) (hStep : Steps registry label after) :
    KeepsTo session after call ∨
      ∃ stillBound, label = .act call (.bound stillBound) ∧
        holds session.login stillBound = false := by
  rcases hCurrent.get_step hStep call with hSame | ⟨action, rfl, hGoes⟩
  · rw [KeepsTo, hSame]
    exact Or.inl hKeeps
  · rcases hKeeps with ⟨seen, hPhase⟩ | ⟨_, hPhase⟩ | hPhase
    · rw [hPhase] at hGoes
      rcases hGoes with hFailed | hCached | ⟨stillBound, rfl, hDenied⟩
      · exact Or.inl (Or.inr (Or.inr hFailed))
      · exact Or.inl (Or.inr (Or.inl ⟨seen, hCached⟩))
      · exact Or.inr ⟨stillBound, rfl, hDenied⟩
    · rw [hPhase] at hGoes
      exact hGoes.elim
    · rw [hPhase] at hGoes
      exact hGoes.elim

/-- A call that finds a session when it gets the lock loads only after it is denied that very
session. -/
theorem denied_of_loading {middle : Registry Version}
    (hSession : registry.sessions (registry.gets call).camera = some session)
    (hLock : Steps registry (.act call .lock) middle) (hRun : Run Steps middle labels after)
    (hLoading : (after.gets call).phase = .loading generation) :
    ∃ stillBound, Label.act call (.bound stillBound) ∈ labels ∧
      holds session.login stillBound = false := by
  have hMiddle := hCurrent.step hLock
  have hKeeps : KeepsTo session middle call := by
    obtain ⟨⟨base, get⟩, hAct, rfl⟩ := Option.map_eq_some_iff.mp hLock
    cases hPhase : (registry.gets call).phase <;> simp [act, hPhase] at hAct
    obtain ⟨-, -, hLooks⟩ := looks_of_lookUp hAct.2
    have hGet : (base.become call get).gets call = get := update_self _ _ _
    simp only [Looks, takeLock, hSession] at hLooks
    simp only [KeepsTo, hGet]
    rcases hLooks with hCached | hAsks
    · exact Or.inr (Or.inl ⟨_, hCached⟩)
    · exact Or.inl ⟨_, hAsks⟩
  clear hLock hSession hCurrent
  induction hRun with
  | nil => simp [KeepsTo, hLoading] at hKeeps
  | @cons start next stop label labels hHead _ ih =>
    rcases hKeeps.step hMiddle hHead with hNext | ⟨stillBound, rfl, hDenied⟩
    · obtain ⟨stillBound, hMem, hDenied⟩ := ih hLoading (hMiddle.step hHead) hNext
      exact ⟨stillBound, List.mem_cons_of_mem _ hMem, hDenied⟩
    · exact ⟨stillBound, List.mem_cons_self, hDenied⟩

/-- A load that its camera was invalidated under is not installed. -/
theorem invalidated_load {final : Registry Version} {version : Option Version} {login : Login}
    (hCamera : (registry.gets call).camera = camera)
    (hLoading : (registry.gets call).phase = .loading generation)
    (hRun : Run Steps registry labels after) (hInvalidated : Label.invalidate camera ∈ labels ∨
      registry.generation camera ≠ after.generation camera)
    (hLoad : Steps after (.act call (.load (.config version login))) final) :
    final.sessions = after.sessions := by
  obtain ⟨hLe, hLt⟩ := hCurrent.generation_le_run hRun camera
  have hRaised : registry.generation camera < after.generation camera := by
    cases hInvalidated with
    | inl hMem => exact hLt hMem
    | inr hNe => exact Nat.lt_of_le_of_ne hLe hNe
  have hStart : generation ≤ registry.generation camera := by
    have hSound := hCurrent.calls call
    rw [hLoading, hCamera] at hSound
    exact hSound.2
  obtain ⟨-, hSameCamera, hPhase⟩ := hRun.invariant
    (fun registry => registry.Current ∧ registry.Loads call camera generation)
    (fun _ _ _ hBefore hStep => ⟨hBefore.1.step hStep, hBefore.2.step hBefore.1 hStep⟩)
    ⟨hCurrent, hCamera, Or.inl hLoading⟩
  obtain ⟨⟨base, get⟩, hAct, rfl⟩ := Option.map_eq_some_iff.mp hLoad
  rcases hPhase with hStill | hFailed | ⟨_, hOver⟩
  · simp only [act, hStill, hSameCamera, store, Option.some.injEq] at hAct
    cases hAct
    refine if_neg ?_
    simp only [mayStore, Bool.and_eq_true, decide_eq_true_eq]
    omega
  · simp [act, hFailed] at hAct
  · simp [act, hOver] at hAct

end

/-! ## The result -/

/-- A reconcile pass that finds one camera, with one version. -/
def only (camera version : ℕ) : ℕ → Option (Option ℕ) :=
  fun other => if other = camera then some (some version) else none

/-- A load that reads the new rows before the reconcile pass does. -/
def readsAhead : List (Label ℕ) :=
  [.observe (only 7 1), .act 1 (.start 7), .act 1 .lock, .observe (only 7 2),
    .act 1 (.load (.config (some 2) .own))]

/-- A call asks about the default login while the rows of its session change. -/
def asksMeanwhile : List (Label ℕ) :=
  [.observe (only 7 1), .act 1 (.start 7), .act 1 .lock,
    .act 1 (.load (.config (some 1) .default)), .act 2 (.start 7), .observe (only 7 2),
    .act 2 (.bound true)]

def waitsInVain : List (Label ℕ) :=
  [.act 1 (.start 7), .act 1 .lock, .act 2 (.start 7), .invalidate 7,
    .act 1 (.load (.config (some 1) .own)), .act 2 .lock]

end Registry

end

end TimelapseManager.Capture.CameraSessions
