import TimelapseManager.Capture.Reconcile

/-!
# What a reconcile pass leaves behind

The registry is looked at through `faces`: of each registered runner the target, the status of its
task and whether it is stopped.  `PassOk` says what holds of the faces in each phase of a pass; it
is kept by every step on which nothing of the qualifying projects ends by itself, and at the end of
the last phase the supervisor has converged.
-/

namespace TimelapseManager.Capture.Reconcile

open KeyedRows Runs
open Function (update update_of_ne update_self update_apply)

variable {Document : Type}

/-! ## Faces -/

/-- What reconcile decides by, and nothing that a runner changes while it works. -/
structure Face (Document : Type) where
  target : CaptureTarget Document
  task : TaskStatus
  stopped : Bool

def Runner.face (runner : Runner Document) : Face Document :=
  ⟨runner.target, runner.task, runner.stopped⟩

def faces (runners : Dict ℕ (Runner Document)) (project : ℕ) : Option (Face Document) :=
  (Dict.get? runners project).map Runner.face

def launchedFace (target : CaptureTarget Document) : Face Document := ⟨target, .live, false⟩

namespace Face

def Returned (face : Face Document) : Prop := face.task = .returned ∧ face.stopped = true

def Same (face : Face Document) (target : CaptureTarget Document) : Prop :=
  loopAffectingFields face.target = loopAffectingFields target

/-- The runner is live, or will be restarted for its fields. -/
def Attended (face : Face Document) (target : CaptureTarget Document) : Prop :=
  face.Same target → face.task = .live

end Face

variable {mono wedgeThreshold : ℚ} {pass : Pass Document}

theorem task_of_no_problem {runner : Runner Document}
    (hNone : runnerProblem wedgeThreshold mono runner = none) :
    runner.task = .live ∨ runner.face.Returned := by
  unfold runnerProblem at hNone
  cases hTask : runner.task with rw [hTask] at hNone
  | live => exact Or.inl rfl
  | cancelled | raised => cases hNone
  | returned =>
    refine Or.inr ⟨hTask, ?_⟩
    show runner.stopped = true
    by_contra hRunning
    rw [if_neg hRunning] at hNone
    cases hNone

/-! ## The phases of a pass -/

section Phases

variable {seen : ℕ → Option (Face Document)} {qualifying : List (CaptureTarget Document)}

/-- What a phase knows: a fact about every qualifying project and what is registered for it, and
which projects can be registered at all. -/
structure Known (seen : ℕ → Option (Face Document)) (qualifying : List (CaptureTarget Document))
    (fact : CaptureTarget Document → Option (Face Document) → Prop) (others : ℕ → Prop) :
    Prop where
  nodup : (qualifying.map CaptureTarget.projectId).Nodup
  each : ∀ target ∈ qualifying, fact target (seen target.projectId)
  others : ∀ project, seen project ≠ none → others project

section Facts

variable (target : CaptureTarget Document) (found : Option (Face Document))

/-- In the health pass: what was checked is live or will be restarted. -/
def Checked (todo : List ℕ) : Prop :=
  ∀ face, found = some face →
    (face.Returned → ¬ face.Same target) ∧ (target.projectId ∉ todo → face.Attended target)

/-- In the launch pass: what was looked at is registered. -/
def Registered (todo : List (CaptureTarget Document)) : Prop :=
  (∀ face, found = some face → face.Attended target) ∧ (target ∉ todo → found ≠ none)

/-- While stale runners are stopped. -/
def Served : Prop :=
  ∃ face, found = some face ∧ face.Attended target

/-- While changed runners are restarted: the others are as they should be. -/
def Current (todo : List (CaptureTarget Document)) : Prop :=
  target ∉ todo → ∃ face, found = some face ∧ face.Same target ∧ face.task = .live

end Facts

/-- What does not qualify and is registered is to be stopped. -/
def StaleOk (seen : ℕ → Option (Face Document)) (qualifying : List (CaptureTarget Document))
    (todo : List ℕ) : Prop :=
  Known seen qualifying Served
      (fun project => project ∈ qualifying.map CaptureTarget.projectId ∨ project ∈ todo) ∧
    ∀ target ∈ qualifying, target.projectId ∉ todo

/-- Only what qualifies is registered. -/
def ChangedOk (seen : ℕ → Option (Face Document)) (qualifying todo : List (CaptureTarget Document)) :
    Prop :=
  Known seen qualifying (Current · · todo) (· ∈ qualifying.map CaptureTarget.projectId) ∧
    ∀ target ∈ todo, target ∈ qualifying

def PassOk (seen : ℕ → Option (Face Document)) : Pass Document → Prop
  | .unstarted => ∀ project, seen project = none
  | .starting todo => (todo.map CaptureTarget.projectId).Nodup ∧
      ∀ target ∈ todo, seen target.projectId = none
  | .idle => True
  | .health qualifying todo _ => Known seen qualifying (Checked · · todo) fun _ => True
  | .launching qualifying todo _ => Known seen qualifying (Registered · · todo) fun _ => True
  | .stale qualifying todo => StaleOk seen qualifying todo
  | .changed qualifying todo => ChangedOk seen qualifying todo
  | .relaunching qualifying target todo =>
    ChangedOk seen qualifying (target :: todo) ∧ seen target.projectId = none

namespace Known

variable {fact next : CaptureTarget Document → Option (Face Document) → Prop}
  {others allowed : ℕ → Prop} {project : ℕ} {value : Option (Face Document)}

/-- A phase goes on without a change of the registry. -/
theorem imp (hKnown : Known seen qualifying fact others)
    (hFact : ∀ target ∈ qualifying, fact target (seen target.projectId) →
      next target (seen target.projectId))
    (hOthers : ∀ project, seen project ≠ none → others project → allowed project) :
    Known seen qualifying next allowed where
  nodup := hKnown.nodup
  each := fun target hTarget => hFact target hTarget (hKnown.each target hTarget)
  others := fun project hSeen => hOthers project hSeen (hKnown.others project hSeen)

/-- What is registered for one project changes: that project gets a new fact, and the facts of the
other ones go on. -/
theorem update (hKnown : Known seen qualifying fact others)
    (hFact : ∀ target ∈ qualifying, target.projectId ≠ project →
      fact target (seen target.projectId) → next target (seen target.projectId))
    (hNew : ∀ target ∈ qualifying, target.projectId = project → next target value)
    (hOthers : ∀ other, other ≠ project → others other → allowed other)
    (hValue : value ≠ none → allowed project) :
    Known (Function.update seen project value) qualifying next allowed where
  nodup := hKnown.nodup
  each := by
    intro target hTarget
    by_cases hSame : target.projectId = project
    · rw [hSame, update_self]
      exact hNew target hTarget hSame
    · rw [update_of_ne hSame]
      exact hFact target hTarget hSame (hKnown.each target hTarget)
  others := by
    intro other hSeen
    by_cases hSame : other = project
    · rw [hSame, update_self] at hSeen
      rw [hSame]
      exact hValue hSeen
    · rw [update_of_ne hSame] at hSeen
      exact hOthers other hSame (hKnown.others other hSeen)

theorem congr (hKnown : Known seen qualifying fact others) {other : ℕ → Option (Face Document)}
    (hSame : ∀ target ∈ qualifying, other target.projectId = seen target.projectId)
    (hKeys : ∀ project, other project = none ↔ seen project = none) :
    Known other qualifying fact others where
  nodup := hKnown.nodup
  each := by
    intro target hTarget
    rw [hSame target hTarget]
    exact hKnown.each target hTarget
  others := fun project hSeen => hKnown.others project ((hKeys project).not.mp hSeen)

end Known

section Moves

variable {project : ℕ} {target : CaptureTarget Document} {value : Option (Face Document)}
  {ids : List ℕ} {todo : List (CaptureTarget Document)}

/-- The health pass has dealt with a project: its runner is stopped, or kept. -/
theorem health_next {project : ℕ}
    (hOk : Known seen qualifying (Checked · · (project :: ids)) fun _ => True)
    (hHead : ∀ target ∈ qualifying, target.projectId = project → Checked target value ids) :
    Known (update seen project value) qualifying (Checked · · ids) fun _ => True := by
  refine hOk.update ?_ hHead (fun _ _ hAny => hAny) fun _ => trivial
  intro target _ hNe hChecked face hFace
  obtain ⟨hReturned, hAttended⟩ := hChecked face hFace
  exact ⟨hReturned, fun hNotMem =>
    hAttended (List.not_mem_cons_of_ne_of_not_mem hNe hNotMem)⟩

theorem health_over (hOk : Known seen qualifying (Checked · · []) fun _ => True) :
    Known seen qualifying (Registered · · qualifying) fun _ => True :=
  hOk.imp (fun _ hTarget hChecked =>
    ⟨fun face hFace => (hChecked face hFace).2 List.not_mem_nil, fun hNot => absurd hTarget hNot⟩)
    fun _ _ hAny => hAny

/-- The launch pass has dealt with a target: it was registered, or is now. -/
theorem launch_next (hOk : Known seen qualifying (Registered · · (target :: todo)) fun _ => True)
    (hValue : value ≠ none) (hAttended : ∀ other ∈ qualifying,
      other.projectId = target.projectId → ∀ face, value = some face → face.Attended other) :
    Known (update seen target.projectId value) qualifying (Registered · · todo)
      fun _ => True := by
  refine hOk.update ?_ (fun other hOther hSame => ⟨hAttended other hOther hSame, fun _ => hValue⟩)
    (fun _ _ hAny => hAny) fun _ => trivial
  rintro other - hNe ⟨hLive, hPresent⟩
  refine ⟨hLive, fun hNotMem => hPresent ?_⟩
  exact List.not_mem_cons_of_ne_of_not_mem (fun hSame => hNe (by rw [hSame])) hNotMem

theorem launch_over (hOk : Known seen qualifying (Registered · · []) fun _ => True)
    (hIds : ∀ project, project ∈ ids ↔
      seen project ≠ none ∧ project ∉ qualifying.map CaptureTarget.projectId) :
    StaleOk seen qualifying ids := by
  refine ⟨hOk.imp ?_ ?_, ?_⟩
  · rintro target - ⟨hAttended, hPresent⟩
    obtain ⟨face, hFace⟩ := Option.ne_none_iff_exists'.mp (hPresent List.not_mem_nil)
    exact ⟨face, hFace, hAttended face hFace⟩
  · intro project hSeen _
    by_cases hMember : project ∈ qualifying.map CaptureTarget.projectId
    · exact Or.inl hMember
    · exact Or.inr ((hIds project).mpr ⟨hSeen, hMember⟩)
  · exact fun target hTarget hIn => ((hIds _).mp hIn).2 (List.mem_map_of_mem hTarget)

/-- A stale project does not qualify, so that stopping it takes nothing from those that do. -/
theorem stale_next (hOk : StaleOk seen qualifying (project :: ids)) :
    StaleOk (update seen project none) qualifying ids := by
  obtain ⟨hKnown, hApart⟩ := hOk
  refine ⟨hKnown.update (fun _ _ _ hServed => hServed) ?_ ?_ (absurd rfl), ?_⟩
  · rintro target hTarget rfl
    exact absurd List.mem_cons_self (hApart target hTarget)
  · exact fun other hNe hIn => hIn.imp id (List.mem_of_ne_of_mem hNe)
  · exact fun target hTarget hIn => hApart target hTarget (List.mem_cons_of_mem _ hIn)

theorem stale_over (hOk : StaleOk seen qualifying [])
    (hSubset : ∀ target ∈ todo, target ∈ qualifying)
    (hChanged : ∀ target ∈ qualifying, target ∉ todo → ∀ face,
      seen target.projectId = some face → face.Same target) : ChangedOk seen qualifying todo := by
  refine ⟨hOk.1.imp ?_ fun _ _ hIn => hIn.resolve_right List.not_mem_nil, hSubset⟩
  rintro target hTarget ⟨face, hFace, hAttended⟩ hNotMem
  have hSame := hChanged target hTarget hNotMem face hFace
  exact ⟨face, hFace, hSame, hAttended hSame⟩

theorem ChangedOk.eq_of_projectId (hOk : ChangedOk seen qualifying (target :: todo))
    {other : CaptureTarget Document} (hOther : other ∈ qualifying)
    (hSame : other.projectId = target.projectId) : other = target :=
  List.inj_on_of_nodup_map hOk.1.nodup hOther (hOk.2 target List.mem_cons_self) hSame

theorem ChangedOk.stop (hOk : ChangedOk seen qualifying (target :: todo)) :
    ChangedOk (update seen target.projectId none) qualifying (target :: todo) := by
  refine ⟨hOk.1.update (fun _ _ _ hCurrent => hCurrent) ?_ (fun _ _ hIn => hIn) (absurd rfl),
    hOk.2⟩
  intro other hOther hSame hNotMem
  rw [hOk.eq_of_projectId hOther hSame] at hNotMem
  exact absurd List.mem_cons_self hNotMem

theorem ChangedOk.launched (hOk : ChangedOk seen qualifying (target :: todo)) :
    ChangedOk (update seen target.projectId (some (launchedFace target))) qualifying todo := by
  refine ⟨hOk.1.update ?_ ?_ (fun _ _ hIn => hIn) fun _ => ?_, (List.forall_mem_cons.mp hOk.2).2⟩
  · intro other _ hNe hCurrent hNotMem
    exact hCurrent
      (List.not_mem_cons_of_ne_of_not_mem (fun hSame => hNe (by rw [hSame])) hNotMem)
  · intro other hOther hSame _
    rw [hOk.eq_of_projectId hOther hSame]
    exact ⟨launchedFace target, rfl, rfl, rfl⟩
  · exact List.mem_map_of_mem (hOk.2 target List.mem_cons_self)

end Moves

/-- A pass only looks at the faces of qualifying projects, and at which projects are registered. -/
theorem PassOk.congr {other : ℕ → Option (Face Document)} (hOk : PassOk seen pass)
    (hSame : ∀ target ∈ pass.qualifying, other target.projectId = seen target.projectId)
    (hKeys : ∀ project, other project = none ↔ seen project = none) : PassOk other pass := by
  cases pass with
  | unstarted => exact fun project => (hKeys project).mpr (hOk project)
  | starting todo => exact ⟨hOk.1, fun target hTarget => (hKeys _).mpr (hOk.2 target hTarget)⟩
  | idle => trivial
  | health | launching => exact Known.congr hOk hSame hKeys
  | stale | changed => exact ⟨hOk.1.congr hSame hKeys, hOk.2⟩
  | relaunching => exact ⟨⟨hOk.1.1.congr hSame hKeys, hOk.1.2⟩, (hKeys _).mpr hOk.2⟩

end Phases

/-! ## The registry -/

section Steps

variable {state next : Supervisor Document}

/-- No runner was replaced, every runner is registered under the project of its target, and the
pass is on its way. -/
structure Inv (state : Supervisor Document) : Prop where
  lost : state.lost = []
  keyed : ∀ project face, faces state.runners project = some face → face.target.projectId = project
  pass : PassOk (faces state.runners) state.pass

variable {project : ℕ} {runners : Dict ℕ (Runner Document)} {target : CaptureTarget Document}
  {qualifying : List (CaptureTarget Document)} {now : ℤ}
  {change : Runner Document → Runner Document}

theorem get?_eq_none_of_faces (hNone : faces runners project = none) :
    Dict.get? runners project = none :=
  Option.map_eq_none_iff.mp hNone

theorem faces_launch (state : Supervisor Document) (target : CaptureTarget Document) (mono : ℚ)
    (restarts : ℕ) :
    faces (state.launch target mono restarts).runners =
      update (faces state.runners) target.projectId (some (launchedFace target)) := by
  funext other
  unfold faces Supervisor.launch
  rw [Dict.get?_set, update_apply]
  split <;> rfl

theorem faces_stopRunner (state : Supervisor Document) (project : ℕ) :
    faces (state.stopRunner project).runners = update (faces state.runners) project none := by
  unfold Supervisor.stopRunner
  cases hGet : Dict.get? state.runners project with
  | none =>
    have hNone : faces state.runners project = none := Option.map_eq_none_iff.mpr hGet
    rw [← hNone, Function.update_eq_self]
  | some runner =>
    funext other
    unfold faces
    rw [Dict.get?_erase, update_apply]
    split <;> rfl

theorem nodup_loadTargets (now : ℤ) (projects : Dict ℕ (ProjectRecord Document)) :
    ((loadTargets now projects).map CaptureTarget.projectId).Nodup := by
  rw [List.Nodup, List.pairwise_map, loadTargets, List.pairwise_filterMap]
  refine (List.pairwise_map.mp projects.nodup).imp ?_
  intro first second hNe target hFirst other hSecond
  obtain ⟨-, rfl⟩ := of_guard hFirst
  obtain ⟨-, rfl⟩ := of_guard hSecond
  exact hNe

theorem mem_keys_iff : project ∈ runners.rows.map Prod.fst ↔ faces runners project ≠ none := by
  constructor
  · intro hMem hNone
    obtain ⟨row, hRow, hKey⟩ := List.mem_map.mp hMem
    exact Dict.get?_eq_none_iff.mp (get?_eq_none_of_faces hNone) row hRow hKey
  · intro hSeen
    obtain ⟨face, hFace⟩ := Option.ne_none_iff_exists'.mp hSeen
    obtain ⟨runner, hGet, -⟩ := Option.map_eq_some_iff.mp hFace
    exact List.mem_map_of_mem (Dict.get?_eq_some_iff.mp hGet)

theorem known_of_read [DecidableEq Document] (hQuiet : Undisturbed state (.read now)) :
    Known (faces state.runners) (loadTargets now state.projects)
      (Checked · · (state.runners.rows.map Prod.fst)) fun _ => True := by
  refine ⟨nodup_loadTargets now state.projects, ?_, fun _ _ => trivial⟩
  intro target hTarget face hFace
  constructor
  · intro hReturned hSame
    obtain ⟨runner, hGet, rfl⟩ := Option.map_eq_some_iff.mp hFace
    have hSilent := hQuiet target hTarget
    rw [hGet, Option.all_some] at hSilent
    have hIs : runner.silent target = true := by
      unfold Runner.silent
      rw [Bool.and_eq_true, Bool.and_eq_true]
      exact ⟨⟨decide_eq_true hReturned.1, hReturned.2⟩, decide_eq_true hSame⟩
    rw [hIs] at hSilent
    cases hSilent
  · intro hNotMem
    exact absurd (mem_keys_iff.mpr (by rw [hFace]; exact Option.some_ne_none _)) hNotMem

theorem faces_modify_of_face (hFace : ∀ runner, (change runner).face = runner.face) (other : ℕ) :
    faces (Dict.modify runners project change) other = faces runners other := by
  unfold faces
  rw [Dict.get?_modify]
  split
  next =>
    rw [Option.map_map]
    exact congrArg (fun view => Option.map view _) (funext hFace)
  next => rfl

theorem keyed_update {seen : ℕ → Option (Face Document)} {value : Option (Face Document)}
    (hKeyed : ∀ project face, seen project = some face → face.target.projectId = project)
    (hValue : ∀ face, value = some face → face.target.projectId = project) (other : ℕ)
    (face : Face Document) (hFace : update seen project value other = some face) :
    face.target.projectId = other := by
  by_cases hSame : other = project
  · rw [hSame, update_self] at hFace
    rw [hSame]
    exact hValue face hFace
  · rw [update_of_ne hSame] at hFace
    exact hKeyed other face hFace

theorem inv_initial (projects : Dict ℕ (ProjectRecord Document)) :
    Inv (Supervisor.initial projects) where
  lost := rfl
  keyed := by
    intro project face hFace
    exact absurd hFace.symm (Option.some_ne_none face)
  pass := fun _ => rfl

variable (hInv : Inv state)
include hInv

theorem Inv.launch (mono : ℚ) (restarts : ℕ)
    (hNone : faces state.runners target.projectId = none)
    (hPass : PassOk (update (faces state.runners) target.projectId
      (some (launchedFace target))) pass) :
    Inv { state.launch target mono restarts with pass := pass } where
  lost := by
    show (Dict.get? state.runners target.projectId).toList ++ state.lost = []
    rw [get?_eq_none_of_faces hNone, hInv.lost]
    rfl
  keyed := by
    rw [faces_launch]
    refine keyed_update hInv.keyed ?_
    rintro _ ⟨⟩
    rfl
  pass := by
    rw [faces_launch]
    exact hPass

theorem Inv.stop (project : ℕ)
    (hPass : PassOk (update (faces state.runners) project none) pass) :
    Inv { state.stopRunner project with pass := pass } where
  lost := by
    unfold Supervisor.stopRunner
    split <;> exact hInv.lost
  keyed := by
    rw [faces_stopRunner]
    refine keyed_update hInv.keyed ?_
    rintro _ ⟨⟩
  pass := by
    rw [faces_stopRunner]
    exact hPass

theorem Inv.withPass {projects : Dict ℕ (ProjectRecord Document)}
    {awaiting : Option (Runner Document)} (hPass : PassOk (faces state.runners) pass) :
    Inv { state with projects, awaiting, pass } := { hInv with
  pass := hPass }

/-! ## Steps of a pass -/

theorem Inv.checkRunner {todo : List ℕ} {restarts : Dict ℕ ℕ}
    (hOk : Known (faces state.runners) qualifying (Checked · · (project :: todo)) fun _ => True) :
    Inv (state.checkRunner wedgeThreshold mono qualifying project todo restarts) := by
  -- A runner that is kept leaves the registry as it is.
  have hKept : (∀ target ∈ qualifying, target.projectId = project →
      Checked target (faces state.runners project) todo) →
      Inv { state with pass := .health qualifying todo restarts } := by
    intro hHead
    have hNext := health_next hOk hHead
    rw [Function.update_eq_self] at hNext
    exact hInv.withPass hNext
  unfold Supervisor.checkRunner
  split
  next runner hFind hGet =>
    have hFaceOf : faces state.runners project = some runner.face :=
      Option.map_eq_some_iff.mpr ⟨runner, hGet, rfl⟩
    split
    next hNone =>
      refine hKept ?_
      rintro target hTarget rfl face hFace
      have hReturns := (hOk.each target hTarget face hFace).1
      refine ⟨hReturns, fun _ => ?_⟩
      rw [hFaceOf] at hFace
      cases hFace
      -- A runner that has returned has other fields, and will be restarted for them.
      rcases task_of_no_problem hNone with hLive | hReturned
      · exact fun _ => hLive
      · exact fun hSame => absurd hSame (hReturns hReturned)
    next =>
      refine hInv.stop project (health_next hOk ?_)
      rintro target - - face ⟨⟩
  next hMissing =>
    refine hKept ?_
    intro target hTarget hId face hFace
    obtain ⟨runner, hGet, -⟩ := Option.map_eq_some_iff.mp hFace
    have hFound : (qualifying.find? fun target => target.projectId = project).isSome = true :=
      List.find?_isSome.mpr ⟨target, hTarget, decide_eq_true hId⟩
    obtain ⟨found, hFind⟩ := Option.isSome_iff_exists.mp hFound
    exact absurd hGet (hMissing found runner hFind)

theorem Inv.launchMissing {todo : List (CaptureTarget Document)} {restarts : Dict ℕ ℕ}
    (hOk : Known (faces state.runners) qualifying (Registered · · (target :: todo)) fun _ => True) :
    Inv { state.launchMissing mono target restarts with
      pass := .launching qualifying todo restarts } := by
  unfold Supervisor.launchMissing
  cases hGet : Dict.get? state.runners target.projectId with
  | none =>
    refine hInv.launch mono _ (Option.map_eq_none_iff.mpr hGet)
      (launch_next hOk (Option.some_ne_none _) ?_)
    rintro other - - face ⟨⟩ -
    rfl
  | some runner =>
    have hSome : faces state.runners target.projectId ≠ none := by
      unfold faces
      rw [hGet]
      exact Option.some_ne_none _
    have hNext := launch_next hOk hSome fun other hOther hSame => hSame ▸ (hOk.each other hOther).1
    rw [Function.update_eq_self] at hNext
    exact hInv.withPass hNext

theorem Inv.advance [DecidableEq Document]
    (hStep : state.advance wedgeThreshold mono = some next) : Inv next := by
  have hOk := hInv.pass
  unfold Supervisor.advance at hStep
  split at hStep <;> cases hStep <;> rw [‹state.pass = _›] at hOk
  next => exact hInv.withPass trivial
  next target todo _ =>
    obtain ⟨hNodup, hNone⟩ := hOk
    rw [List.map_cons, List.nodup_cons] at hNodup
    refine hInv.launch mono 0 (hNone target List.mem_cons_self) ⟨hNodup.2, ?_⟩
    intro other hOther
    have hNe : other.projectId ≠ target.projectId :=
      fun hSame => hNodup.1 (hSame ▸ List.mem_map_of_mem hOther)
    rw [update_of_ne hNe]
    exact hNone other (List.mem_cons_of_mem _ hOther)
  next => exact hInv.withPass (health_over hOk)
  next => exact hInv.checkRunner hOk
  next =>
    refine hInv.withPass (launch_over hOk fun project => ?_)
    unfold Supervisor.staleProjects
    rw [List.mem_filter, mem_keys_iff]
    refine and_congr_right fun _ => ?_
    simp
  next => exact hInv.launchMissing hOk
  next =>
    refine hInv.withPass (stale_over hOk (fun target hTarget => List.mem_of_mem_filter hTarget) ?_)
    intro target hTarget hNotMem face hFace
    obtain ⟨runner, hGet, rfl⟩ := Option.map_eq_some_iff.mp hFace
    by_contra hDiffers
    refine hNotMem (List.mem_filter.mpr ⟨hTarget, ?_⟩)
    rw [hGet, Option.any_some]
    exact decide_eq_true hDiffers
  next project todo _ => exact hInv.stop project (stale_next hOk)
  next target todo _ => exact hInv.stop target.projectId ⟨ChangedOk.stop hOk, update_self ..⟩
  next => exact hInv.launch mono 0 hOk.2 hOk.1.launched

/-! ## Steps of the runners -/

theorem Inv.modify (hTarget : ∀ runner, (change runner).target = runner.target)
    (hOthers : ∀ target ∈ state.pass.qualifying,
      faces (Dict.modify state.runners project change) target.projectId =
        faces state.runners target.projectId) :
    Inv { state with runners := Dict.modify state.runners project change } := { hInv with
  keyed := by
    intro other face hFace
    obtain ⟨runner, hGet, rfl⟩ := Option.map_eq_some_iff.mp hFace
    rw [Dict.get?_modify] at hGet
    split at hGet
    next =>
      obtain ⟨old, hOld, rfl⟩ := Option.map_eq_some_iff.mp hGet
      have hKeyed := hInv.keyed other old.face (Option.map_eq_some_iff.mpr ⟨old, hOld, rfl⟩)
      exact (congrArg CaptureTarget.projectId (hTarget old)).trans hKeyed
    next => exact hInv.keyed other runner.face (Option.map_eq_some_iff.mpr ⟨runner, hGet, rfl⟩)
  pass := by
    refine hInv.pass.congr hOthers ?_
    intro other
    unfold faces
    rw [Dict.get?_modify]
    split <;> simp }

omit hInv in
theorem of_modifyLive (hStep : state.modifyLive project change = some next) :
    next = { state with runners := Dict.modify state.runners project change } := by
  obtain ⟨runner, -, hLive⟩ := Option.bind_eq_some_iff.mp hStep
  exact (of_guard hLive).2

theorem Inv.endRunner {task : TaskStatus} {stopped : Bool}
    (hQuiet : ∀ target ∈ state.pass.qualifying, target.projectId ≠ project)
    (hStep : state.endRunner project task stopped = some next) : Inv next := by
  obtain rfl := of_modifyLive hStep
  refine hInv.modify (fun _ => rfl) ?_
  intro target hTarget
  unfold faces
  rw [Dict.get?_modify_of_ne (hQuiet target hTarget)]

section

variable [DecidableEq Document]

/-- Every step of an undisturbed run keeps what the phase of the pass needs. -/
theorem inv_of_step {label : Label Document}
    (hQuiet : Undisturbed state label) (hStep : step wedgeThreshold state label = some next) :
    Inv next := by
  unfold step at hStep
  split at hStep
  case h_1 | h_2 =>
    cases hStep
    exact hInv.withPass hInv.pass
  case h_3 now loaded hPass =>
    have hNone := hInv.pass
    rw [hPass] at hNone
    split at hStep <;> cases hStep
    · have hStarting : PassOk (faces state.runners) (.starting (loadTargets now state.projects)) :=
        ⟨nodup_loadTargets now state.projects, fun target _ => hNone target.projectId⟩
      exact hInv.withPass hStarting
    · exact hInv.withPass ⟨List.nodup_nil, fun _ hMem => absurd hMem List.not_mem_nil⟩
  case h_4 =>
    cases hStep
    exact hInv.withPass (known_of_read hQuiet)
  case h_5 => exact hInv.advance hStep
  case h_6 =>
    split at hStep <;> cases hStep
    · exact hInv.withPass trivial
    · exact hInv.withPass hInv.pass
  case h_7 =>
    cases hStep
    exact hInv.withPass trivial
  case h_8 =>
    obtain rfl := of_modifyLive hStep
    refine hInv.modify (fun _ => rfl) fun target _ => faces_modify_of_face ?_ target.projectId
    exact fun _ => rfl
  case h_9 | h_10 => exact hInv.endRunner hQuiet hStep
  case h_11 => cases hStep

end

/-! ## Convergence -/

theorem liveRunners_eq (hAwaiting : state.awaiting = none) (project : ℕ) :
    liveRunners state project =
      ((Dict.get? state.runners project).filter fun runner => runner.task = .live).toList := by
  unfold liveRunners
  rw [hAwaiting, hInv.lost, Option.toList_none, List.append_nil, List.append_nil]
  have hKeyed : ∀ row ∈ state.runners.rows, row.2.target.projectId = row.1 := by
    intro row hRow
    have hGet : Dict.get? state.runners row.1 = some row.2 := Dict.get?_eq_some_iff.mpr hRow
    exact hInv.keyed row.1 row.2.face (Option.map_eq_some_iff.mpr ⟨row.2, hGet, rfl⟩)
  have hRows : state.runners.rows.filter (fun row =>
      row.2.target.projectId = project && row.2.task = .live) =
      (state.runners.rows.filter fun row => row.1 = project).filter
        fun row => row.2.task = .live := by
    rw [List.filter_filter]
    refine List.filter_congr ?_
    intro row hRow
    rw [hKeyed row hRow, Bool.and_comm]
  rw [List.filter_map]
  rw [show state.runners.rows.filter ((fun runner : Runner Document =>
      decide (runner.target.projectId = project) && decide (runner.task = .live)) ∘ Prod.snd) =
      _ from hRows, Dict.rows_filter_key]
  cases hGet : Dict.get? state.runners project with
  | none => rfl
  | some runner =>
    by_cases hLive : runner.task = .live
    · simp [Option.filter_some, hLive]
    · simp [Option.filter_some, hLive]

theorem converged_of_changedOk (hAwaiting : state.awaiting = none)
    (hOk : ChangedOk (faces state.runners) qualifying []) : Converged state qualifying where
  one := by
    intro target hTarget
    obtain ⟨face, hFace, hSame, hLive⟩ := hOk.1.each target hTarget List.not_mem_nil
    obtain ⟨runner, hGet, rfl⟩ := Option.map_eq_some_iff.mp hFace
    have hTask : runner.task = .live := hLive
    refine ⟨runner, ?_, hSame⟩
    rw [liveRunners_eq hInv hAwaiting, hGet]
    simp [hTask]
  none := by
    intro project hOther
    have hNone : Dict.get? state.runners project = none := by
      refine get?_eq_none_of_faces (Classical.not_not.mp fun hSeen => ?_)
      obtain ⟨target, hTarget, hId⟩ := List.mem_map.mp (hOk.1.others project hSeen)
      exact hOther target hTarget hId
    rw [liveRunners_eq hInv hAwaiting, hNone]
    rfl

end Steps

/-- Every run in which no qualifying project is read whose runner has returned with the same fields,
and no runner of a qualifying project ends by itself during a pass: when a pass is finished, every
project it has read as qualifying has one live runner, with the fields that were read, and no other
project has one. -/
theorem converged_of_finish [DecidableEq Document] {wedgeThreshold : ℚ}
    {projects : Dict ℕ (ProjectRecord Document)} {labels : List (Label Document)}
    {state next : Supervisor Document}
    (hRun : Run (Guarded (Steps (step wedgeThreshold)) Undisturbed)
      (Supervisor.initial projects) labels state)
    (hFinish : step wedgeThreshold state .finish = some next) :
    Converged next state.pass.qualifying := by
  have hInv := hRun.invariant Inv
    (fun _ _ _ hInv hStep => inv_of_step hInv hStep.2 hStep.1) (inv_initial projects)
  have hQuiet : Undisturbed state .finish := trivial
  have hNext := inv_of_step hInv hQuiet hFinish
  have hOk := hInv.pass
  generalize hLabel : (Label.finish : Label Document) = label at hFinish
  unfold step at hFinish
  split at hFinish <;> cases hLabel
  next qualifying hPass hAwaiting =>
    rw [hPass] at hOk ⊢
    cases hFinish
    exact converged_of_changedOk hNext hAwaiting hOk
  next => cases hFinish

/-! ## Runs of one project -/

def yard (active : Bool) (frameCount cap : ℕ) : ProjectRecord Unit where
  target :=
    { projectId := 1
      projectName := "north yard"
      cameraId := 1
      intervalSeconds := some 60
      maxFrameCount := some cap }
  active := active
  hasProtocol := true
  frameCount := frameCount

def oneYard : Supervisor Unit := Supervisor.initial (Dict.set Dict.empty 1 (yard true 4 5))

/-- The supervisor is started, and launches the runner of the project. -/
def startUp : List (Label Unit) := [.start 0 true, .advance 0, .advance 0]

def deadRunner : List (Label Unit) :=
  startUp ++ [.dies 1 false, .read 0, .advance 60, .advance 60, .advance 60, .advance 60,
    .advance 60]

theorem converged_after_death :
    ∃ state next, exec (checked (step 200) Undisturbed) oneYard deadRunner = some state ∧
      step 200 state .finish = some next ∧
      state.pass.qualifying.map CaptureTarget.projectId = [1] ∧
      Converged next state.pass.qualifying := by
  have hFinishes : ∃ state ∈ exec (checked (step 200) Undisturbed) oneYard deadRunner,
      ∃ next ∈ step 200 state .finish,
        state.pass.qualifying.map CaptureTarget.projectId = [1] := by decide +kernel
  obtain ⟨state, hExec, next, hFinish, hIds⟩ := hFinishes
  exact ⟨state, next, hExec, hFinish, hIds, converged_of_finish (Run.of_exec_checked hExec) hFinish⟩

/-- The campaign ends at its cap and the project is archived; before the next pass it is activated
with a higher cap. -/
def activatedAgain : List (Label Unit) :=
  startUp ++ [.store 1 (yard true 5 5), .store 1 (yard false 5 5), .campaignEnds 1,
    .store 1 (yard true 5 10), .read 0, .advance 60, .advance 60, .advance 60, .advance 60,
    .advance 60]

def activatedLongAgo : List (Label Unit) :=
  activatedAgain ++ [.finish, .read 0, .advance 90, .advance 90, .advance 90, .advance 90,
    .advance 90]

def deathDuringPass : List (Label Unit) :=
  startUp ++ [.read 0, .advance 60, .dies 1 false, .advance 60, .advance 60, .advance 60,
    .advance 60]

/-- The runner of the last campaign is kept, by the next pass and by the one after it, and so is a
runner that dies during the pass: the project qualifies and has no live runner. -/
theorem reconcile_keeps_ended_runner :
    [activatedAgain, activatedLongAgo, deathDuringPass].map (fun labels =>
      (exec (step 200) oneYard labels).bind fun state =>
        (step 200 state .finish).map fun next =>
          (state.pass.qualifying.map CaptureTarget.projectId, (liveRunners next 1).length)) =
      List.replicate 3 (some ([1], 0)) := by
  decide +kernel

end TimelapseManager.Capture.Reconcile
