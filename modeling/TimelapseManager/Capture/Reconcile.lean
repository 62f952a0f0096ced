import TimelapseManager.Capture.RunnerCycle
import TimelapseManager.Lib.Dict

/-!
# The reconcile passes of the capture supervisor

`_reconcile_once_locked` reads the qualifying projects and goes through the registered runners four
times: it stops those with a problem, launches what is missing, stops what does not qualify, and
restarts those with other loop-affecting fields.  A runner that is stopped leaves the registry at
once, and the pass waits until its task is done.

Between two steps of a pass projects are edited, archived and activated, and runners make progress
or end, at the end of their campaign or by an error.  The pass fails when a task that it has
cancelled ends with an error of its own.  A runner that would be replaced in the registry while it
is there is kept as `lost`.
-/

namespace TimelapseManager.Capture.Reconcile

open KeyedRows

variable {Document : Type}

/-! ## Projects -/

/-- A project with its camera: what its target is made of, whether it is active, whether the camera
has a protocol, and the frame count. -/
structure ProjectRecord (Document : Type) where
  target : CaptureTarget Document
  active : Bool
  hasProtocol : Bool
  frameCount : ℕ
  deriving DecidableEq

inductive CampaignEnd
  | endDate
  | frameCount
  deriving DecidableEq

def campaignEndReason (now : ℤ) (endDate : Option ℤ) (frameCount : ℕ)
    (maxFrameCount : Option ℕ) : Option CampaignEnd :=
  if endDate.any fun bound => bound ≤ now then some .endDate
  else if maxFrameCount.any fun cap => cap ≤ frameCount then some .frameCount
  else none

namespace ProjectRecord

def selected (record : ProjectRecord Document) : Bool :=
  record.active && (record.target.intervalSeconds.isSome || record.target.exactTimeAnchors.isSome)
    && record.hasProtocol

def ended (now : ℤ) (record : ProjectRecord Document) : Bool :=
  (campaignEndReason now record.target.endDate record.frameCount record.target.maxFrameCount).isSome

def qualifying (now : ℤ) (projectId : ℕ) (record : ProjectRecord Document) :
    Option (CaptureTarget Document) :=
  if record.selected && !record.ended now then
    some { record.target with projectId := projectId }
  else none

/-- `_end_campaign` of a selected project whose campaign has ended. -/
def archiveEnded (now : ℤ) (record : ProjectRecord Document) : ProjectRecord Document :=
  if record.selected && record.ended now then { record with active := false } else record

end ProjectRecord

def loadTargets (now : ℤ) (projects : Dict ℕ (ProjectRecord Document)) :
    List (CaptureTarget Document) :=
  projects.rows.filterMap fun row => row.2.qualifying now row.1

/-! ## Runners -/

inductive TaskStatus
  | live
  | cancelled
  | raised
  | returned
  deriving DecidableEq

/-- `_ProjectRunner` with the fields of its state that reconcile reads; `stopped` is
`state.state == "stopped"`. -/
structure Runner (Document : Type) where
  target : CaptureTarget Document
  task : TaskStatus
  stopped : Bool
  startedMono : Option ℚ
  lastCycleMono : Option ℚ
  restarts : ℕ
  deriving DecidableEq

inductive Problem
  | cancelled
  | raised
  | exited
  | wedged
  deriving DecidableEq

def runnerProblem (wedgeThreshold mono : ℚ) (runner : Runner Document) : Option Problem :=
  match runner.task with
  | .cancelled => some .cancelled
  | .raised => some .raised
  | .returned => if runner.stopped then none else some .exited
  | .live =>
    match runner.lastCycleMono.orElse fun _ => runner.startedMono with
    | none => none
    | some beat => if wedgeThreshold < mono - beat then some .wedged else none

/-! ## The supervisor -/

/-- Where the supervisor is.  Each phase has what is left of its loop; `restarts` are the counts of
the runners that the health pass has stopped. -/
inductive Pass (Document : Type)
  | unstarted
  | starting (todo : List (CaptureTarget Document))
  | idle
  | health (qualifying : List (CaptureTarget Document)) (todo : List ℕ) (restarts : Dict ℕ ℕ)
  | launching (qualifying todo : List (CaptureTarget Document)) (restarts : Dict ℕ ℕ)
  | stale (qualifying : List (CaptureTarget Document)) (todo : List ℕ)
  | changed (qualifying todo : List (CaptureTarget Document))
  | relaunching (qualifying : List (CaptureTarget Document)) (target : CaptureTarget Document)
      (todo : List (CaptureTarget Document))

def Pass.qualifying : Pass Document → List (CaptureTarget Document)
  | .unstarted | .starting _ | .idle => []
  | .health qualifying _ _ | .launching qualifying _ _ | .stale qualifying _
  | .changed qualifying _ | .relaunching qualifying _ _ => qualifying

structure Supervisor (Document : Type) where
  projects : Dict ℕ (ProjectRecord Document)
  runners : Dict ℕ (Runner Document)
  awaiting : Option (Runner Document)
  lost : List (Runner Document)
  pass : Pass Document

namespace Supervisor

variable (state : Supervisor Document)

def launch (target : CaptureTarget Document) (mono : ℚ) (restarts : ℕ) : Supervisor Document :=
  { state with
    runners := Dict.set state.runners target.projectId
      ⟨target, .live, false, some mono, none, restarts⟩
    lost := (Dict.get? state.runners target.projectId).toList ++ state.lost }

def stopRunner (project : ℕ) : Supervisor Document :=
  match Dict.get? state.runners project with
  | none => state
  | some runner =>
    { state with
      runners := state.runners.erase project
      awaiting := if runner.task = .live then some { runner with stopped := true } else none }

def checkRunner (wedgeThreshold mono : ℚ)
    (qualifying : List (CaptureTarget Document)) (project : ℕ) (todo : List ℕ)
    (restarts : Dict ℕ ℕ) : Supervisor Document :=
  match qualifying.find? (fun target => target.projectId = project),
    Dict.get? state.runners project with
  | some _, some runner =>
    match runnerProblem wedgeThreshold mono runner with
    | none => { state with pass := .health qualifying todo restarts }
    | some _ =>
      { state.stopRunner project with
        pass := .health qualifying todo (Dict.set restarts project (runner.restarts + 1)) }
  | _, _ => { state with pass := .health qualifying todo restarts }

def launchMissing (mono : ℚ) (target : CaptureTarget Document)
    (restarts : Dict ℕ ℕ) : Supervisor Document :=
  match Dict.get? state.runners target.projectId with
  | none => state.launch target mono ((Dict.get? restarts target.projectId).getD 0)
  | some _ => state

def staleProjects (qualifying : List (CaptureTarget Document)) : List ℕ :=
  (state.runners.rows.map Prod.fst).filter fun project =>
    qualifying.all fun target => target.projectId ≠ project

/-- The qualifying targets whose runner has other loop-affecting fields. -/
def changedTargets [DecidableEq Document] (state : Supervisor Document)
    (qualifying : List (CaptureTarget Document)) : List (CaptureTarget Document) :=
  qualifying.filter fun target =>
    (Dict.get? state.runners target.projectId).any fun runner =>
      loopAffectingFields runner.target ≠ loopAffectingFields target

def advance [DecidableEq Document] (state : Supervisor Document) (wedgeThreshold mono : ℚ) :
    Option (Supervisor Document) :=
  match state.pass with
  | .unstarted | .idle | .changed _ [] => none
  | .starting [] => some { state with pass := .idle }
  | .starting (target :: todo) =>
    some { state.launch target mono 0 with pass := .starting todo }
  | .health qualifying [] restarts =>
    some { state with pass := .launching qualifying qualifying restarts }
  | .health qualifying (project :: todo) restarts =>
    some (state.checkRunner wedgeThreshold mono qualifying project todo restarts)
  | .launching qualifying [] _ =>
    some { state with pass := .stale qualifying (state.staleProjects qualifying) }
  | .launching qualifying (target :: todo) restarts =>
    some { state.launchMissing mono target restarts with
      pass := .launching qualifying todo restarts }
  | .stale qualifying [] =>
    some { state with pass := .changed qualifying (state.changedTargets qualifying) }
  | .stale qualifying (project :: todo) =>
    some { state.stopRunner project with pass := .stale qualifying todo }
  | .changed qualifying (target :: todo) =>
    some { state.stopRunner target.projectId with
      pass := .relaunching qualifying target todo }
  | .relaunching qualifying target todo =>
    some { state.launch target mono 0 with pass := .changed qualifying todo }

/-- A runner with a live task changes. -/
def modifyLive (project : ℕ) (change : Runner Document → Runner Document) :
    Option (Supervisor Document) :=
  (Dict.get? state.runners project).bind fun runner =>
    if runner.task = .live then
      some { state with runners := Dict.modify state.runners project change }
    else none

def endRunner (project : ℕ) (task : TaskStatus) (stopped : Bool) : Option (Supervisor Document) :=
  state.modifyLive project fun runner => { runner with task := task, stopped := stopped }

end Supervisor

inductive Label (Document : Type)
  /-- A project is created or edited, in any of its fields. -/
  | store (project : ℕ) (record : ProjectRecord Document)
  | delete (project : ℕ)
  /-- `start`; `loaded` is false if the targets could not be read. -/
  | start (now : ℤ) (loaded : Bool)
  /-- A pass starts, and reads the qualifying projects. -/
  | read (now : ℤ)
  | advance (mono : ℚ)
  /-- The task that was cancelled is done; an error of its own fails the pass. -/
  | awaited (raised : Bool)
  | finish
  /-- A runner starts its next cycle. -/
  | beat (project : ℕ) (mono : ℚ)
  /-- A runner returns at the end of its campaign. -/
  | campaignEnds (project : ℕ)
  /-- The task of a runner dies. -/
  | dies (project : ℕ) (cancelled : Bool)
  deriving DecidableEq

def step [DecidableEq Document] (wedgeThreshold : ℚ) (state : Supervisor Document)
    (label : Label Document) : Option (Supervisor Document) :=
  match label, state.pass, state.awaiting with
  | .store project record, _, _ =>
    some { state with projects := Dict.set state.projects project record }
  | .delete project, _, _ => some { state with projects := state.projects.erase project }
  | .start now loaded, .unstarted, _ =>
    if loaded then
      some { state with
        projects := state.projects.mapValues (ProjectRecord.archiveEnded now)
        pass := .starting (loadTargets now state.projects) }
    else some { state with pass := .starting [] }
  | .read now, .idle, _ =>
    some { state with
      projects := state.projects.mapValues (ProjectRecord.archiveEnded now)
      pass := .health (loadTargets now state.projects) (state.runners.rows.map Prod.fst)
        Dict.empty }
  | .advance mono, _, none => state.advance wedgeThreshold mono
  | .awaited raised, _, some _ =>
    if raised then some { state with awaiting := none, pass := .idle }
    else some { state with awaiting := none }
  | .finish, .changed _ [], none => some { state with pass := .idle }
  | .beat project mono, _, _ =>
    state.modifyLive project fun runner => { runner with lastCycleMono := some mono }
  | .campaignEnds project, _, _ => state.endRunner project .returned true
  | .dies project cancelled, _, _ =>
    state.endRunner project (if cancelled then .cancelled else .raised) false
  | _, _, _ => none

def Supervisor.initial (projects : Dict ℕ (ProjectRecord Document)) : Supervisor Document :=
  ⟨projects, Dict.empty, none, [], .unstarted⟩

/-! ## What a pass is for -/

/-- The runners of a project with a live task, registered or not. -/
def liveRunners (state : Supervisor Document) (project : ℕ) : List (Runner Document) :=
  (state.runners.rows.map Prod.snd ++ state.awaiting.toList ++ state.lost).filter fun runner =>
    runner.target.projectId = project && runner.task = .live

/-- Every qualifying project has one live runner, with the fields of its target, and no other
project has one. -/
structure Converged (state : Supervisor Document) (qualifying : List (CaptureTarget Document)) :
    Prop where
  one : ∀ target ∈ qualifying, ∃ runner, liveRunners state target.projectId = [runner] ∧
    loopAffectingFields runner.target = loopAffectingFields target
  none : ∀ project, (∀ target ∈ qualifying, target.projectId ≠ project) →
    liveRunners state project = []

/-- The runner returned at the end of its campaign, and would be kept. -/
def Runner.silent [DecidableEq Document] (runner : Runner Document)
    (target : CaptureTarget Document) : Bool :=
  runner.task = .returned && runner.stopped &&
    loopAffectingFields runner.target = loopAffectingFields target

/-- No project is read as qualifying whose registered runner has returned with the same fields, and
no runner of a project that the pass under way has read as qualifying ends by itself. -/
def Undisturbed [DecidableEq Document] (state : Supervisor Document) : Label Document → Prop
  | .read now => ∀ target ∈ loadTargets now state.projects,
      (Dict.get? state.runners target.projectId).all fun runner => !runner.silent target
  | .campaignEnds project => ∀ target ∈ state.pass.qualifying, target.projectId ≠ project
  | .dies project _ => ∀ target ∈ state.pass.qualifying, target.projectId ≠ project
  | _ => True

instance [DecidableEq Document] (state : Supervisor Document) (label : Label Document) :
    Decidable (Undisturbed state label) := by
  cases label <;> unfold Undisturbed <;> infer_instance

end TimelapseManager.Capture.Reconcile
