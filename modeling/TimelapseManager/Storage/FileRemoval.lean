import TimelapseManager.Lib.Dict
import TimelapseManager.Lib.Transaction

/-!
# Deleting rows together with their files

`permanent_delete`, `delete_project_with_files` and the prune of old renders delete rows in the
caller's session and unlink the files of these rows before that session commits.  A file is
unlinked only inside the directories of its project; where these are is decided by the stored
paths, the settings and the file system.

`Faults` says which steps fail.  The counters, flags and events that the sessions write as well,
the removal of an emptied directory and the cached thumbnails themselves are left out.
-/

namespace TimelapseManager.Storage.FileRemoval

open KeyedRows Transaction

abbrev Text := List Char

/-! ## Paths -/

/-- `pathlib.Path`. -/
structure PurePath where
  absolute : Bool
  parts : List Text
  deriving DecidableEq

namespace PurePath

def parse (text : Text) : PurePath where
  absolute := text.head? = some '/'
  parts := (text.splitOn '/').filter fun part => part ≠ [] && part ≠ ['.']

/-- The `/` of two paths. -/
def join (first second : PurePath) : PurePath :=
  if second.absolute then second else ⟨first.absolute, first.parts ++ second.parts⟩

def parent (path : PurePath) : PurePath := ⟨path.absolute, path.parts.dropLast⟩

end PurePath

/-- The components of a path with every symlink followed. -/
abbrev RealPath := List Text

inductive Error
  | confirmationRequired
  | frameNotFound
  | projectNotFound
  | badKeep
  | database
  | path
  | os
  | fileNotFound
  | thumbnails
  deriving DecidableEq

/-- `FileNotFoundError` is an `OSError`. -/
def Error.isOs : Error → Bool
  | .os => true
  | .fileNotFound => true
  | _ => false

/-- The settings, and what the operating system answers.  `realpath` is none where it raises;
`Path.resolve` raises an `OSError` or another error. -/
structure System where
  framesRoot : PurePath
  outputSubdir : PurePath
  realpath : PurePath → Option RealPath
  resolve : PurePath → Except Error RealPath
  identity : RealPath → Option (ℕ × ℕ)

variable (sys : System)

/-- `_is_within`: by the components, or by the identity of an ancestor. -/
def isWithin (path root : RealPath) : Bool :=
  root.isPrefixOf path ||
    match sys.identity root with
    | none => false
    | some rootId => path.inits.any fun current => sys.identity current = some rootId

/-! ## Rows -/

inductive Kind
  | manual
  | scheduled
  | archive
  | export
  deriving DecidableEq

inductive Status
  | pending
  | encoding
  | done
  | failed
  deriving DecidableEq

/-- A `project` row; of its schedules only the `auto_prune` key is read. -/
structure Project where
  storagePath : Option Text
  renderAutoPrune : Option Bool
  archiveAutoPrune : Option Bool

structure Frame where
  projectId : ℕ
  filePath : Option Text

structure RenderJob where
  id : ℕ
  projectId : ℕ
  kind : Kind
  status : Status
  outputFilePath : Option Text

structure Rows where
  projects : Dict ℕ Project
  frames : Dict ℕ Frame
  renders : Dict ℕ RenderJob

def Rows.deleteFrame (frame : ℕ) (rows : Rows) : Rows :=
  { rows with frames := rows.frames.erase frame }

def Rows.deleteRender (job : ℕ) (rows : Rows) : Rows :=
  { rows with renders := rows.renders.erase job }

/-- The foreign keys cascade. -/
def Rows.deleteProject (project : ℕ) (rows : Rows) : Rows where
  projects := rows.projects.erase project
  frames := rows.frames.keep fun frame => frame.projectId ≠ project
  renders := rows.renders.keep fun job => job.projectId ≠ project

/-! ## Where the files of a row are -/

/-- `frames_root / str(project_id)`. -/
def defaultDir (project : ℕ) : PurePath :=
  sys.framesRoot.join (PurePath.parse (toString project).toList)

/-- `frame_dir`; an empty `storage_path` is none. -/
def frameDir (id : ℕ) (project : Project) : PurePath :=
  match project.storagePath with
  | none => defaultDir sys id
  | some [] => defaultDir sys id
  | some stored => PurePath.parse stored

def projectRenderRoot (id : ℕ) (project : Project) : PurePath :=
  (frameDir sys id project).parent.join sys.outputSubdir

def resolveAbsolute (project : ℕ) (stored : Text) : PurePath :=
  let candidate := PurePath.parse stored
  if candidate.absolute then candidate else (defaultDir sys project).join candidate

/-- `frame_boundaries`, which raises where a directory cannot be resolved. -/
def frameBoundaries (id : ℕ) (project : Project) : Option (List RealPath) := do
  let current ← sys.realpath (frameDir sys id project)
  let default ← sys.realpath (defaultDir sys id)
  return if current = default then [current] else [current, default]

/-- `resolve_contained_frame_path`; none is a `PathContainmentError`. -/
def resolveContainedFramePath (project : ℕ) (bounds : List RealPath)
    (stored : Text) : Option RealPath :=
  match sys.realpath (resolveAbsolute sys project stored) with
  | none => none
  | some real => if bounds.any (isWithin sys real) then some real else none

/-- The path `permanent_delete` unlinks, if it unlinks one. -/
def unlinkPath (rows : Rows) (frame : Frame) : Except Error (Option RealPath) :=
  match frame.filePath, rows.projects.get? frame.projectId with
  | some stored, some project =>
    match frameBoundaries sys frame.projectId project with
    | none => .error .path
    | some bounds => .ok (resolveContainedFramePath sys frame.projectId bounds stored)
  | _, _ => .ok none

/-- The files a row refers to: a frame's image and a render job's output.  A project refers to the
files of its frames and its render jobs. -/
def Rows.Refers (rows : Rows) (file : RealPath) : Prop :=
  (∃ id frame stored, rows.frames.get? id = some frame ∧ frame.filePath = some stored ∧
    sys.realpath (resolveAbsolute sys frame.projectId stored) = some file) ∨
  ∃ id job stored, rows.renders.get? id = some job ∧ job.outputFilePath = some stored ∧
    sys.resolve (PurePath.parse stored) = .ok file

/-! ## The operations -/

/-- The session's rows, and the files on the disk. -/
structure World where
  rows : Rows
  files : List RealPath

def World.withRows (rows : Rows) (world : World) : World := { world with rows := rows }

/-- Which steps fail: the flush of a call, unlinking a path, clearing the thumbnails after a call,
and the commit. -/
structure Faults where
  flush : ℕ → Bool
  unlink : RealPath → Bool
  thumbnails : ℕ → Bool
  commit : Bool

abbrev Body := EStateM Error World Unit

def changeRows (change : Rows → Rows) : Body :=
  modify fun world => { world with rows := change world.rows }

def failIf (fails : Bool) (raised : Error) : Body :=
  if fails then throw raised else pure ()

variable (faults : Faults)

/-- `Path.unlink`. -/
def unlink (path : RealPath) : Body := do
  let world ← get
  if faults.unlink path then throw .os
  else if path ∈ world.files then
    set { world with files := world.files.filter fun file => file ≠ path }
  else throw .fileNotFound

/-- A call of `permanent_delete`. -/
structure Call where
  frame : ℕ
  confirm : Bool

/-- `permanent_delete` once its frame is loaded. -/
def deleteLoaded (rows : Rows) (id : ℕ) (frame : Frame) : Body :=
  match unlinkPath sys rows frame with
  | .error raised => throw raised
  | .ok target => do
    changeRows (Rows.deleteFrame id)
    failIf (faults.flush id) .database
    match target with
    | none => pure ()
    | some path => suppress (· = .fileNotFound) (unlink faults path)
    failIf (faults.thumbnails id) .thumbnails

def permanentDelete (call : Call) : Body :=
  if call.confirm = false then throw .confirmationRequired
  else do
    let world ← get
    match world.rows.frames.get? call.frame with
    | none => throw .frameNotFound
    | some frame => deleteLoaded sys faults world.rows call.frame frame

/-- `unlink_confined`: a path outside the render root is left alone. -/
def unlinkConfined (root : RealPath) (path : PurePath) : Body :=
  match sys.resolve path with
  | .error raised => throw raised
  | .ok resolved =>
    if root.isPrefixOf resolved then suppress (· = .fileNotFound) (unlink faults resolved)
    else pure ()

/-- `_gather_frame_files`. -/
def gatherFrameFiles (rows : Rows) (id : ℕ) (project : Project) : Option (List RealPath) :=
  (frameBoundaries sys id project).map fun bounds =>
    let frames := rows.frames.rows.filter fun row => row.2.projectId = id
    (frames.filterMap fun row => row.2.filePath).filterMap (resolveContainedFramePath sys id bounds)

/-- `_gather_render_files`; a job without a path has none. -/
def gatherRenderFiles (rows : Rows) (id : ℕ) : List PurePath :=
  let jobs := rows.renders.rows.filter fun row => row.2.projectId = id
  let stored := jobs.filterMap fun row => row.2.outputFilePath
  (stored.filter fun path => path ≠ []).map PurePath.parse

/-- `delete_project_with_files` once the paths are gathered. -/
def deleteGathered (id : ℕ) (frameFiles : List RealPath)
    (renderFiles : List PurePath) (renderRoot : RealPath) : Body := do
  changeRows (Rows.deleteProject id)
  failIf (faults.flush id) .database
  forEach (fun path => suppress Error.isOs (unlink faults path)) frameFiles
  forEach (fun path => suppress Error.isOs (unlinkConfined sys faults renderRoot path)) renderFiles
  failIf (faults.thumbnails id) .thumbnails

def deleteProjectWithFiles (rows : Rows) (id : ℕ) (project : Project) : Body :=
  match gatherFrameFiles sys rows id project with
  | none => throw .path
  | some frameFiles =>
    match sys.resolve (projectRenderRoot sys id project) with
    | .error raised => throw raised
    | .ok renderRoot =>
      deleteGathered sys faults id frameFiles (gatherRenderFiles rows id) renderRoot

/-- `delete_render_output`. -/
def deleteRenderOutput (root : RealPath) (job : RenderJob) : Body :=
  match job.outputFilePath with
  | none => pure ()
  | some [] => pure ()
  | some stored => unlinkConfined sys faults root (PurePath.parse stored)

/-- The done renders of a project of some kinds, newest first. -/
def candidates (rows : Rows) (project : ℕ) (kinds : Kind → Bool) : List RenderJob :=
  let jobs := (rows.renders.rows.map Prod.snd).filter fun job =>
    job.projectId = project && kinds job.kind && job.status = .done
  jobs.insertionSort fun first second => second.id ≤ first.id

/-- The loop of both prunes: each render's output and then its row is deleted. -/
def deleteRenders (id : ℕ) (project : Project) (jobs : List RenderJob) : Body :=
  match sys.resolve (projectRenderRoot sys id project) with
  | .error raised => throw raised
  | .ok renderRoot =>
    forEach (fun job => do
      deleteRenderOutput sys faults renderRoot job
      changeRows (Rows.deleteRender job.id)) jobs

/-- The renders beyond the newest `keep`; archive renders and exports never are. -/
def beyondKeep (rows : Rows) (project keep : ℕ) : List RenderJob :=
  (candidates rows project fun kind => kind ≠ .archive && kind ≠ .export).drop keep

/-- The renders of a kind but the newest one. -/
def beyondLatest (rows : Rows) (project : ℕ) (kind : Kind) : List RenderJob :=
  (candidates rows project fun other => other = kind).drop 1

/-- `_prune` for a kind that triggers it and a `keep` that is an integer. -/
def pruneBeyond (id keep : ℕ) : Body := do
  let world ← get
  match world.rows.projects.get? id with
  | none => throw .projectNotFound
  | some project => deleteRenders sys faults id project (beyondKeep world.rows id keep)

/-- `_prune`; none is a `keep` that is no integer. -/
def prune (project : ℕ) (kind : Kind) (keep : Option ℤ) : Body :=
  if kind = .manual then pure ()
  else
    match keep with
    | none => throw .badKeep
    | some keep => pruneBeyond sys faults project keep.toNat

/-- `auto_prune_enabled` of the schedule of the kind. -/
def Project.autoPruneEnabled (kind : Kind) (project : Project) : Bool :=
  (if kind = .scheduled then project.renderAutoPrune else project.archiveAutoPrune).getD true

/-- `_auto_prune`. -/
def autoPrune (id : ℕ) (kind : Kind) : Body :=
  if kind ≠ .scheduled ∧ kind ≠ .archive then pure ()
  else do
    let world ← get
    match world.rows.projects.get? id with
    | none => throw .projectNotFound
    | some project =>
      if project.autoPruneEnabled kind = false then pure ()
      else deleteRenders sys faults id project (beyondLatest world.rows id kind)

/-- What is done in one session. -/
inductive Operation
  | permanentDeletes (calls : List Call)
  | deleteProject (project : ℕ)
  | prune (project : ℕ) (kind : Kind) (keep : Option ℤ)
  | autoPrune (project : ℕ) (kind : Kind)

def Operation.body : Operation → Body
  | .permanentDeletes calls => forEach (permanentDelete sys faults) calls
  | .deleteProject id => do
    let world ← get
    match world.rows.projects.get? id with
    | none => throw .projectNotFound
    | some project => deleteProjectWithFiles sys faults world.rows id project
  | .prune project kind keep => FileRemoval.prune sys faults project kind keep
  | .autoPrune project kind => FileRemoval.autoPrune sys faults project kind

/-- `get_session` and `session_scope`: commit, or roll back if anything raises. -/
def Operation.perform (operation : Operation) (world : World) : World :=
  inSession World.withRows World.rows faults.commit (operation.body sys faults) world

end TimelapseManager.Storage.FileRemoval
