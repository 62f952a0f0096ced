import TimelapseManager.Storage.FileRemoval

/-!
# Rows and files after a deletion

What each operation removes, and whether it returns, is said in terms of the rows it starts from
(`Operation.Returns`, `Operation.Removes`) and proved of its body piece by piece
(`Operation.effect`).

* `removed_unreferenced_iff` is when the rows that are left refer to no file that was removed:
  the session commits and shares no file with another row, or nothing was unlinked before the
  failure.
* `deleted_image_outlives_rollback` is a frame whose image is gone after a rollback.
-/

namespace TimelapseManager.Storage.FileRemoval

open KeyedRows Transaction

/-- A file is on the disk. -/
def World.Has (world : World) (file : RealPath) : Prop := file ∈ world.files

/-- What a body does to the rows and the files. -/
abbrev Does (body : Body) := Effect World.rows World.Has body

section Primitives

variable {faults : Faults}

theorem changeRows_effect (change : Rows → Rows) :
    Does (changeRows change) (fun _ => True) change (fun _ _ => False) where
  returned := fun _ => Iff.rfl
  rows_eq := fun _ _ => rfl
  has_iff := fun _ _ => ⟨fun hHas => ⟨hHas, not_false⟩, And.left⟩

theorem failIf_effect (fails : Bool) (raised : Error) :
    Does (failIf fails raised) (fun _ => fails = false) id (fun _ _ => False) := by
  cases fails with
  | false => exact Effect.pure.congr (by simp) (by simp) (by simp)
  | true => exact Effect.throw raised (by simp) (by simp)

theorem unlink_eq (path : RealPath) (world : World) :
    unlink faults path world =
      if faults.unlink path then .error .os world
      else if path ∈ world.files then
        .ok () { world with files := world.files.filter fun file => file ≠ path }
      else .error .fileNotFound world := by
  unfold unlink
  simp only [bind, EStateM.bind, get, getThe, MonadStateOf.get, EStateM.get]
  split
  · rfl
  · split
    · rfl
    · rfl

theorem suppress_unlink_eq {kind : Error → Bool} (hMissing : kind .fileNotFound = true)
    (path : RealPath) (world : World) :
    suppress kind (unlink faults path) world =
      if faults.unlink path then if kind .os then .ok () world else .error .os world
      else .ok () { world with files := world.files.filter fun file => file ≠ path } := by
  unfold suppress
  rw [unlink_eq]
  by_cases hFault : faults.unlink path = true
  · rw [if_pos hFault, if_pos hFault]
  · rw [if_neg hFault, if_neg hFault]
    by_cases hMem : path ∈ world.files
    · rw [if_pos hMem]
    · have hSame : (world.files.filter fun file => decide (file ≠ path)) = world.files := by
        refine List.filter_eq_self.mpr ?_
        intro file hFile
        exact decide_eq_true fun hEq => hMem (hEq ▸ hFile)
      rw [if_neg hMem, hSame]
      simp only [hMissing, if_true]

theorem suppress_unlink_effect (faults : Faults) (kind : Error → Bool)
    (hMissing : kind .fileNotFound = true) (path : RealPath) :
    Does (suppress kind (unlink faults path))
      (fun _ => faults.unlink path = true → kind .os = true) id
      (fun _ file => file = path ∧ faults.unlink path = false) where
  returned := by
    intro world
    rw [suppress_unlink_eq hMissing]
    cases hFault : faults.unlink path with
    | false => simp [Returned]
    | true => cases hKind : kind .os <;> simp [Returned]
  rows_eq := by
    intro world _
    rw [suppress_unlink_eq hMissing]
    cases hFault : faults.unlink path with
    | false => rfl
    | true => cases hKind : kind .os <;> rfl
  has_iff := by
    intro world file
    rw [suppress_unlink_eq hMissing]
    cases hFault : faults.unlink path with
    | false => simp [final, World.Has]
    | true => cases hKind : kind .os <;> simp [final, World.Has]

end Primitives

/-! ## What the operations do -/

section Effects

variable (sys : System) (faults : Faults)

/-- The call unlinks the file. -/
def Call.Removes (call : Call) (rows : Rows) (file : RealPath) : Prop :=
  call.confirm = true ∧ ∃ frame, rows.frames.get? call.frame = some frame ∧
    unlinkPath sys rows frame = .ok (some file) ∧ faults.flush call.frame = false ∧
    faults.unlink file = false

/-- The call returns. -/
def Call.Returns (call : Call) (rows : Rows) : Prop :=
  call.confirm = true ∧ ∃ frame target, rows.frames.get? call.frame = some frame ∧
    unlinkPath sys rows frame = .ok target ∧ faults.flush call.frame = false ∧
    (∀ path ∈ target, faults.unlink path = false) ∧ faults.thumbnails call.frame = false

theorem deleteLoaded_effect (rows : Rows) (id : ℕ) (frame : Frame) :
    Does (deleteLoaded sys faults rows id frame)
      (fun _ => ∃ target, unlinkPath sys rows frame = .ok target ∧ faults.flush id = false ∧
        (∀ path ∈ target, faults.unlink path = false) ∧ faults.thumbnails id = false)
      (Rows.deleteFrame id)
      (fun _ file => unlinkPath sys rows frame = .ok (some file) ∧ faults.flush id = false ∧
        faults.unlink file = false) := by
  unfold deleteLoaded
  cases hTarget : unlinkPath sys rows frame with
  | error raised => exact Effect.throw raised (by simp) (by simp)
  | ok target =>
    have hEnd := failIf_effect (faults.thumbnails id) .thumbnails
    have hStart := changeRows_effect (Rows.deleteFrame id)
    have hFlush := failIf_effect (faults.flush id) .database
    cases target with
    | none =>
      have hBody := hStart.bind (hFlush.bind (Effect.pure.bind hEnd))
      exact hBody.congr (by simp) (by simp) (by simp)
    | some path =>
      have hUnlink := suppress_unlink_effect faults (· = .fileNotFound) rfl path
      have hBody := hStart.bind (hFlush.bind (hUnlink.bind hEnd))
      refine hBody.congr (by simp) (by simp) ?_
      intro _ file
      simp only [Except.ok.injEq, Option.some.injEq, false_or, true_and, and_false, or_false]
      constructor
      · rintro ⟨rfl, hNoFault, hUnlinked⟩
        exact ⟨hNoFault, rfl, hUnlinked⟩
      · rintro ⟨hNoFault, rfl, hUnlinked⟩
        exact ⟨rfl, hNoFault, hUnlinked⟩

theorem findFrame_effect {call : Call} (hConfirm : ¬call.confirm = false) (rows : Rows) :
    Does
      (match rows.frames.get? call.frame with
      | none => throw .frameNotFound
      | some frame => deleteLoaded sys faults rows call.frame frame)
      (fun _ => call.Returns sys faults rows) (Rows.deleteFrame call.frame)
      (fun _ => call.Removes sys faults rows) := by
  cases hFrame : rows.frames.get? call.frame with
  | none =>
    exact Effect.throw _ (by simp [Call.Returns, hFrame]) (by simp [Call.Removes, hFrame])
  | some frame =>
    have hLoaded := deleteLoaded_effect sys faults rows call.frame frame
    refine hLoaded.congr ?_ (fun _ _ => rfl) ?_
    · simp [Call.Returns, hFrame, hConfirm]
    · simp [Call.Removes, hFrame, hConfirm]

theorem permanentDelete_effect (call : Call) :
    Does (permanentDelete sys faults call) (call.Returns sys faults)
      (Rows.deleteFrame call.frame) (call.Removes sys faults) := by
  unfold permanentDelete
  by_cases hConfirm : call.confirm = false
  · rw [if_pos hConfirm]
    exact Effect.throw _ (by simp [Call.Returns, hConfirm]) (by simp [Call.Removes, hConfirm])
  · rw [if_neg hConfirm]
    exact Effect.ofRows (findFrame_effect sys faults hConfirm)

/-- The confined path is resolved and unlinked. -/
def Unlinks (root : RealPath) (path : PurePath) (file : RealPath) : Prop :=
  sys.resolve path = .ok file ∧ root <+: file ∧ faults.unlink file = false

/-- The confined path is resolved, and not refused if it is inside. -/
def Passes (root : RealPath) (path : PurePath) : Prop :=
  ∃ file, sys.resolve path = .ok file ∧ (root <+: file → faults.unlink file = false)

variable {sys faults}

theorem unlinks_iff_of_inside {root resolved : RealPath} {path : PurePath}
    (hResolve : sys.resolve path = .ok resolved) (hInside : root <+: resolved) (file : RealPath) :
    Unlinks sys faults root path file ↔ file = resolved ∧ faults.unlink resolved = false := by
  unfold Unlinks
  rw [hResolve, Except.ok.injEq]
  constructor
  · rintro ⟨rfl, -, hUnlink⟩
    exact ⟨rfl, hUnlink⟩
  · rintro ⟨rfl, hUnlink⟩
    exact ⟨rfl, hInside, hUnlink⟩

theorem not_unlinks_of_outside {root resolved : RealPath} {path : PurePath}
    (hResolve : sys.resolve path = .ok resolved) (hOutside : ¬root <+: resolved)
    (file : RealPath) : ¬Unlinks sys faults root path file := by
  rintro ⟨hFile, hInside, -⟩
  rw [hResolve, Except.ok.injEq] at hFile
  exact hOutside (hFile ▸ hInside)

variable (sys faults)

theorem unlinkConfined_effect (root : RealPath) (path : PurePath) :
    Does (unlinkConfined sys faults root path)
      (fun _ => Passes sys faults root path) id (fun _ => Unlinks sys faults root path) := by
  unfold unlinkConfined
  cases hResolve : sys.resolve path with
  | error raised =>
    exact Effect.throw raised (by simp [Passes, hResolve]) (by simp [Unlinks, hResolve])
  | ok resolved =>
    simp only [List.isPrefixOf_iff_prefix]
    by_cases hInside : root <+: resolved
    · rw [if_pos hInside]
      exact (suppress_unlink_effect faults (· = .fileNotFound) rfl resolved).congr
        (by simp [Passes, hResolve, hInside]) (by simp)
        (fun _ file => unlinks_iff_of_inside hResolve hInside file)
    · rw [if_neg hInside]
      exact Effect.pure.congr (by simp [Passes, hResolve, hInside]) (by simp)
        (fun _ file => iff_false_intro (not_unlinks_of_outside hResolve hInside file))

/-- The path is resolved, or what is raised is suppressed. -/
def Quiet (path : PurePath) : Prop :=
  ∀ raised, sys.resolve path = .error raised → raised.isOs = true

theorem suppress_unlinkConfined_effect (root : RealPath) (path : PurePath) :
    Does (suppress Error.isOs (unlinkConfined sys faults root path))
      (fun _ => Quiet sys path) id (fun _ => Unlinks sys faults root path) := by
  unfold unlinkConfined
  cases hResolve : sys.resolve path with
  | error raised =>
    by_cases hOs : raised.isOs = true
    · have hPure : suppress Error.isOs (throw raised : Body) = pure () := by
        funext world
        exact if_pos hOs
      simp only [hPure]
      exact Effect.pure.congr (by simp [Quiet, hResolve, hOs]) (by simp)
        (by simp [Unlinks, hResolve])
    · have hThrow : suppress Error.isOs (throw raised : Body) = throw raised := by
        funext world
        exact if_neg hOs
      simp only [hThrow]
      exact Effect.throw raised (by simp [Quiet, hResolve, hOs]) (by simp [Unlinks, hResolve])
  | ok resolved =>
    simp only [List.isPrefixOf_iff_prefix]
    by_cases hInside : root <+: resolved
    · have hMissing : ∀ raised : Error, decide (raised = .fileNotFound) = true →
          raised.isOs = true := by
        intro raised hRaised
        rw [of_decide_eq_true hRaised]
        rfl
      rw [if_pos hInside, suppress_suppress hMissing]
      exact (suppress_unlink_effect faults Error.isOs rfl resolved).congr
        (by simp [Quiet, hResolve, Error.isOs]) (by simp)
        (fun _ file => unlinks_iff_of_inside hResolve hInside file)
    · rw [if_neg hInside]
      exact Effect.pure.congr (by simp [Quiet, hResolve]) (by simp)
        (fun _ file => iff_false_intro (not_unlinks_of_outside hResolve hInside file))

theorem unlinkFrames_effect (files : List RealPath) :
    Does
      (forEach (fun path => suppress Error.isOs (unlink faults path)) files)
      (fun _ => True) id (fun _ file => file ∈ files ∧ faults.unlink file = false) := by
  have hItem : ∀ path ∈ files, Does
      (suppress Error.isOs (unlink faults path)) (fun _ => True) id
      (fun _ file => file = path ∧ faults.unlink path = false) := by
    intro path _
    exact (suppress_unlink_effect faults Error.isOs rfl path).congr (by simp [Error.isOs])
      (by simp) (by simp)
  refine (Effect.forEach hItem).congr ?_ ?_ ?_
  · intro start
    exact iff_of_true trivial (allReturn_iff_forall.mpr fun _ _ => trivial)
  · intro start _
    exact (nextAll_id files start).symm
  · intro start file
    rw [someRemoves_iff_exists, List.mem_iff_append]
    constructor
    · rintro ⟨⟨before, after, rfl⟩, hUnlink⟩
      exact ⟨before, file, after, rfl, by simp, rfl, hUnlink⟩
    · rintro ⟨before, path, after, rfl, -, rfl, hUnlink⟩
      exact ⟨⟨before, after, rfl⟩, hUnlink⟩

/-- A render path is unlinked after paths that raise nothing. -/
def SomeUnlinks (root : RealPath) (paths : List PurePath) (file : RealPath) : Prop :=
  ∃ before path after, paths = before ++ path :: after ∧ (∀ other ∈ before, Quiet sys other) ∧
    Unlinks sys faults root path file

theorem deleteGathered_effect (project : ℕ) (frameFiles : List RealPath)
    (renderFiles : List PurePath) (root : RealPath) :
    Does
      (deleteGathered sys faults project frameFiles renderFiles root)
      (fun _ => faults.flush project = false ∧ (∀ path ∈ renderFiles, Quiet sys path) ∧
        faults.thumbnails project = false)
      (Rows.deleteProject project)
      (fun _ file => faults.flush project = false ∧
        (file ∈ frameFiles ∧ faults.unlink file = false ∨
          SomeUnlinks sys faults root renderFiles file)) := by
  have hRenders := Effect.forEach fun path (_ : path ∈ renderFiles) =>
    suppress_unlinkConfined_effect sys faults root path
  have hBody := (changeRows_effect (Rows.deleteProject project)).bind
    ((failIf_effect (faults.flush project) .database).bind
      ((unlinkFrames_effect faults frameFiles).bind
        (hRenders.bind (failIf_effect (faults.thumbnails project) .thumbnails))))
  refine hBody.congr ?_ ?_ ?_
  · intro start
    simp only [allReturn_iff_forall, true_and]
  · intro start _
    simp only [id, nextAll_id]
  · intro start file
    simp only [someRemoves_iff_exists, SomeUnlinks, false_or, true_and, and_false, or_false]

/-- A render's output is unlinked. -/
def RenderJob.Unlinks (root : RealPath) (job : RenderJob) (file : RealPath) : Prop :=
  ∃ stored, job.outputFilePath = some stored ∧ stored ≠ [] ∧
    FileRemoval.Unlinks sys faults root (PurePath.parse stored) file

/-- A render's output raises nothing. -/
def RenderJob.Passes (root : RealPath) (job : RenderJob) : Prop :=
  ∀ stored, job.outputFilePath = some stored → stored ≠ [] →
    FileRemoval.Passes sys faults root (PurePath.parse stored)

theorem deleteRenderOutput_effect (root : RealPath) (job : RenderJob) :
    Does (deleteRenderOutput sys faults root job)
      (fun _ => job.Passes sys faults root) id (fun _ => job.Unlinks sys faults root) := by
  unfold deleteRenderOutput
  split
  next hNone =>
    exact Effect.pure.congr (by simp [RenderJob.Passes, hNone]) (by simp)
      (by simp [RenderJob.Unlinks, hNone])
  next hEmpty =>
    exact Effect.pure.congr (by simp [RenderJob.Passes, hEmpty]) (by simp)
      (by simp [RenderJob.Unlinks, hEmpty])
  next stored hNotEmpty hStored =>
    have hSome : stored ≠ [] := hNotEmpty
    exact (unlinkConfined_effect sys faults root (PurePath.parse stored)).congr
      (by simp [RenderJob.Passes, hStored, hSome]) (by simp)
      (by simp [RenderJob.Unlinks, hStored, hSome])

/-- The rows without those of the jobs. -/
def Rows.deleteRenders (jobs : List RenderJob) (rows : Rows) : Rows :=
  nextAll (fun job => Rows.deleteRender job.id) jobs rows

/-- The renders' outputs raise nothing. -/
def RendersReturn (id : ℕ) (project : Project) (jobs : List RenderJob) : Prop :=
  ∃ root, sys.resolve (projectRenderRoot sys id project) = .ok root ∧
    ∀ job ∈ jobs, job.Passes sys faults root

/-- A render's output is unlinked, after outputs that raise nothing. -/
def RendersRemove (id : ℕ) (project : Project) (jobs : List RenderJob) (file : RealPath) : Prop :=
  ∃ root, sys.resolve (projectRenderRoot sys id project) = .ok root ∧
    ∃ before job after, jobs = before ++ job :: after ∧
      (∀ other ∈ before, other.Passes sys faults root) ∧ job.Unlinks sys faults root file

theorem deleteRenders_effect (id : ℕ) (project : Project) (jobs : List RenderJob) :
    Does (deleteRenders sys faults id project jobs)
      (fun _ => RendersReturn sys faults id project jobs) (Rows.deleteRenders jobs)
      (fun _ => RendersRemove sys faults id project jobs) := by
  unfold deleteRenders
  cases hRoot : sys.resolve (projectRenderRoot sys id project) with
  | error raised =>
    exact Effect.throw raised (by simp [RendersReturn, hRoot]) (by simp [RendersRemove, hRoot])
  | ok root =>
    have hItem : ∀ job ∈ jobs, Does
        (do
          deleteRenderOutput sys faults root job
          changeRows (Rows.deleteRender job.id))
        (fun _ => job.Passes sys faults root) (Rows.deleteRender job.id)
        (fun _ => job.Unlinks sys faults root) := by
      intro job _
      have hBody := (deleteRenderOutput_effect sys faults root job).bind
        (changeRows_effect (Rows.deleteRender job.id))
      exact hBody.congr (by simp) (by simp) (by simp)
    refine (Effect.forEach hItem).congr ?_ (fun _ _ => rfl) ?_
    · intro start
      rw [allReturn_iff_forall]
      simp [RendersReturn, hRoot]
    · intro start file
      rw [someRemoves_iff_exists]
      simp [RendersRemove, hRoot]

/-! ## The operations as a whole -/

/-- The project's paths can be gathered. -/
def Gathers (rows : Rows) (id : ℕ) (frameFiles : List RealPath) (root : RealPath) : Prop :=
  ∃ project, rows.projects.get? id = some project ∧
    gatherFrameFiles sys rows id project = some frameFiles ∧
    sys.resolve (projectRenderRoot sys id project) = .ok root

/-- The operation gets to its commit. -/
def Operation.Returns : Operation → Rows → Prop
  | .permanentDeletes calls, rows =>
    AllReturn (Call.Returns sys faults) (fun call => Rows.deleteFrame call.frame) calls rows
  | .deleteProject id, rows =>
    (∃ frameFiles root, Gathers sys rows id frameFiles root) ∧ faults.flush id = false ∧
      (∀ path ∈ gatherRenderFiles rows id, Quiet sys path) ∧ faults.thumbnails id = false
  | .prune id kind keep, rows =>
    kind = .manual ∨ ∃ count project, keep = some count ∧ rows.projects.get? id = some project ∧
      RendersReturn sys faults id project (beyondKeep rows id count.toNat)
  | .autoPrune id kind, rows =>
    kind ≠ .scheduled ∧ kind ≠ .archive ∨ ∃ project, rows.projects.get? id = some project ∧
      (project.autoPruneEnabled kind = true →
        RendersReturn sys faults id project (beyondLatest rows id kind))

/-- The operation unlinks the file, on its way to the commit or to its failure. -/
def Operation.Removes : Operation → Rows → RealPath → Prop
  | .permanentDeletes calls, rows, file =>
    SomeRemoves (Call.Returns sys faults) (fun call => Rows.deleteFrame call.frame)
      (Call.Removes sys faults) calls rows file
  | .deleteProject id, rows, file =>
    ∃ frameFiles root, Gathers sys rows id frameFiles root ∧ faults.flush id = false ∧
      (file ∈ frameFiles ∧ faults.unlink file = false ∨
        SomeUnlinks sys faults root (gatherRenderFiles rows id) file)
  | .prune id kind keep, rows, file =>
    kind ≠ .manual ∧ ∃ count project, keep = some count ∧ rows.projects.get? id = some project ∧
      RendersRemove sys faults id project (beyondKeep rows id count.toNat) file
  | .autoPrune id kind, rows, file =>
    ¬(kind ≠ .scheduled ∧ kind ≠ .archive) ∧ ∃ project, rows.projects.get? id = some project ∧
      project.autoPruneEnabled kind = true ∧
      RendersRemove sys faults id project (beyondLatest rows id kind) file

/-- The rows that are left if the operation commits. -/
def Operation.next : Operation → Rows → Rows
  | .permanentDeletes calls, rows => nextAll (fun call => Rows.deleteFrame call.frame) calls rows
  | .deleteProject id, rows => rows.deleteProject id
  | .prune id kind keep, rows =>
    if kind = .manual then rows
    else rows.deleteRenders (keep.elim [] fun count => beyondKeep rows id count.toNat)
  | .autoPrune id kind, rows =>
    if (kind = .scheduled ∨ kind = .archive) ∧
        ((rows.projects.get? id).any fun project => project.autoPruneEnabled kind) = true then
      rows.deleteRenders (beyondLatest rows id kind)
    else rows

/-- What is done returns, changes the rows and removes files as it is said above. -/
abbrev Operation.Agrees (operation : Operation) : Prop :=
  Does (operation.body sys faults) (operation.Returns sys faults) operation.next
    (operation.Removes sys faults)

open Operation (Returns Removes Agrees)

theorem deleteProjectWithFiles_effect {rows : Rows} {id : ℕ} {project : Project}
    (hProject : rows.projects.get? id = some project) :
    Does (deleteProjectWithFiles sys faults rows id project)
      (fun _ => (Operation.deleteProject id).Returns sys faults rows) (Rows.deleteProject id)
      (fun _ => (Operation.deleteProject id).Removes sys faults rows) := by
  unfold deleteProjectWithFiles
  cases hFiles : gatherFrameFiles sys rows id project with
  | none =>
    exact Effect.throw _ (by simp [Returns, Gathers, hProject, hFiles])
      (by simp [Removes, Gathers, hProject, hFiles])
  | some frameFiles =>
    cases hRoot : sys.resolve (projectRenderRoot sys id project) with
    | error raised =>
      exact Effect.throw raised (by simp [Returns, Gathers, hProject, hRoot])
        (by simp [Removes, Gathers, hProject, hRoot])
    | ok root =>
      refine (deleteGathered_effect sys faults id frameFiles (gatherRenderFiles rows id)
        root).congr ?_ (fun _ _ => rfl) ?_
      · simp [Returns, Gathers, hProject, hFiles, hRoot]
      · simp [Removes, Gathers, hProject, hFiles, hRoot]

theorem findDeleted_effect (id : ℕ) (rows : Rows) :
    Does
      (match rows.projects.get? id with
      | none => throw .projectNotFound
      | some project => deleteProjectWithFiles sys faults rows id project)
      (fun _ => (Operation.deleteProject id).Returns sys faults rows) (Rows.deleteProject id)
      (fun _ => (Operation.deleteProject id).Removes sys faults rows) := by
  cases hProject : rows.projects.get? id with
  | none =>
    exact Effect.throw _ (by simp [Returns, Gathers, hProject])
      (by simp [Removes, Gathers, hProject])
  | some project => exact deleteProjectWithFiles_effect sys faults hProject

theorem deleteProject_effect (id : ℕ) : Agrees sys faults (.deleteProject id) := by
  exact Effect.ofRows (findDeleted_effect sys faults id)

theorem findPruned_effect (id : ℕ) {kind : Kind} (hKind : ¬kind = .manual) (count : ℤ)
    (rows : Rows) :
    Does
      (match rows.projects.get? id with
      | none => throw .projectNotFound
      | some project => deleteRenders sys faults id project (beyondKeep rows id count.toNat))
      (fun _ => (Operation.prune id kind (some count)).Returns sys faults rows)
      (Rows.deleteRenders (beyondKeep rows id count.toNat))
      (fun _ => (Operation.prune id kind (some count)).Removes sys faults rows) := by
  cases hProject : rows.projects.get? id with
  | none =>
    exact Effect.throw _ (by simp [Returns, hKind, hProject])
      (by simp [Removes, hProject])
  | some project =>
    refine (deleteRenders_effect sys faults id project _).congr ?_ (fun _ _ => rfl) ?_
    · simp [Returns, hKind, hProject]
    · simp [Removes, hKind, hProject]

theorem prune_effect (id : ℕ) (kind : Kind) (keep : Option ℤ) :
    Agrees sys faults (.prune id kind keep) := by
  simp only [Agrees, Operation.body, prune]
  by_cases hKind : kind = .manual
  · rw [if_pos hKind]
    exact Effect.pure.congr (by simp [Returns, hKind]) (fun _ _ => if_pos hKind)
      (by simp [Removes, hKind])
  · rw [if_neg hKind]
    cases keep with
    | none =>
      exact Effect.throw _ (by simp [Returns, hKind]) (by simp [Removes])
    | some count =>
      have hBody := findPruned_effect sys faults id hKind count
      exact (Effect.ofRows hBody).congr (fun _ => Iff.rfl) (fun _ _ => if_neg hKind)
        (fun _ _ => Iff.rfl)

theorem findAutoPruned_effect (id : ℕ) {kind : Kind}
    (hKind : ¬(kind ≠ .scheduled ∧ kind ≠ .archive)) (rows : Rows) :
    Does
      (match rows.projects.get? id with
      | none => throw .projectNotFound
      | some project =>
        if project.autoPruneEnabled kind = false then pure ()
        else deleteRenders sys faults id project (beyondLatest rows id kind))
      (fun _ => (Operation.autoPrune id kind).Returns sys faults rows)
      (fun start => if ((rows.projects.get? id).any fun project =>
        project.autoPruneEnabled kind) = true then start.deleteRenders (beyondLatest rows id kind)
        else start)
      (fun _ => (Operation.autoPrune id kind).Removes sys faults rows) := by
  cases hProject : rows.projects.get? id with
  | none =>
    exact Effect.throw _ (by simp [Returns, hKind, hProject])
      (by simp [Removes, hProject])
  | some project =>
    by_cases hEnabled : project.autoPruneEnabled kind = false
    · simp only [if_pos hEnabled]
      refine Effect.pure.congr ?_ ?_ ?_
      · simp [Returns, hProject, hEnabled]
      · simp [hEnabled]
      · simp [Removes, hProject, hEnabled]
    · simp only [if_neg hEnabled]
      refine (deleteRenders_effect sys faults id project _).congr ?_ ?_ ?_
      · simp [Returns, hKind, hProject, hEnabled]
      · simp [hEnabled]
      · simp [Removes, hKind, hProject, hEnabled]

theorem autoPrune_effect (id : ℕ) (kind : Kind) : Agrees sys faults (.autoPrune id kind) := by
  simp only [Agrees, Operation.body, autoPrune]
  by_cases hKind : kind ≠ .scheduled ∧ kind ≠ .archive
  · rw [if_pos hKind]
    exact Effect.pure.congr (by simp [Returns, hKind]) (by simp [Operation.next, hKind])
      (by simp [Removes, hKind])
  · rw [if_neg hKind]
    have hSchedule : kind = .scheduled ∨ kind = .archive := by
      by_contra hNot
      exact hKind (not_or.mp hNot)
    have hBody := findAutoPruned_effect sys faults id hKind
    refine (Effect.ofRows hBody).congr (fun _ => Iff.rfl) ?_ (fun _ _ => Iff.rfl)
    intro rows _
    simp only [Operation.next, hSchedule, true_and]

theorem Operation.effect (operation : Operation) : operation.Agrees sys faults := by
  cases operation with
  | permanentDeletes calls =>
    exact Effect.forEach fun call _ => permanentDelete_effect sys faults call
  | deleteProject id => exact deleteProject_effect sys faults id
  | prune id kind keep => exact prune_effect sys faults id kind keep
  | autoPrune id kind => exact autoPrune_effect sys faults id kind

end Effects

/-! ## What is removed was referred to -/

section Refers

variable {sys : System} {faults : Faults} {rows : Rows} {file : RealPath}

theorem refers_of_unlinkPath {id : ℕ} {frame : Frame} {now : Rows}
    (hFrame : rows.frames.get? id = some frame)
    (hTarget : unlinkPath sys now frame = .ok (some file)) : rows.Refers sys file := by
  unfold unlinkPath at hTarget
  split at hTarget
  next stored project hStored _ =>
    split at hTarget
    · cases hTarget
    next bounds _ =>
      unfold resolveContainedFramePath at hTarget
      split at hTarget
      · cases hTarget
      next real hReal =>
        split at hTarget
        · cases hTarget
          exact Or.inl ⟨id, frame, stored, hFrame, hStored, hReal⟩
        · cases hTarget
  · cases hTarget

theorem refers_of_mem_gatherFrameFiles {id : ℕ} {project : Project} {files : List RealPath}
    (hFiles : gatherFrameFiles sys rows id project = some files) (hMem : file ∈ files) :
    rows.Refers sys file := by
  obtain ⟨bounds, -, rfl⟩ := Option.map_eq_some_iff.mp hFiles
  obtain ⟨stored, hStored, hContained⟩ := List.mem_filterMap.mp hMem
  obtain ⟨⟨key, frame⟩, hRow, hPath⟩ := List.mem_filterMap.mp hStored
  obtain ⟨hRow, hProject⟩ := List.mem_filter.mp hRow
  have hProject : frame.projectId = id := of_decide_eq_true hProject
  unfold resolveContainedFramePath at hContained
  split at hContained
  · cases hContained
  next real hReal =>
    split at hContained
    · cases hContained
      rw [← hProject] at hReal
      exact Or.inl ⟨key, frame, stored, Dict.get?_eq_some_iff.mpr hRow, hPath, hReal⟩
    · cases hContained

theorem refers_of_rendersRemove {id : ℕ} {project : Project} {kinds : Kind → Bool} {keep : ℕ}
    (hRemove : RendersRemove sys faults id project ((candidates rows id kinds).drop keep) file) :
    rows.Refers sys file := by
  obtain ⟨root, -, before, job, after, hJobs, -, stored, hStored, -, hUnlinks⟩ := hRemove
  have hMem : job ∈ (candidates rows id kinds).drop keep := by
    rw [hJobs]
    simp
  have hJob := List.mem_of_mem_drop hMem
  unfold candidates at hJob
  rw [List.mem_insertionSort] at hJob
  obtain ⟨⟨key, found⟩, hRow, rfl⟩ := List.mem_map.mp (List.mem_filter.mp hJob).1
  exact Or.inr ⟨key, found, stored, Dict.get?_eq_some_iff.mpr hRow, hStored, hUnlinks.1⟩

theorem Operation.refers_of_removes {operation : Operation}
    (hRemoves : operation.Removes sys faults rows file) : rows.Refers sys file := by
  cases operation with
  | permanentDeletes calls =>
    -- Between the calls frames only go, so a frame a call finds was there at the start.
    refine SomeRemoves.of_forall (fun now : Rows => ∀ id frame,
      now.frames.get? id = some frame → rows.frames.get? id = some frame)
      (rows.Refers sys) (fun _ _ hGet => hGet) ?_ ?_ hRemoves
    · intro call _ now hKeeps id frame hGet
      exact hKeeps id frame (Dict.of_get?_erase hGet).2
    · rintro call - now hKeeps ⟨-, frame, hFrame, hTarget, -⟩
      exact refers_of_unlinkPath (hKeeps _ _ hFrame) hTarget
  | deleteProject id =>
    obtain ⟨frameFiles, root, ⟨project, -, hFiles, -⟩, -, hFile⟩ := hRemoves
    rcases hFile with ⟨hMem, -⟩ | ⟨before, path, after, hPaths, -, hUnlinks⟩
    · exact refers_of_mem_gatherFrameFiles hFiles hMem
    · have hMem : path ∈ gatherRenderFiles rows id := by
        rw [hPaths]
        simp
      obtain ⟨stored, hStored, rfl⟩ := List.mem_map.mp hMem
      obtain ⟨⟨key, job⟩, hRow, hPath⟩ := List.mem_filterMap.mp (List.mem_filter.mp hStored).1
      have hGet := Dict.get?_eq_some_iff.mpr (List.mem_filter.mp hRow).1
      exact Or.inr ⟨key, job, stored, hGet, hPath, hUnlinks.1⟩
  | prune =>
    obtain ⟨-, count, project, -, -, hRemove⟩ := hRemoves
    exact refers_of_rendersRemove hRemove
  | autoPrune =>
    obtain ⟨-, project, -, -, hRemove⟩ := hRemoves
    exact refers_of_rendersRemove hRemove

end Refers

/-! ## The result -/

/-- No row that is left refers to a file that is gone. -/
def Agrees (sys : System) (before after : World) : Prop :=
  ∀ file, before.Has file → ¬after.Has file → ¬after.rows.Refers sys file

/-- The session commits and no row that is left shares a file with one it deletes, or it does not
commit and no file was there to unlink before the failure. -/
def Operation.Safe (sys : System) (faults : Faults) (operation : Operation) (world : World) :
    Prop :=
  (operation.Returns sys faults world.rows ∧ faults.commit = false →
    ∀ file, world.Has file → operation.Removes sys faults world.rows file →
      ¬(operation.next world.rows).Refers sys file) ∧
  (¬(operation.Returns sys faults world.rows ∧ faults.commit = false) →
    ∀ file, world.Has file → ¬operation.Removes sys faults world.rows file)

/-- The rows that are left refer to no file that was removed exactly if the operation is safe. -/
theorem removed_unreferenced_iff (sys : System) (faults : Faults) (operation : Operation)
    (world : World) :
    Agrees sys world (operation.perform sys faults world) ↔ operation.Safe sys faults world := by
  have hRows : ∀ (start : Rows) (world : World), (world.withRows start).rows = start :=
    fun _ _ => rfl
  have hHas : ∀ (start : Rows) (world : World) (file : RealPath),
      (world.withRows start).Has file ↔ world.Has file := fun _ _ _ => Iff.rfl
  exact (operation.effect sys faults).inSession_agrees_iff hRows hHas faults.commit world
    fun _ hRemoves => Operation.refers_of_removes hRemoves

/-- Frames under `/frames`, renders under `/frames/renders`, and no symlinks. -/
def plainSystem : System where
  framesRoot := ⟨true, ["frames".toList]⟩
  outputSubdir := ⟨false, ["renders".toList]⟩
  realpath := fun path => some path.parts
  resolve := fun path => .ok path.parts
  identity := fun _ => none

def noFaults : Faults := ⟨fun _ => false, fun _ => false, fun _ => false, false⟩

/-- Frame 1 of project 1 and its image. -/
def oneFrame : World where
  rows := ⟨Dict.empty.set 1 ⟨none, none, none⟩, Dict.empty.set 1 ⟨1, some "a.jpg".toList⟩,
    Dict.empty⟩
  files := [["frames".toList, "1".toList, "a.jpg".toList]]

/-- Frame 1 is deleted, then the session fails at a frame that does not exist: the rollback brings
the row of frame 1 back, and its image is gone. -/
theorem deleted_image_outlives_rollback :
    ((Operation.permanentDeletes [⟨1, true⟩, ⟨2, true⟩]).perform plainSystem noFaults
        oneFrame).files = [] ∧
      ¬Agrees plainSystem oneFrame
        ((Operation.permanentDeletes [⟨1, true⟩, ⟨2, true⟩]).perform plainSystem noFaults
          oneFrame) := by
  have hGone : ((Operation.permanentDeletes [⟨1, true⟩, ⟨2, true⟩]).perform plainSystem noFaults
      oneFrame).files = [] := by decide +kernel
  refine ⟨hGone, ?_⟩
  intro hAgrees
  refine hAgrees ["frames".toList, "1".toList, "a.jpg".toList] List.mem_cons_self ?_ (Or.inl ?_)
  · unfold World.Has
    exact List.not_mem_nil
  · exact ⟨1, ⟨1, some "a.jpg".toList⟩, "a.jpg".toList, rfl, rfl, by decide +kernel⟩

end TimelapseManager.Storage.FileRemoval
