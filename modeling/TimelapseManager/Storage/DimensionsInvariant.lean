import TimelapseManager.Storage.Dimensions

/-!
# The cached histograms are those of the committed frames

What is cached for a project is the histogram of its committed frames up to the entry's id: new
frames have larger ids, and every commit that changes older frames drops the entry and raises the
generation, so that what was read before is not stored.  `Inv` is kept by every step in which a
session that asks has no frames of its own.
-/

namespace TimelapseManager.Storage.Dimensions

open KeyedRows Runs

/-! ## Histograms up to an id -/

section Histograms

variable {tables other : Tables} {project : ℕ}

theorem dimensionHistogram_congr (hRows : tables.rowsOf project = other.rowsOf project)
    (afterId upToId : Option ℕ) :
    dimensionHistogram tables project afterId upToId =
      dimensionHistogram other project afterId upToId := by
  unfold dimensionHistogram
  rw [hRows]

theorem upTo_congr (hRows : tables.rowsOf project = other.rowsOf project) (upToId : Option ℕ) :
    upTo tables project upToId = upTo other project upToId := by
  cases upToId with
  | none => rfl
  | some largest => exact dimensionHistogram_congr hRows none (some largest)

theorem upTo_add_range {cached : Option ℕ} {largest : ℕ}
    (hLess : ∀ smaller, cached = some smaller → smaller < largest) :
    upTo tables project cached + dimensionHistogram tables project cached (some largest) =
      upTo tables project (some largest) := by
  cases cached with
  | none => exact zero_add _
  | some smaller =>
    have hLt := hLess smaller rfl
    unfold upTo dimensionHistogram
    rw [Multiset.coe_add, Multiset.coe_eq_coe, ← List.filterMap_append]
    refine List.Perm.filterMap _ ?_
    -- Among the frames up to the larger id, those up to the smaller one and the others.
    have hLow : inRange none (some smaller) =
        fun frame => decide (frame.id ≤ smaller) && inRange none (some largest) frame := by
      funext frame
      grind [inRange]
    have hHigh : inRange (some smaller) (some largest) =
        fun frame => (!decide (frame.id ≤ smaller)) && inRange none (some largest) frame := by
      funext frame
      grind [inRange]
    rw [hLow, hHigh, ← List.filter_filter, ← List.filter_filter]
    exact List.filter_append_perm _ _

theorem dimensionHistogram_eq_upTo :
    dimensionHistogram tables project none none =
      upTo tables project ((tables.rowsOf project).map FrameRow.id).max? := by
  cases hMax : ((tables.rowsOf project).map FrameRow.id).max? with
  | none =>
    have hNone : tables.rowsOf project = [] :=
      List.map_eq_nil_iff.mp (List.max?_eq_none_iff.mp hMax)
    unfold dimensionHistogram upTo
    rw [hNone]
    rfl
  | some largest =>
    have hLe := (List.max?_eq_some_iff.mp hMax).2
    refine congrArg
      (fun rows : List FrameRow => ((rows.filterMap FrameRow.size : List Size) : Histogram)) ?_
    refine List.filter_congr ?_
    intro frame hMem
    have hFrame := hLe frame.id (List.mem_map_of_mem hMem)
    simp [inRange, hFrame]

end Histograms

/-! ## New frames only -/

/-- Since the old tables the project has only got new frames. -/
structure Grown (old new : Tables) (project : ℕ) : Prop where
  lastId_le : old.lastId ≤ new.lastId
  rows : ∃ added, new.rowsOf project = old.rowsOf project ++ added ∧
    ∀ frame ∈ added, old.lastId < frame.id

variable {tables new old : Tables} {entry : Entry} {project generation : ℕ} {asked : Asked}
  {progress : Progress}

namespace Grown

variable {old middle new : Tables} {project : ℕ}

theorem of_rows_eq (hLe : old.lastId ≤ new.lastId)
    (hRows : new.rowsOf project = old.rowsOf project) : Grown old new project :=
  ⟨hLe, [], by rw [hRows, List.append_nil], nofun⟩

theorem trans (hFirst : Grown old middle project) (hSecond : Grown middle new project) :
    Grown old new project := by
  obtain ⟨added, hRows, hAdded⟩ := hFirst.rows
  obtain ⟨more, hMoreRows, hMore⟩ := hSecond.rows
  refine ⟨le_trans hFirst.lastId_le hSecond.lastId_le, added ++ more, ?_, ?_⟩
  · rw [hMoreRows, hRows, List.append_assoc]
  · refine List.forall_mem_append.mpr ⟨hAdded, fun frame hIn => ?_⟩
    exact lt_of_le_of_lt hFirst.lastId_le (hMore frame hIn)

theorem upTo_eq (hGrown : Grown old new project) {upToId : Option ℕ}
    (hLe : ∀ largest, upToId = some largest → largest ≤ old.lastId) :
    upTo new project upToId = upTo old project upToId := by
  cases upToId with
  | none => rfl
  | some largest =>
    have hLe := hLe largest rfl
    obtain ⟨added, hRows, hAdded⟩ := hGrown.rows
    have hNone : added.filter (inRange none (some largest)) = [] := by
      refine List.filter_eq_nil_iff.mpr ?_
      intro frame hMem hIn
      have hHigh := hAdded frame hMem
      simp only [inRange, Option.all_some, Bool.and_eq_true, decide_eq_true_eq] at hIn
      omega
    simp only [upTo, dimensionHistogram]
    rw [hRows, List.filter_append, hNone, List.append_nil]

theorem insert (tables : Tables) (target : ℕ) (width height : Option ℕ) (count project : ℕ) :
    Grown tables (tables.insert target width height count) project := by
  refine ⟨Nat.le_succ _, List.filter (fun frame => frame.project = project)
    [⟨tables.lastId + 1, target, width, height, true⟩], List.filter_append _ _, ?_⟩
  intro frame hMem
  rw [List.mem_singleton.mp (List.mem_filter.mp hMem).1]
  exact Nat.lt_succ_self _

variable {frameId target : ℕ}

theorem id_ne_of_projectOf {frame : FrameRow} (hTarget : tables.projectOf frameId = some target)
    (hMem : frame ∈ tables.frames.rows) (hOther : frame.project ≠ target) : frame.id ≠ frameId := by
  obtain ⟨row, hFind, hProject⟩ := Option.map_eq_some_iff.mp hTarget
  obtain ⟨hRow, hId⟩ := Rows.find?_eq_some_iff.mp hFind
  intro hSameId
  have hEq := tables.frames.eq_of_key_eq hMem hRow (hSameId.trans hId.symm)
  rw [hEq] at hOther
  exact hOther hProject

theorem setActive (active : Bool) (hTarget : tables.projectOf frameId = some target)
    (hOther : project ≠ target) : Grown tables (tables.setActive frameId active) project := by
  refine of_rows_eq le_rfl ?_
  show (List.map _ tables.frames.rows).filter _ = tables.frames.rows.filter _
  have hKind : ((fun frame : FrameRow => decide (frame.project = project)) ∘
      fun frame => if frame.id = frameId then { frame with active := active } else frame) =
      fun frame => decide (frame.project = project) := by
    funext frame
    by_cases hSameId : frame.id = frameId <;> simp [hSameId]
  rw [List.filter_map, hKind]
  -- The frame keeps its project, which is not this one.
  have hSame : ∀ frame ∈ tables.frames.rows.filter (fun frame => frame.project = project),
      (if frame.id = frameId then { frame with active := active } else frame) = frame := by
    intro frame hMem
    obtain ⟨hFrame, hIn⟩ := List.mem_filter.mp hMem
    refine if_neg (id_ne_of_projectOf hTarget hFrame ?_)
    rw [of_decide_eq_true hIn]
    exact hOther
  exact (List.map_congr_left hSame).trans (List.map_id' _)

theorem remove (count : ℕ) (hTarget : tables.projectOf frameId = some target)
    (hOther : project ≠ target) : Grown tables (tables.remove frameId target count) project := by
  refine of_rows_eq le_rfl ?_
  show (tables.frames.rows.filter _).filter _ = tables.frames.rows.filter _
  rw [List.filter_filter]
  refine List.filter_congr ?_
  intro frame hFrame
  by_cases hIn : frame.project = project
  · have hKept : frame.id ≠ frameId :=
      id_ne_of_projectOf hTarget hFrame (by rw [hIn]; exact hOther)
    simp [hIn, hKept]
  · simp [hIn]

end Grown

/-- There are new frames only in the projects without a mark. -/
structure Kept (old new : Tables) (marks : List ℕ) : Prop where
  lastId_le : old.lastId ≤ new.lastId
  unmarked : ∀ project, project ∉ marks → Grown old new project

theorem Kept.trans {middle : Tables} {first second : List ℕ} (hFirst : Kept old middle first)
    (hSecond : Kept middle new second) :
    Kept old new (second ++ first) where
  lastId_le := le_trans hFirst.lastId_le hSecond.lastId_le
  unmarked := by
    intro project hNotMem
    obtain ⟨hNotSecond, hNotFirst⟩ := not_or.mp fun hEither =>
      hNotMem (List.mem_append.mpr hEither)
    exact (hFirst.unmarked project hNotFirst).trans (hSecond.unmarked project hNotSecond)

/-! ## The invariant -/

/-- The entry holds the histogram of the frames up to its id. -/
structure Valid (tables : Tables) (project : ℕ) (entry : Entry) : Prop where
  histogram : entry.histogram = upTo tables project entry.maxFrameId
  maxLe : ∀ largest, entry.maxFrameId = some largest → largest ≤ tables.lastId

theorem Valid.grown (hValid : Valid old project entry) (hGrown : Grown old new project) :
    Valid new project entry where
  histogram := by rw [hGrown.upTo_eq hValid.maxLe, hValid.histogram]
  maxLe := fun largest hMax => le_trans (hValid.maxLe largest hMax) hGrown.lastId_le

/-- What a call has from the cache or has read, as long as the generation is the one it has seen
there. -/
def ProgressOk (committed : Tables) (generation : ℕ) (asked : Asked) : Progress → Prop
  | .asked => True
  | .counting looked entry =>
    asked.born ≤ looked ∧ looked ≤ generation ∧ State.grown asked entry = true ∧
      (generation = looked → Valid committed asked.project entry)
  | .extending looked entry =>
    asked.born ≤ looked ∧ looked ≤ generation ∧ State.grown asked entry = true ∧
      (generation = looked → Valid committed asked.project entry)
  | .reading looked => asked.born ≤ looked ∧ looked ≤ generation
  | .storing looked histogram =>
    looked ≤ generation ∧
      (generation = looked → histogram = upTo committed asked.project asked.maxFrameId) ∧
      (generation = asked.born → histogram = upTo asked.seen asked.project asked.maxFrameId)

/-- What a call in progress relies on.  As long as the generation is the one at its start, the
frames up to its largest id are those it could see then. -/
structure CallOk (committed visible : Tables) (generation : ℕ) (call : Call) : Prop where
  largest : call.asked.maxFrameId =
    ((call.asked.seen.rowsOf call.asked.project).map FrameRow.id).max?
  maxLe : ∀ largest, call.asked.maxFrameId = some largest → largest ≤ committed.lastId
  born : call.asked.born ≤ generation
  seen : generation = call.asked.born →
    upTo committed call.asked.project call.asked.maxFrameId =
      upTo call.asked.seen call.asked.project call.asked.maxFrameId
  own : visible.rowsOf call.asked.project = committed.rowsOf call.asked.project
  progress : ProgressOk committed generation call.asked call.progress

/-- The writer has only new frames in the projects it has not marked, what is cached is valid, the
calls are on their way, and what they have returned was fresh. -/
structure Inv (state : State) : Prop where
  writer : ∀ writer, state.writer = some writer → Kept state.committed writer.tables writer.dirty
  entries : ∀ project entry, Dict.get? state.cache.entries project = some entry →
    Valid state.committed project entry
  calls : ∀ session call, state.call session = some call →
    CallOk state.committed (state.visible session) (state.cache.generations call.asked.project) call
  answers : ∀ answer ∈ state.answers, answer.undisturbed = true →
    answer.value = freshMode answer.seen answer.project

theorem ProgressOk.grown (hOk : ProgressOk old generation asked progress)
    (hGrown : Grown old new asked.project)
    (hMaxLe : ∀ largest, asked.maxFrameId = some largest → largest ≤ old.lastId) :
    ProgressOk new generation asked progress := by
  cases progress with
  | asked => trivial
  | counting | extending =>
    obtain ⟨hBorn, hLooked, hLarger, hValid⟩ := hOk
    exact ⟨hBorn, hLooked, hLarger, fun hSame => (hValid hSame).grown hGrown⟩
  | reading looked => exact hOk
  | storing =>
    obtain ⟨hLooked, hCommitted, hSeen⟩ := hOk
    refine ⟨hLooked, fun hSame => ?_, hSeen⟩
    rw [hGrown.upTo_eq hMaxLe]
    exact hCommitted hSame

theorem ProgressOk.raised {raised : ℕ} (hOk : ProgressOk old generation asked progress)
    (hBorn : asked.born ≤ generation) (hRaised : generation < raised) :
    ProgressOk new raised asked progress := by
  cases progress with
  | asked => trivial
  | counting | extending =>
    obtain ⟨hFirst, hLooked, hLarger, -⟩ := hOk
    exact ⟨hFirst, by omega, hLarger, fun hSame => by omega⟩
  | reading looked => exact ⟨hOk.1, by have := hOk.2; omega⟩
  | storing =>
    obtain ⟨hLooked, -, -⟩ := hOk
    exact ⟨by omega, fun hSame => by omega, fun hSame => by omega⟩

/-! ## Writers -/

section Sessions

variable {state next : State} {session : ℕ}

theorem visible_eq_committed
    (hOther : ∀ writer, state.writer = some writer → writer.session ≠ session) :
    state.visible session = state.committed := by
  unfold State.visible
  split
  next writer hWriter => exact if_neg (hOther writer hWriter)
  next => rfl

theorem Inv.withWriter (hInv : Inv state) (hIdle : state.call session = none)
    (hBefore : ∀ writer, state.writer = some writer → writer.session = session)
    {writer : Option Writer} (hAfter : ∀ new, writer = some new →
      new.session = session ∧ Kept state.committed new.tables new.dirty) :
    Inv { state with writer := writer } := { hInv with
  writer := fun new hNew => (hAfter new hNew).2
  calls := by
    intro other call hCall
    have hNe : session ≠ other := by
      rintro rfl
      rw [hIdle] at hCall
      cases hCall
    have hOk := hInv.calls other call hCall
    rw [visible_eq_committed fun old hOld => (hBefore old hOld).trans_ne hNe] at hOk
    rw [visible_eq_committed fun new hNew => (hAfter new hNew).1.trans_ne hNe]
    exact hOk }

variable {marks : List ℕ} {cache : Cache} {committed visible : Tables}

theorem Inv.write (hInv : Inv state) {change : Tables → Tables}
    (hStep : state.write session change marks = some next)
    (hChange : Kept (state.visible session) (change (state.visible session)) marks) : Inv next := by
  unfold State.write at hStep
  split at hStep
  next => cases hStep
  next hCall hWriter =>
    cases hStep
    rw [visible_eq_committed (by simp [hWriter])] at hChange
    refine hInv.withWriter hCall (by simp [hWriter]) ?_
    rintro _ ⟨⟩
    exact ⟨rfl, hChange⟩
  next writer hCall hWriter =>
    obtain ⟨rfl, rfl⟩ := of_guard hStep
    have hVisible : state.visible writer.session = writer.tables := by
      unfold State.visible
      rw [hWriter]
      exact if_pos rfl
    rw [hVisible] at hChange
    refine hInv.withWriter hCall (by simp [hWriter]) ?_
    rintro _ ⟨⟩
    exact ⟨rfl, (hInv.writer writer hWriter).trans hChange⟩

theorem Inv.rollback (hInv : Inv state) (hStep : state.rollback session = some next) :
    Inv next := by
  unfold State.rollback at hStep
  split at hStep
  next writer hCall hWriter =>
    obtain ⟨rfl, rfl⟩ := of_guard hStep
    exact hInv.withWriter hCall (by simp [hWriter]) nofun
  next => cases hStep

/-! ## Commits -/

theorem generations_invalidated (marks : List ℕ) (cache : Cache) (project : ℕ) :
    cache.generations project ≤ (marks.foldl Cache.invalidate cache).generations project ∧
      (project ∈ marks → cache.generations project <
        (marks.foldl Cache.invalidate cache).generations project) ∧
      (project ∉ marks → (marks.foldl Cache.invalidate cache).generations project =
        cache.generations project) := by
  induction marks generalizing cache with
  | nil => exact ⟨le_rfl, nofun, fun _ => rfl⟩
  | cons mark marks ih =>
    obtain ⟨hLe, hLt, hSame⟩ := ih (cache.invalidate mark)
    simp only [List.foldl_cons, List.mem_cons, not_or]
    by_cases hMark : project = mark
    · subst hMark
      have hRaised : (cache.invalidate project).generations project =
          cache.generations project + 1 := Function.update_self ..
      exact ⟨by omega, fun _ => by omega, fun hNot => absurd rfl hNot.1⟩
    · have hOther : (cache.invalidate mark).generations project =
          cache.generations project := Function.update_of_ne hMark ..
      rw [hOther] at hLe hLt hSame
      exact ⟨hLe, fun hIn => hLt (hIn.resolve_left hMark), fun hNot => hSame hNot.2⟩

theorem get?_invalidated
    (hGet : Dict.get? (marks.foldl Cache.invalidate cache).entries project = some entry) :
    project ∉ marks ∧ Dict.get? cache.entries project = some entry := by
  induction marks generalizing cache with
  | nil => exact ⟨List.not_mem_nil, hGet⟩
  | cons mark marks ih =>
    obtain ⟨hNotMem, hErased⟩ := ih hGet
    have hErase : Dict.get? (cache.entries.erase mark) project = some entry := hErased
    obtain ⟨hNe, hOld⟩ := Dict.of_get?_erase hErase
    exact ⟨List.not_mem_cons_of_ne_of_not_mem hNe hNotMem, hOld⟩

theorem CallOk.commit {call : Call}
    (hOk : CallOk committed visible (cache.generations call.asked.project) call)
    (hKept : Kept committed new marks) :
    CallOk new new
      ((marks.dedup.foldl Cache.invalidate cache).generations call.asked.project) call := by
  obtain ⟨hLe, hLt, hSame⟩ :=
    generations_invalidated marks.dedup cache call.asked.project
  have hMaxLe : ∀ largest, call.asked.maxFrameId = some largest → largest ≤ new.lastId :=
    fun largest hMax => le_trans (hOk.maxLe largest hMax) hKept.lastId_le
  by_cases hMark : call.asked.project ∈ marks
  · -- The generation is above all that the call has seen.
    have hRaised := hLt (List.mem_dedup.mpr hMark)
    have hBorn := hOk.born
    exact
      { largest := hOk.largest
        maxLe := hMaxLe
        born := by omega
        seen := fun hEq => by omega
        own := rfl
        progress := hOk.progress.raised hBorn hRaised }
  · have hGrown := hKept.unmarked _ hMark
    rw [hSame fun hIn => hMark (List.mem_dedup.mp hIn)]
    exact
      { largest := hOk.largest
        maxLe := hMaxLe
        born := hOk.born
        seen := fun hEq => (hGrown.upTo_eq hOk.maxLe).trans (hOk.seen hEq)
        own := rfl
        progress := hOk.progress.grown hGrown hOk.maxLe }

theorem Inv.commit (hInv : Inv state) (hStep : state.commit session = some next) : Inv next := by
  unfold State.commit at hStep
  split at hStep
  next writer hCall hWriter =>
    obtain ⟨-, rfl⟩ := of_guard hStep
    have hKept := hInv.writer writer hWriter
    exact
      { writer := nofun
        entries := by
          intro project entry hGet
          obtain ⟨hNotMem, hOld⟩ := get?_invalidated hGet
          have hClean : project ∉ writer.dirty :=
            fun hIn => hNotMem (List.mem_dedup.mpr hIn)
          exact (hInv.entries project entry hOld).grown (hKept.unmarked project hClean)
        calls := fun other call hOther => (hInv.calls other call hOther).commit hKept
        answers := hInv.answers }
  next => cases hStep

/-! ## Calls -/

theorem Inv.withCall (hInv : Inv state) {value : Option Call}
    (hValue : ∀ call, value = some call → CallOk state.committed (state.visible session)
      (state.cache.generations call.asked.project) call) :
    Inv { state with call := Function.update state.call session value } := { hInv with
  calls := by
    intro other call hCall
    dsimp only at hCall
    by_cases hSame : other = session
    · subst hSame
      rw [Function.update_self] at hCall
      exact hValue call hCall
    · rw [Function.update_of_ne hSame] at hCall
      exact hInv.calls other call hCall }

theorem Inv.answer (hInv : Inv state) {value : Option Size}
    (hValue : state.cache.generations asked.project = asked.born →
      value = freshMode asked.seen asked.project) :
    Inv (state.answer session asked value) := by
  have hIdle : Inv { state with call := Function.update state.call session none } :=
    hInv.withCall nofun
  exact { hIdle with
    answers := forall_mem_concat hInv.answers fun hUndisturbed =>
      hValue (of_decide_eq_true hUndisturbed) }

theorem Inv.proceed (hInv : Inv state) (hOk : CallOk state.committed (state.visible session)
      (state.cache.generations asked.project) ⟨asked, progress⟩) :
    Inv (state.proceed session asked progress) := by
  refine hInv.withCall ?_
  rintro call hCall
  cases hCall
  exact hOk

theorem Inv.withCache (hInv : Inv state)
    (hGenerations : cache.generations = state.cache.generations)
    (hEntries : ∀ project entry, Dict.get? cache.entries project = some entry →
      Valid state.committed project entry) :
    Inv { state with cache := cache } := { hInv with
  entries := hEntries
  calls := by
    intro other call hCall
    have hOk := hInv.calls other call hCall
    rw [← hGenerations] at hOk
    exact hOk }

theorem get?_touch (cache : Cache) (project other : ℕ) :
    Dict.get? (cache.touch project).entries other = Dict.get? cache.entries other := by
  unfold Cache.touch
  cases hGet : Dict.get? cache.entries project with
  | none => rfl
  | some entry =>
    rw [Dict.get?_set]
    split
    next hSame => rw [hSame, hGet]
    next => rfl

theorem generations_touch (cache : Cache) (project : ℕ) :
    (cache.touch project).generations = cache.generations := by
  unfold Cache.touch
  split <;> rfl

theorem CallOk.mode_eq {call : Call} (hOk : CallOk committed visible generation call)
    {histogram : Histogram} (hHistogram : generation = call.asked.born →
      histogram = upTo call.asked.seen call.asked.project call.asked.maxFrameId)
    (hBorn : generation = call.asked.born) :
    histogramMode histogram = freshMode call.asked.seen call.asked.project := by
  unfold freshMode
  rw [dimensionHistogram_eq_upTo, ← hOk.largest, hHistogram hBorn]

theorem CallOk.withProgress (hOk : CallOk committed visible generation ⟨asked, progress⟩)
    {new : Progress} (hNew : ProgressOk committed generation asked new) :
    CallOk committed visible generation ⟨asked, new⟩ := { hOk with
  progress := hNew }

theorem Inv.look (hInv : Inv state) (hOk : CallOk state.committed (state.visible session)
      (state.cache.generations asked.project) ⟨asked, .asked⟩) :
    Inv (state.look session asked) := by
  have hTouched : Inv { state with cache := state.cache.touch asked.project } := by
    refine hInv.withCache (generations_touch ..) ?_
    intro project entry hGet
    rw [get?_touch] at hGet
    exact hInv.entries project entry hGet
  have hFirst : ProgressOk state.committed (state.cache.generations asked.project) asked
      (.reading (state.cache.generations asked.project)) := ⟨hOk.born, le_rfl⟩
  have hReading := hOk.withProgress hFirst
  unfold State.look
  rw [← generations_touch state.cache asked.project] at hReading hOk ⊢
  cases hGet : Dict.get? state.cache.entries asked.project with
  | none => exact hTouched.proceed hReading
  | some entry =>
    have hValid := hInv.entries _ _ hGet
    dsimp only
    split
    next hHit =>
      -- The entry is of the frames up to the key.
      obtain ⟨hMax, -⟩ := Bool.and_eq_true_iff.mp hHit
      refine hTouched.answer (hOk.mode_eq ?_)
      intro hBorn
      rw [hValid.histogram, of_decide_eq_true hMax]
      exact hOk.seen hBorn
    next =>
      split
      next hLarger =>
        exact hTouched.proceed (hOk.withProgress ⟨hOk.born, le_rfl, hLarger, fun _ => hValid⟩)
      next => exact hTouched.proceed hReading

theorem freshMode_of_missing (hMissing : tables.frameCount project = none) :
    freshMode tables project = none := by
  have hNone : tables.rowsOf project = [] := by
    refine List.filter_eq_nil_iff.mpr ?_
    intro frame hMem hIn
    refine tables.projects frame hMem ?_
    rw [of_decide_eq_true hIn, hMissing]
  unfold freshMode dimensionHistogram
  rw [hNone]
  rfl

theorem Inv.ask (hInv : Inv state) (hOwn : NoOwnFrames state (.ask session project))
    (hStep : state.ask session project = some next) : Inv next := by
  unfold State.ask at hStep
  cases hCall : state.call session with rw [hCall] at hStep
  | some call => cases hStep
  | none =>
    dsimp only at hStep
    split at hStep
    next hDirty =>
      cases hStep
      exact hInv.answer fun _ => rfl
    next hClean =>
      have hRows := hOwn.resolve_left hClean
      cases hCount : (state.visible session).frameCount project with rw [hCount] at hStep
      | none =>
        cases hStep
        exact hInv.answer fun _ => (freshMode_of_missing hCount).symm
      | some frameCount =>
        cases hStep
        refine hInv.proceed ⟨rfl, ?_, le_rfl, fun _ => upTo_congr hRows.symm _, hRows, trivial⟩
        intro largest hMax
        have hMem := (List.max?_eq_some_iff.mp hMax).1
        rw [hRows] at hMem
        obtain ⟨frame, hFrame, hId⟩ := List.mem_map.mp hMem
        rw [← hId]
        exact state.committed.idsLe frame (List.mem_filter.mp hFrame).1

theorem extended_eq (hValid : Valid tables asked.project entry)
    (hLarger : State.grown asked entry = true) :
    entry.histogram + dimensionHistogram tables asked.project entry.maxFrameId asked.maxFrameId =
      upTo tables asked.project asked.maxFrameId := by
  rw [hValid.histogram]
  unfold State.grown at hLarger
  cases hMax : asked.maxFrameId with
  | none =>
    rw [hMax] at hLarger
    cases hLarger
  | some largest =>
    refine upTo_add_range ?_
    intro cached hCached
    rw [hMax, hCached] at hLarger
    exact of_decide_eq_true hLarger

theorem Inv.storing (hInv : Inv state) {looked : ℕ} {histogram : Histogram}
    (hOk : CallOk state.committed (state.visible session)
      (state.cache.generations asked.project) ⟨asked, .storing looked histogram⟩)
    (hStored : state.cache.generations asked.project = looked) :
    Inv { state with
      cache := state.cache.store asked.project
        ⟨asked.maxFrameId, asked.frameCount, histogram⟩ } := by
  refine hInv.withCache (by simp only [Cache.store]) ?_
  intro project entry hGet
  have hSet := Dict.get?_of_newest hGet
  rcases Dict.of_get?_set hSet with ⟨rfl, rfl⟩ | ⟨-, hOld⟩
  · exact ⟨hOk.progress.2.1 hStored, hOk.maxLe⟩
  · exact hInv.entries project entry hOld

theorem Inv.advance (hInv : Inv state) (hStep : state.advance session = some next) : Inv next := by
  unfold State.advance at hStep
  cases hCall : state.call session with rw [hCall] at hStep
  | none => cases hStep
  | some call =>
    obtain ⟨asked, progress⟩ := call
    have hOk := hInv.calls session _ hCall
    cases progress with
    | asked =>
      cases hStep
      exact hInv.look hOk
    | counting =>
      obtain ⟨hBorn, hLooked, hLarger, hValid⟩ := hOk.progress
      dsimp only at hStep
      split at hStep
      next =>
        cases hStep
        exact hInv.proceed (hOk.withProgress ⟨hBorn, hLooked, hLarger, hValid⟩)
      next =>
        cases hStep
        exact hInv.proceed (hOk.withProgress ⟨hBorn, hLooked⟩)
    | extending looked entry =>
      cases hStep
      obtain ⟨hBorn, hLooked, hLarger, hValid⟩ := hOk.progress
      -- The frames that are added are the committed ones.
      have hAdded := dimensionHistogram_congr hOk.own entry.maxFrameId asked.maxFrameId
      have hEq : state.cache.generations asked.project = looked →
          entry.histogram + dimensionHistogram (state.visible session) asked.project
            entry.maxFrameId asked.maxFrameId =
          upTo state.committed asked.project asked.maxFrameId := by
        intro hSame
        rw [hAdded]
        exact extended_eq (hValid hSame) hLarger
      refine hInv.proceed (hOk.withProgress ⟨hLooked, hEq, fun hSame => ?_⟩)
      exact (hEq (le_antisymm (hSame.trans_le hBorn) hLooked)).trans (hOk.seen hSame)
    | reading looked =>
      cases hStep
      have hEq := upTo_congr hOk.own asked.maxFrameId
      exact hInv.proceed (hOk.withProgress
        ⟨hOk.progress.2, fun _ => hEq, fun hSame => hEq.trans (hOk.seen hSame)⟩)
    | storing looked histogram =>
      cases hStep
      obtain ⟨-, -, hSeen⟩ := hOk.progress
      by_cases hSame : state.cache.generations asked.project = looked
      · rw [if_pos hSame]
        exact (hInv.storing hOk hSame).answer (hOk.mode_eq hSeen)
      · rw [if_neg hSame]
        exact hInv.answer (hOk.mode_eq hSeen)

end Sessions

/-! ## Whole runs -/

theorem inv_initial (tables : Tables) : Inv (State.initial tables) where
  writer := nofun
  entries := nofun
  calls := nofun
  answers := nofun

theorem inv_of_step {state next : State} {label : Label} (hInv : Inv state)
    (hOwn : NoOwnFrames state label) (hStep : step state label = some next) : Inv next := by
  cases label with
  | insert session project width height count =>
    obtain ⟨_, -, hWrite⟩ := Option.bind_eq_some_iff.mp hStep
    have hKept : Kept (state.visible session)
        ((state.visible session).insert project width height count) [] :=
      ⟨Nat.le_succ _, fun other _ => Grown.insert _ project width height count other⟩
    exact hInv.write hWrite hKept
  | setActive session frameId active =>
    obtain ⟨project, hProject, hWrite⟩ := Option.bind_eq_some_iff.mp hStep
    refine hInv.write hWrite ⟨le_rfl, ?_⟩
    exact fun other hOther => Grown.setActive active hProject (List.ne_of_not_mem_cons hOther)
  | remove session frameId count =>
    obtain ⟨project, hProject, hWrite⟩ := Option.bind_eq_some_iff.mp hStep
    refine hInv.write hWrite ⟨le_rfl, ?_⟩
    exact fun other hOther => Grown.remove count hProject (List.ne_of_not_mem_cons hOther)
  | commit session => exact hInv.commit hStep
  | rollback session => exact hInv.rollback hStep
  | ask => exact hInv.ask hOwn hStep
  | advance session => exact hInv.advance hStep

/-- Every run: a call during which no commit has invalidated the project returns the mode of a
histogram made fresh of what it could see at its start, provided that no session asks while it has
frames of the project that it has not committed and no mark for it. -/
theorem answers_fresh {tables : Tables} {labels : List Label} {stop : State}
    (hRun : Run (Guarded (Steps step) NoOwnFrames) (State.initial tables) labels stop) :
    ∀ answer ∈ stop.answers, answer.undisturbed = true →
      answer.value = freshMode answer.seen answer.project := by
  have hInv := hRun.invariant Inv
    (fun _ _ _ hInv hStep => inv_of_step hInv hStep.2 hStep.1) (inv_initial tables)
  exact hInv.answers

/-- One project, without frames. -/
def Tables.oneProject : Tables where
  frames := ⟨[], List.nodup_nil⟩
  lastId := 0
  frameCount := fun project => if project = 0 then some 0 else none
  idsLe := nofun
  projects := nofun

/-- Two frames of one size are written and asked for, then a third of another size, and asked for
again: the second call extends what the first has stored. -/
def extendingRun : List Label :=
  [.insert 1 0 (some 4) (some 3) 1, .insert 1 0 (some 4) (some 3) 2, .commit 1,
    .ask 2 0, .advance 2, .advance 2, .advance 2,
    .insert 1 0 (some 8) (some 6) 3, .commit 1,
    .ask 2 0, .advance 2, .advance 2, .advance 2, .advance 2]

theorem answers_fresh_when_extended :
    ∃ stop, exec (checked step NoOwnFrames) (State.initial Tables.oneProject) extendingRun =
        some stop ∧
      stop.answers.map (fun answer => (answer.value, answer.undisturbed)) =
        [(some (4, 3), true), (some (4, 3), true)] ∧
      ∀ answer ∈ stop.answers, answer.undisturbed = true →
        answer.value = freshMode answer.seen answer.project := by
  have hAnswers : ∃ stop ∈ exec (checked step NoOwnFrames) (State.initial Tables.oneProject)
      extendingRun, stop.answers.map (fun answer => (answer.value, answer.undisturbed)) =
        [(some (4, 3), true), (some (4, 3), true)] := by decide +kernel
  obtain ⟨stop, hExec, hValues⟩ := hAnswers
  exact ⟨stop, hExec, hValues, answers_fresh (Run.of_exec_checked hExec)⟩

/-- A session asks with a frame of its own, and rolls back; the next frame has the same id. -/
def rolledBackRun : List Label :=
  [.insert 1 0 (some 4) (some 3) 1, .ask 1 0, .advance 1, .advance 1, .advance 1, .rollback 1,
    .insert 2 0 (some 8) (some 6) 1, .commit 2, .ask 3 0, .advance 3]

/-- While a session asks, a frame is written and then the one it has asked for soft-deleted. -/
def disturbedRun : List Label :=
  [.insert 1 0 (some 4) (some 3) 1, .commit 1, .ask 3 0,
    .insert 1 0 (some 8) (some 6) 2, .commit 1, .setActive 1 1 false, .commit 1,
    .advance 3, .advance 3, .advance 3]

/-- The entry of the frame that was rolled back is a hit for the frame that has its id.  And a call
whose frame is soft-deleted after a new one was written returns nothing, although there was an
active frame with a size at every moment of the call. -/
theorem cache_observable :
    (exec step (State.initial Tables.oneProject) rolledBackRun).map (fun stop =>
        stop.answers.map fun answer => (answer.value, freshMode answer.seen answer.project)) =
      some [(some (4, 3), some (4, 3)), (some (4, 3), some (8, 6))] ∧
    (exec step (State.initial Tables.oneProject) disturbedRun).map (fun stop =>
        stop.answers.map Answer.value) = some [none] ∧
    ∀ steps ∈ List.range' 2 9,
      ((exec step (State.initial Tables.oneProject) (disturbedRun.take steps)).bind fun state =>
        freshMode state.committed 0) ≠ none := by
  decide +kernel

end TimelapseManager.Storage.Dimensions
