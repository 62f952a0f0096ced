import TimelapseManager.Lib.Dict
import TimelapseManager.Lib.Runs

/-!
# The predominant dimensions of a project

`predominant_dimensions` keeps, per project, the histogram of the sizes of the active frames and
extends it with the frames that are new.  Soft deletes, restores and permanent deletes mark the
project in their session; when the session commits, the entry is dropped and the generation of the
project raised.

Only one session writes at a time.  Every statement of another session reads what is committed
then, so that the frames may change between two statements of one call.  An id that was given in a
transaction that is rolled back is given again.
-/

namespace TimelapseManager.Storage.Dimensions

open KeyedRows

/-! ## The tables -/

/-- The columns of a frame that are read here; `active` is its lifecycle state. -/
structure FrameRow where
  id : ℕ
  project : ℕ
  width : Option ℕ
  height : Option ℕ
  active : Bool
  deriving DecidableEq

/-- The frames, the last id given, and the frame counts of the projects there are. -/
structure Tables where
  frames : Rows FrameRow.id
  lastId : ℕ
  frameCount : ℕ → Option ℕ
  idsLe : ∀ frame ∈ frames.rows, frame.id ≤ lastId
  projects : ∀ frame ∈ frames.rows, frameCount frame.project ≠ none

namespace Tables

variable (tables : Tables)

/-- The frames of a project. -/
def rowsOf (project : ℕ) : List FrameRow :=
  tables.frames.rows.filter fun frame => frame.project = project

theorem fresh : tables.lastId + 1 ∉ tables.frames.rows.map FrameRow.id := by
  intro hMem
  obtain ⟨frame, hFrame, hId⟩ := List.mem_map.mp hMem
  have hLe := tables.idsLe frame hFrame
  omega

/-- The frame count of a project is set. -/
def setCount (project count : ℕ) : ℕ → Option ℕ :=
  Function.update tables.frameCount project (some count)

theorem setCount_ne_none {tables : Tables} {project count other : ℕ}
    (hOther : other = project ∨ tables.frameCount other ≠ none) :
    tables.setCount project count other ≠ none := by
  unfold setCount
  by_cases hSame : other = project
  · rw [hSame, Function.update_self]
    exact Option.some_ne_none _
  · rw [Function.update_of_ne hSame]
    exact hOther.resolve_left hSame

/-- A frame is written; the writer sets the count to a value of its own. -/
def insert (project : ℕ) (width height : Option ℕ) (count : ℕ) : Tables where
  frames := tables.frames.append ⟨tables.lastId + 1, project, width, height, true⟩ tables.fresh
  lastId := tables.lastId + 1
  frameCount := tables.setCount project count
  idsLe := by
    refine forall_mem_concat ?_ le_rfl
    exact fun frame hOld => Nat.le_succ_of_le (tables.idsLe frame hOld)
  projects := by
    refine forall_mem_concat ?_ (setCount_ne_none (Or.inl rfl))
    exact fun frame hOld => setCount_ne_none (Or.inr (tables.projects frame hOld))

/-- A frame is soft-deleted or restored. -/
def setActive (frameId : ℕ) (active : Bool) : Tables where
  frames := tables.frames.amend frameId (fun frame => { frame with active := active }) fun _ => rfl
  lastId := tables.lastId
  frameCount := tables.frameCount
  idsLe := by
    intro frame hMem
    rcases Rows.mem_amend hMem with ⟨-, old, hOld, rfl⟩ | ⟨hOld, -⟩
    · exact tables.idsLe old hOld
    · exact tables.idsLe frame hOld
  projects := by
    intro frame hMem
    rcases Rows.mem_amend hMem with ⟨-, old, hOld, rfl⟩ | ⟨hOld, -⟩
    · exact tables.projects old hOld
    · exact tables.projects frame hOld

/-- A frame is deleted for good. -/
def remove (frameId project count : ℕ) : Tables where
  frames := tables.frames.erase frameId
  lastId := tables.lastId
  frameCount := tables.setCount project count
  idsLe := fun frame hMem => tables.idsLe frame (List.mem_filter.mp hMem).1
  projects := fun frame hMem =>
    setCount_ne_none (Or.inr (tables.projects frame (List.mem_filter.mp hMem).1))

/-- The project of a frame. -/
def projectOf (frameId : ℕ) : Option ℕ :=
  (tables.frames.find? frameId).map FrameRow.project

end Tables

/-! ## Histograms -/

abbrev Size := ℕ × ℕ

/-- A `Counter` of sizes. -/
abbrev Histogram := Multiset Size

/-- The size of a frame, if it is active and both its dimensions are known. -/
def FrameRow.size (frame : FrameRow) : Option Size :=
  if frame.active then frame.width.bind fun width => frame.height.map fun height => (width, height)
  else none

/-- The frame's id is in the range. -/
def inRange (afterId upToId : Option ℕ) (frame : FrameRow) : Bool :=
  (afterId.all fun low => low < frame.id) && upToId.all fun high => frame.id ≤ high

/-- `_dimension_histogram`. -/
def dimensionHistogram (tables : Tables) (project : ℕ) (afterId upToId : Option ℕ) : Histogram :=
  ((tables.rowsOf project).filter (inRange afterId upToId)).filterMap FrameRow.size

/-- The histogram that is made without an entry: of the frames up to an id, of none if there is no
id. -/
def upTo (tables : Tables) (project : ℕ) : Option ℕ → Histogram
  | none => 0
  | some largest => dimensionHistogram tables project none (some largest)

/-- What `_histogram_mode` compares. -/
def modeKey (histogram : Histogram) (size : Size) : ℕ ×ₗ ℕ ×ₗ ℕ :=
  toLex (histogram.count size, toLex size)

/-- `_histogram_mode`. -/
def histogramMode (histogram : Histogram) : Option Size :=
  match (histogram.toFinset.image (modeKey histogram)).max with
  | none => none
  | some key => some (ofLex (ofLex key).2)

/-- The mode of a histogram made of what the tables hold. -/
def freshMode (tables : Tables) (project : ℕ) : Option Size :=
  histogramMode (dimensionHistogram tables project none none)

/-! ## The cache -/

/-- `_DimensionsEntry`. -/
structure Entry where
  maxFrameId : Option ℕ
  frameCount : ℕ
  histogram : Histogram
  deriving DecidableEq

/-- `_EngineDimensionsCache`. -/
structure Cache where
  entries : Dict ℕ Entry
  generations : ℕ → ℕ

/-- `_DIMS_CACHE_MAX_PROJECTS`. -/
def maxProjects : ℕ := 256

namespace Cache

/-- `invalidate_predominant_dimensions`. -/
def invalidate (cache : Cache) (project : ℕ) : Cache where
  entries := cache.entries.erase project
  generations := Function.update cache.generations project (cache.generations project + 1)

/-- `move_to_end` of the entry that was found. -/
def touch (cache : Cache) (project : ℕ) : Cache :=
  match Dict.get? cache.entries project with
  | none => cache
  | some entry => { cache with entries := Dict.set cache.entries project entry }

/-- The entry is stored as the newest, and the oldest ones above the limit are dropped. -/
def store (cache : Cache) (project : ℕ) (entry : Entry) : Cache :=
  { cache with entries := (Dict.set cache.entries project entry).newest maxProjects }

end Cache

/-! ## Sessions and calls -/

/-- The session that writes: its tables and the projects it has marked dirty. -/
structure Writer where
  session : ℕ
  tables : Tables
  dirty : List ℕ

/-- What a call has read first: the key, and, to be talked about, all it could see then and the
generation of the project. -/
structure Asked where
  project : ℕ
  frameCount : ℕ
  maxFrameId : Option ℕ
  seen : Tables
  born : ℕ

/-- Where a call of `predominant_dimensions` is. -/
inductive Progress
  | asked
  | counting (generation : ℕ) (entry : Entry)
  | extending (generation : ℕ) (entry : Entry)
  | reading (generation : ℕ)
  | storing (generation : ℕ) (histogram : Histogram)

structure Call where
  asked : Asked
  progress : Progress

/-- What a call has returned, with what it could see at its start, and whether no commit has
invalidated the project since. -/
structure Answer where
  project : ℕ
  value : Option Size
  seen : Tables
  undisturbed : Bool

structure State where
  committed : Tables
  writer : Option Writer
  cache : Cache
  call : ℕ → Option Call
  answers : List Answer

variable (state : State)

namespace State

variable (session : ℕ)

/-- What the statements of a session read. -/
def visible : Tables :=
  match state.writer with
  | some writer => if writer.session = session then writer.tables else state.committed
  | none => state.committed

/-- The projects that the session has marked. -/
def dirty : List ℕ :=
  match state.writer with
  | some writer => if writer.session = session then writer.dirty else []
  | none => []

/-- The session writes: it is the writer, or becomes it. -/
def write (change : Tables → Tables) (marks : List ℕ) : Option State :=
  match state.call session, state.writer with
  | some _, _ => none
  | none, none => some { state with writer := some ⟨session, change state.committed, marks⟩ }
  | none, some writer =>
    if writer.session = session then
      some { state with
        writer := some ⟨session, change writer.tables, marks ++ writer.dirty⟩ }
    else none

/-- The call of the session ends with a value. -/
def answer (asked : Asked) (value : Option Size) : State :=
  { state with
    call := Function.update state.call session none
    answers := state.answers ++
      [⟨asked.project, value, asked.seen, state.cache.generations asked.project = asked.born⟩] }

/-- The call goes on. -/
def proceed (asked : Asked) (progress : Progress) : State :=
  { state with call := Function.update state.call session (some ⟨asked, progress⟩) }

/-- A call starts: a session that has marked the project computes fresh; otherwise the key is
read. -/
def ask (session project : ℕ) : Option State :=
  match state.call session with
  | some _ => none
  | none =>
    let tables := state.visible session
    let asked (frameCount : ℕ) : Asked :=
      ⟨project, frameCount, ((tables.rowsOf project).map FrameRow.id).max?, tables,
        state.cache.generations project⟩
    if project ∈ state.dirty session then
      some (state.answer session (asked 0) (freshMode tables project))
    else
      match tables.frameCount project with
      | none => some (state.answer session (asked 0) none)
      | some frameCount => some (state.proceed session (asked frameCount) .asked)

/-- The entry was made at the key. -/
def hit (asked : Asked) (entry : Entry) : Bool :=
  entry.maxFrameId = asked.maxFrameId && entry.frameCount = asked.frameCount

/-- The largest id has grown since the entry was made. -/
def grown (asked : Asked) (entry : Entry) : Bool :=
  match asked.maxFrameId, entry.maxFrameId with
  | none, _ => false
  | some _, none => true
  | some largest, some cached => cached < largest

/-- The look into the cache, under its lock. -/
def look (asked : Asked) : State :=
  let touched := { state with cache := state.cache.touch asked.project }
  let generation := state.cache.generations asked.project
  match Dict.get? state.cache.entries asked.project with
  | none => touched.proceed session asked (.reading generation)
  | some entry =>
    if hit asked entry then touched.answer session asked (histogramMode entry.histogram)
    else if grown asked entry then touched.proceed session asked (.counting generation entry)
    else touched.proceed session asked (.reading generation)

/-- The number of frames above the entry's, as `_extend_histogram` counts them. -/
def added (tables : Tables) (asked : Asked) (entry : Entry) : ℕ :=
  (tables.rowsOf asked.project).countP (inRange (some (entry.maxFrameId.getD 0)) asked.maxFrameId)

/-- The next step of the call of a session. -/
def advance : Option State :=
  match state.call session with
  | none => none
  | some ⟨asked, progress⟩ =>
    let tables := state.visible session
    match progress with
    | .asked => some (state.look session asked)
    | .counting generation entry =>
      if (asked.frameCount : ℤ) - entry.frameCount = added tables asked entry then
        some (state.proceed session asked (.extending generation entry))
      else some (state.proceed session asked (.reading generation))
    | .extending generation entry =>
      some (state.proceed session asked (.storing generation (entry.histogram +
        dimensionHistogram tables asked.project entry.maxFrameId asked.maxFrameId)))
    | .reading generation =>
      some (state.proceed session asked
        (.storing generation (upTo tables asked.project asked.maxFrameId)))
    | .storing generation histogram =>
      let cache :=
        if state.cache.generations asked.project = generation then
          state.cache.store asked.project ⟨asked.maxFrameId, asked.frameCount, histogram⟩
        else state.cache
      some (State.answer { state with cache := cache } session asked (histogramMode histogram))

/-- The session commits, and its hook drops what it has marked. -/
def commit : Option State :=
  match state.call session, state.writer with
  | none, some writer =>
    if writer.session = session then
      some { state with
        committed := writer.tables
        writer := none
        cache := writer.dirty.dedup.foldl Cache.invalidate state.cache }
    else none
  | _, _ => none

/-- The session rolls back, and its marks are forgotten. -/
def rollback : Option State :=
  match state.call session, state.writer with
  | none, some writer =>
    if writer.session = session then some { state with writer := none } else none
  | _, _ => none

end State

inductive Label
  | insert (session project : ℕ) (width height : Option ℕ) (count : ℕ)
  | setActive (session frameId : ℕ) (active : Bool)
  | remove (session frameId count : ℕ)
  | commit (session : ℕ)
  | rollback (session : ℕ)
  | ask (session project : ℕ)
  | advance (session : ℕ)
  deriving DecidableEq

/-- One step of a session: a write, the end of its transaction, or a statement of its call. -/
def step : Label → Option State
  | .insert session project width height count =>
    ((state.visible session).frameCount project).bind fun _ =>
      state.write session (fun tables => tables.insert project width height count) []
  | .setActive session frameId active =>
    ((state.visible session).projectOf frameId).bind fun project =>
      state.write session (fun tables => tables.setActive frameId active) [project]
  | .remove session frameId count =>
    ((state.visible session).projectOf frameId).bind fun project =>
      state.write session (fun tables => tables.remove frameId project count) [project]
  | .commit session => state.commit session
  | .rollback session => state.rollback session
  | .ask session project => state.ask session project
  | .advance session => state.advance session

/-- A session that asks has not written frames of the project, unless it has marked it. -/
def NoOwnFrames : Label → Prop
  | .ask session project =>
    project ∈ state.dirty session ∨
      (state.visible session).rowsOf project = state.committed.rowsOf project
  | _ => True

instance (state : State) (label : Label) : Decidable (NoOwnFrames state label) := by
  cases label <;> unfold NoOwnFrames <;> infer_instance

/-- Nothing is cached and nobody is at work. -/
def State.initial (tables : Tables) : State where
  committed := tables
  writer := none
  cache := ⟨Dict.empty, fun _ => 0⟩
  call := fun _ => none
  answers := []

end TimelapseManager.Storage.Dimensions
