import Mathlib.Data.Rat.Defs
import TimelapseManager.Encode.Overlay

/-!
# The list of the frames

`_write_concat_list` names the frames for FFmpeg's concat demuxer, which splits the list into lines
and reads a path with `av_get_token`.
-/

namespace TimelapseManager.Encode.ConcatList

open QuotedTokens

/-- `_LINE_BREAK_CHARS`. -/
def isLineBreak (char : Char) : Bool := char = '\r' || char = '\n' || char = '\x00'

/-- A path, and when it was captured, in microseconds. -/
structure FrameRef where
  absolutePath : Text
  captureTimestamp : ℤ

def escaped (path : Text) : Text := replaceChar '\'' ['\'', '\\', '\'', '\''] path

/-- `_escape_concat_path`; `none` is the `EncoderError`. -/
def escapeConcatPath (path : Text) : Option Text :=
  if path.any isLineBreak then none else some (escaped path)

def duration (frame next : FrameRef) : ℚ :=
  let gap : ℚ := (next.captureTimestamp - frame.captureTimestamp : ℤ) / 1000000
  if 0 < gap then gap else 1 / 1000

inductive Directive
  | file (path : Text)
  | duration
  | other (keyword : Text)

def readDirective (line : Text) : Option Directive :=
  let line := skipBlanks line
  let keyword := line.takeWhile (!isBlank ·)
  if keyword = [] then none
  else if keyword = "file".toList then
    some (.file (getToken isBlank (line.dropWhile (!isBlank ·))).1)
  else if keyword = "duration".toList then some .duration
  else some (.other keyword)

/-- The lines of the list as the demuxer reads them. -/
def readConcatList (text : Text) : List Directive :=
  (text.splitOnP isLineBreak).filterMap readDirective

/-- The frames in their order, each but the last with a duration. -/
def directives : List FrameRef → List Directive
  | [] => []
  | [last] => [.file last.absolutePath]
  | frame :: next :: rest =>
    .file frame.absolutePath :: .duration :: directives (next :: rest)

section

-- A number as a float, written with `.6f`.
variable (format : ℚ → { text : Text // text.any isLineBreak = false })

def durationLine (frame : FrameRef) : List FrameRef → List Text
  | [] => []
  | next :: _ => ["duration ".toList ++ (format (duration frame next)).1]

/-- The loop of `_write_concat_list`. -/
def concatLines : List FrameRef → Option (List Text)
  | [] => some []
  | frame :: rest => do
    let path ← escapeConcatPath frame.absolutePath
    let lines ← concatLines rest
    return ("file '".toList ++ path ++ ['\'']) :: (durationLine format frame rest ++ lines)

/-- The text of the file; `none` if nothing is written. -/
def writeConcatList (frames : List FrameRef) : Option Text :=
  (concatLines format frames).map fun lines => ['\n'].intercalate lines ++ ['\n']

theorem scan_escaped {kept loose : Text} (path : Text) :
    scan isBlank true (escaped path ++ ['\'']) kept loose = (kept ++ loose ++ path, []) := by
  induction path generalizing kept loose with
  | nil => simp [escaped, replaceChar, scan]
  | cons char path ih =>
    unfold escaped replaceChar at ih ⊢
    by_cases hQuote : char = '\''
    · -- The quotes are closed, the character is escaped, and they are opened again.
      simp [hQuote, scan, scan_open, ih, isBlank]
    · simp [hQuote, scan, ih]

theorem readDirective_file (path : Text) :
    readDirective ("file '".toList ++ escaped path ++ ['\'']) = some (.file path) := by
  have hToken : getToken isBlank (' ' :: '\'' :: (escaped path ++ ['\''])) = (path, []) :=
    (scan_open rfl).trans (scan_escaped path)
  exact congrArg (fun token : Text × Text => some (Directive.file token.1)) hToken

theorem any_escaped (path : Text) : (escaped path).any isLineBreak = path.any isLineBreak := by
  rw [escaped, replaceChar, List.any_flatMap]
  refine congrArg path.any (funext fun char => ?_)
  split
  next hQuote =>
    rw [hQuote]
    rfl
  next => exact Bool.or_false _

theorem readConcatList_lines {lines : List Text}
    (hLines : ∀ line ∈ lines, line.any isLineBreak = false) :
    readConcatList (['\n'].intercalate lines ++ ['\n']) = lines.filterMap readDirective := by
  unfold readConcatList
  induction lines with
  | nil => rfl
  | cons line lines ih =>
    obtain ⟨hLine, hRest⟩ := List.forall_mem_cons.mp hLines
    have hSplit : ∀ rest, (line ++ '\n' :: rest).splitOnP isLineBreak =
        line :: rest.splitOnP isLineBreak :=
      List.splitOnP_append_cons_of_forall_mem (by simpa using hLine) _ rfl
    cases lines with
    | nil =>
      rw [List.intercalate_singleton, hSplit]
      rfl
    | cons next lines =>
      rw [List.intercalate_cons_cons, List.append_assoc, List.append_assoc, List.singleton_append,
        hSplit, List.filterMap_cons, ih hRest]
      rfl

theorem concatLines_reads (frames : List FrameRef) :
    (concatLines format frames = none ∧
        ∃ frame ∈ frames, ∃ char ∈ frame.absolutePath, isLineBreak char = true) ∨
      ∃ lines, concatLines format frames = some lines ∧
        (∀ line ∈ lines, line.any isLineBreak = false) ∧
        lines.filterMap readDirective = directives frames := by
  induction frames with
  | nil => exact Or.inr ⟨[], rfl, nofun, rfl⟩
  | cons frame rest ih =>
    cases hBreak : frame.absolutePath.any isLineBreak with
    | true =>
      refine Or.inl ⟨?_, frame, List.mem_cons_self, List.any_eq_true.mp hBreak⟩
      simp [concatLines, escapeConcatPath, hBreak]
    | false =>
      rcases ih with ⟨hNone, other, hMem, hOther⟩ | ⟨lines, hLines, hPlain, hReads⟩
      · exact Or.inl ⟨by simp [concatLines, hNone], other, List.mem_cons_of_mem _ hMem, hOther⟩
      · have hPath : escapeConcatPath frame.absolutePath = some (escaped frame.absolutePath) := by
          rw [escapeConcatPath, hBreak]
          rfl
        refine Or.inr ⟨_, by rw [concatLines, hPath, hLines]; rfl, ?_, ?_⟩
        · refine List.forall_mem_cons.mpr ⟨?_, List.forall_mem_append.mpr ⟨?_, hPlain⟩⟩
          · rw [List.any_append, List.any_append, any_escaped, hBreak]
            rfl
          · cases rest with
            | nil => exact nofun
            | cons next rest => exact List.forall_mem_singleton.mpr (format _).2
        · rw [List.filterMap_cons, readDirective_file, List.filterMap_append, hReads]
          cases rest with
          | _ => rfl

/-- Either a path has a line break and nothing is written, or the demuxer reads the frames in
their order, each but the last with one duration. -/
theorem concat_list_reads_back (frames : List FrameRef) :
    (writeConcatList format frames = none ∧
        ∃ frame ∈ frames, ∃ char ∈ frame.absolutePath, isLineBreak char = true) ∨
      ∃ text, writeConcatList format frames = some text ∧
        readConcatList text = directives frames := by
  unfold writeConcatList
  rcases concatLines_reads format frames with ⟨hNone, hBreak⟩ | ⟨lines, hLines, hPlain, hReads⟩
  · exact Or.inl ⟨by rw [hNone]; rfl, hBreak⟩
  · exact Or.inr ⟨_, by rw [hLines]; rfl, (readConcatList_lines hPlain).trans hReads⟩

end

end TimelapseManager.Encode.ConcatList
