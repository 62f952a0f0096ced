import TimelapseManager.Encode.Overlay

/-!
# The filtergraph

How `ffmpeg_impl.py` assembles the graph of a render, and how `allowlist.py` reads it back the
way FFmpeg does: the filters of the graph, and the options of one filter.

* `buildOverlayFilters` and `buildFiltergraph` assemble it; `verifyFiltergraph` is the check of
  the finished text.
* `parseFiltergraph` and `parseFilterOptions` are the two levels of reading.
* `expandText` is what FFmpeg's `drawtext` makes of the value of its option `text`.
-/

namespace TimelapseManager.Encode

open QuotedTokens

/-! ## Reading -/

structure ParsedFilter where
  name : Text
  args : Option Text
  deriving DecidableEq

def nameTerm (char : Char) : Bool :=
  char = '=' || char = ',' || char = ';' || char = '['

def argsTerm (char : Char) : Bool :=
  char = '[' || char = ']' || char = ',' || char = ';'

/-- `_skip_link_labels`.  The fuel is the length of the text: each label takes some of it. -/
def skipLinkLabels : ℕ → Text → Except EncoderError Text
  | fuel + 1, '[' :: rest =>
    let (label, after) := getToken (· = ']') rest
    if label = [] ∨ after = [] then .error .badLinkLabel
    else skipLinkLabels fuel (skipBlanks after.tail)
  | _, text => .ok text

def readFilter (text : Text) : ParsedFilter × Text :=
  let (name, rest) := getToken nameTerm text
  match rest with
  | '=' :: rest =>
    let (args, rest) := getToken argsTerm rest
    (⟨name, some args⟩, rest)
  | _ => (⟨name, none⟩, rest)

/-- The loop of `parse_filtergraph`.  The fuel is the length of the graph: each filter takes
some of it. -/
def parseFilters : ℕ → Text → Except EncoderError (List ParsedFilter)
  | fuel + 1, char :: text => do
    let (filter, rest) := readFilter (← skipLinkLabels (char :: text).length (char :: text))
    if filter.name = [] then .error .emptyFilterName
    else
      match skipBlanks (← skipLinkLabels rest.length rest) with
      | [] => .ok [filter]
      | separator :: rest =>
        if separator = ',' ∨ separator = ';' then
          return filter :: (← parseFilters fuel (skipBlanks rest))
        else .error .trailingGarbage
  | _, _ => .ok []

def parseFiltergraph (graph : Text) : Except EncoderError (List ParsedFilter) := do
  let filters ← parseFilters graph.length (skipBlanks graph)
  if filters = [] then .error .noFilters else .ok filters

/-- `_is_key_char`.  Two other characters have a lower case that starts with an ASCII letter:
the dotted capital I and the Kelvin sign. -/
def isKeyChar (char : Char) : Bool :=
  ('a' ≤ char && char ≤ 'z') || ('A' ≤ char && char ≤ 'Z') || char = '\u0130' ||
    char = '\u212a' || ('0' ≤ char && char ≤ '9') || ['-', '_', '/', '.'].contains char

def parseOptions : ℕ → Text → List (Option Text × Text)
  | fuel + 1, char :: text =>
    let start := skipBlanks (char :: text)
    let (key, from_) :=
      match skipBlanks (start.dropWhile isKeyChar) with
      | '=' :: rest => (some (start.takeWhile isKeyChar), rest)
      | _ => (none, char :: text)
    let (value, rest) := getToken (· = ':') from_
    (key, value) :: parseOptions fuel rest.tail
  | _, _ => []

def parseFilterOptions (args : Text) : List (Option Text × Text) :=
  parseOptions args.length args

/-! ## Checking -/

def allowedFilters : List Text :=
  ["deflicker".toList, "drawtext".toList, "scale".toList, "fps".toList, "format".toList,
    "setpts".toList, "overlay".toList]

def hwAllowedFilters : List Text :=
  ["hwupload".toList, "hwdownload".toList, "scale_vaapi".toList, "scale_qsv".toList,
    "scale_cuda".toList]

def ensureFiltersAllowed (allowHw : Bool) : List Text → Except EncoderError Unit
  | [] => .ok ()
  | name :: names =>
    if name ∈ (if allowHw then allowedFilters ++ hwAllowedFilters else allowedFilters) then
      ensureFiltersAllowed allowHw names
    else .error (.disallowedFilter name)

def drawtextOptionKeys : List Text :=
  ["fontfile".toList, "text".toList, "x".toList, "y".toList, "fontcolor".toList,
    "fontsize".toList, "box".toList, "boxcolor".toList]

def verifyDrawtexts : List ParsedFilter → Except EncoderError Unit
  | [] => .ok ()
  | filter :: filters =>
    if filter.name ≠ "drawtext".toList then verifyDrawtexts filters
    else
      let keys := (parseFilterOptions (filter.args.getD [])).map Prod.fst
      if keys ≠ drawtextOptionKeys.map some then .error (.drawtextOptionsMismatch keys)
      else verifyDrawtexts filters

def verifyFiltergraph (graph : Text) (expected : List Text) (allowHw : Bool) :
    Except EncoderError Unit := do
  let parsed ← parseFiltergraph graph
  let names := parsed.map ParsedFilter.name
  if names ≠ expected then .error (.filtergraphMismatch expected names)
  else
    ensureFiltersAllowed allowHw names
    verifyDrawtexts parsed

/-! ## Assembling -/

inductive HwaccelApi
  | nvenc
  | qsv
  | vaapi
  deriving DecidableEq

def intText (number : ℤ) : Text :=
  if number < 0 then '-' :: Nat.toDigits 10 number.natAbs else Nat.toDigits 10 number.natAbs

/-- The characters `str` writes a float with, `inf` and `nan` included. -/
def isFloatChar (char : Char) : Bool :=
  ('0' ≤ char && char ≤ '9') || ['.', '-', '+', 'e', 'i', 'n', 'f', 'a'].contains char

abbrev FloatText := { text : Text // text ≠ [] ∧ text.all isFloatChar = true }

structure OverlayConfig where
  timestampEnabled : Bool
  timestampFormat : Text
  textEnabled : Bool
  textContent : Text
  imageEnabled : Bool
  imagePath : Option Text
  placement : Text

/-- What the graph is built from of a `RenderSpec` and its `OutputSettings`. -/
structure RenderSpec where
  overlay : OverlayConfig
  deflicker : Bool
  fps : FloatText
  width : Option ℤ
  height : Option ℤ

/-- What the file system gives: the font of `_resolve_font`, and the path a watermark resolves
to inside the render root, if they are there. -/
structure OverlayFiles where
  font : Option Text
  image : Text → Option Text

def drawtextFilter (font text x y : Text) : Text :=
  "drawtext=fontfile='".toList ++ font ++ "':text='".toList ++ text ++ "':x=".toList ++ x ++
    ":y=".toList ++ y ++ ":fontcolor=white:fontsize=24:box=1:boxcolor=black@0.4".toList

/-- The expansion of a timestamp, with its escaped format. -/
def timestampExpression (format : Text) : Text :=
  "%\x7bpts\\:gmtime\\:0\\:".toList ++ format ++ ['\x7d']

/-- The `y` of a caption: off the timestamp, if there is one. -/
def captionY (config : OverlayConfig) : Text :=
  let y := (textPosition config.placement).2
  if config.timestampEnabled = false then y
  else if "bottom".toList.isPrefixOf config.placement then ['('] ++ y ++ ")-30".toList
  else ['('] ++ y ++ ")+30".toList

variable (files : OverlayFiles) (config : OverlayConfig)

def timestampFilters : Except EncoderError (List Text) :=
  if config.timestampEnabled then
    match files.font with
    | none => .error .fontNotFound
    | some font => do
      let format ← escapeTimestampFormat config.timestampFormat
      let (x, y) := textPosition config.placement
      return [drawtextFilter (escapePathForFilter font) (timestampExpression format) x y]
  else .ok []

def captionFilters : Except EncoderError (List Text) :=
  if config.textEnabled ∧ config.textContent ≠ [] then
    match files.font with
    | none => .error .fontNotFound
    | some font =>
      .ok [drawtextFilter (escapePathForFilter font) (escapeDrawtext config.textContent)
        (textPosition config.placement).1 (captionY config)]
  else .ok []

/-- The watermark of `_build_overlay_filters`: its inputs and its filter. -/
def imageFilters : Except EncoderError (List Text × List Text) :=
  match config.imageEnabled, config.imagePath with
  | true, some (char :: path) =>
    match files.image (char :: path) with
    | none => .error .imageRefused
    | some resolved =>
      let (x, y) := imagePosition config.placement
      .ok (["-i".toList, resolved], ["overlay=".toList ++ x ++ [':'] ++ y])
  | _, _ => .ok ([], [])

/-- `_build_overlay_filters`: the filters of the main chain, the inputs and the filter of the
watermark. -/
def buildOverlayFilters : Except EncoderError (List Text × List Text × List Text) := do
  let timestamp ← timestampFilters files config
  let caption ← captionFilters files config
  let (inputs, image) ← imageFilters files config
  return (timestamp ++ caption, inputs, image)

def uploads (api : Option HwaccelApi) : Bool :=
  api = some .vaapi || api = some .qsv

def formatTailFilters (api : Option HwaccelApi) : List Text :=
  if uploads api then ["format=nv12".toList, "hwupload".toList] else ["format=yuv420p".toList]

def filterName (filter : Text) : Text :=
  filter.takeWhile (· ≠ '=')

variable (spec : RenderSpec) (baseEpoch offsetSeconds : ℤ)

def mainChain (preFilters : List Text) : List Text :=
  (if spec.deflicker then ["deflicker".toList] else []) ++
    ["setpts=PTS+".toList ++ intText (baseEpoch + offsetSeconds) ++ "/TB".toList] ++
    preFilters ++
    ["setpts=N/".toList ++ spec.fps.val ++ "/TB".toList, "fps=".toList ++ spec.fps.val] ++
    match spec.width, spec.height with
    | some width, some height => ["scale=".toList ++ intText width ++ [':'] ++ intText height]
    | _, _ => []

/-- The graph text and the filter names it is meant to have. -/
def assembleGraph
    (preFilters imageFilter : List Text) (api : Option HwaccelApi) : Text × List Text :=
  let tail := formatTailFilters api
  -- Frames in GPU memory cannot be overlaid, so an uploading tail comes after the watermark.
  let deferTail := uploads api && !imageFilter.isEmpty
  let chain := mainChain spec baseEpoch offsetSeconds preFilters ++
    if deferTail then [] else tail
  if imageFilter.isEmpty then ([','].intercalate chain, chain.map filterName)
  else
    let overlayChain := imageFilter ++ if deferTail then tail else []
    ("[0:v]".toList ++ [','].intercalate chain ++ "[v];[v][1:v]".toList ++
      [','].intercalate overlayChain ++ "[out]".toList,
      (chain ++ overlayChain).map filterName)

def buildFiltergraph (preFilters imageFilter : List Text) (api : Option HwaccelApi) :
    Except EncoderError (Text × List Text) := do
  let (graph, used) := assembleGraph spec baseEpoch offsetSeconds preFilters imageFilter api
  verifyFiltergraph graph used api.isSome
  return (graph, used)

/-! ## Showing -/

/-- What `drawtext` shows: a character, or what a function gives. -/
inductive Piece
  | char (char : Char)
  | function (arguments : List Text)
  deriving DecidableEq

inductive ExpandError
  | strayPercent
  | unterminated
  deriving DecidableEq

/-- The arguments of a `%{…}` function and what follows it.  The fuel is the length of the
text. -/
def readArguments : ℕ → Text → Except ExpandError (List Text × Text)
  | 0, _ => .error .unterminated
  | fuel + 1, text =>
    let (argument, rest) := getToken (fun char => char = ':' || char = '\x7d') text
    match rest with
    | [] => .error .unterminated
    | terminator :: rest =>
      if terminator = '\x7d' then .ok ([argument], rest)
      else do
        let (arguments, rest) ← readArguments fuel rest
        return (argument :: arguments, rest)

def expandPieces : ℕ → Text → Except ExpandError (List Piece)
  | fuel + 1, '\\' :: char :: rest => do return .char char :: (← expandPieces fuel rest)
  | fuel + 1, '%' :: '\x7b' :: rest => do
    let (arguments, rest) ← readArguments (rest.length + 1) rest
    return .function arguments :: (← expandPieces fuel rest)
  | _ + 1, '%' :: _ => .error .strayPercent
  | fuel + 1, char :: rest => do return .char char :: (← expandPieces fuel rest)
  | _, _ => .ok []

/-- What `drawtext` makes of its text: a backslash takes the next character as it is, a `%`
starts a function, whose arguments are tokens of their own. -/
def expandText (text : Text) : Except ExpandError (List Piece) :=
  expandPieces text.length text

end TimelapseManager.Encode
