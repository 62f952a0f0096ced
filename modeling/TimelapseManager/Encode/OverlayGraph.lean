import TimelapseManager.Encode.DrawtextText

/-!
# The assembled graph passes its check

Every graph that is assembled from the overlays of a render consists of filters that are read as
they were meant: whatever the caption, the font and the placement are, no character of them
leaves its quotes.

* `Good` is a filter that reads as intended and passes the checks on one filter.
* `verifyFiltergraph_good` is the check of a graph of good filters.
* `assembleGraph_eq` says that a render's graph is one of typed filters.
-/

namespace TimelapseManager.Encode

open QuotedTokens

/-! ## Good filters -/

def permitted (allowHw : Bool) : List Text :=
  if allowHw then allowedFilters ++ hwAllowedFilters else allowedFilters

/-- A filter that is read as intended and passes the checks on it. -/
structure Good (allowHw : Bool) (filter : Filter) : Prop where
  reads : Reads filter.1 filter.2
  named : filterName filter.1 = filter.2.name
  allowed : filter.2.name ∈ permitted allowHw
  options : filter.2.name = "drawtext".toList →
    (parseFilterOptions (filter.2.args.getD [])).map Prod.fst = drawtextOptionKeys.map some

def named (name args : Text) : Filter :=
  (name ++ '=' :: args, ⟨name, some args⟩)

def bare (name : Text) : Filter :=
  (name, ⟨name, none⟩)

def drawtext (font text x y : Text) : Filter :=
  (drawtextFilter font text x y, ⟨"drawtext".toList, some (drawtextOptions font text x y)⟩)

section Good

variable {allowHw : Bool} {name : Text}

theorem mem_permitted (hAllowed : name ∈ allowedFilters) : name ∈ permitted allowHw := by
  unfold permitted
  split
  · exact List.mem_append_left _ hAllowed
  · exact hAllowed

theorem filterName_named {rest : Text} (hName : '=' ∉ name) :
    filterName (name ++ '=' :: rest) = name := by
  have hBefore : ∀ char ∈ name, decide (char ≠ '=') = true :=
    fun char hMem => decide_eq_true fun hSame => hName (hSame ▸ hMem)
  unfold filterName
  rw [List.takeWhile_append_of_pos hBefore, List.takeWhile_cons_of_neg (by decide), List.append_nil]

theorem good_named {args : Text} (hArgsNe : args ≠ []) (hArgs : Word args)
    (hNe : name ≠ [] := by decide) (hWord : Word name := by decide)
    (hName : '=' ∉ name := by decide) (hAllowed : name ∈ allowedFilters := by decide)
    (hOther : name ≠ "drawtext".toList := by decide) : Good allowHw (named name args) where
  reads := reads_named hNe hWord hName hArgsNe hArgs
  named := filterName_named hName
  allowed := mem_permitted hAllowed
  options := fun hSame => absurd hSame hOther

theorem good_bare (hAllowed : name ∈ permitted allowHw) (hNe : name ≠ [] := by decide)
    (hWord : Word name := by decide) (hName : '=' ∉ name := by decide)
    (hOther : name ≠ "drawtext".toList := by decide) : Good allowHw (bare name) where
  reads := reads_bare hNe hWord hName
  named := by
    have hBefore : ∀ char ∈ name, decide (char ≠ '=') = true :=
      fun char hMem => decide_eq_true fun hSame => hName (hSame ▸ hMem)
    exact List.takeWhile_eq_self_iff.mpr hBefore
  allowed := hAllowed
  options := fun hSame => absurd hSame hOther

end Good

/-! ## The check of good filters -/

section Verify

variable {allowHw : Bool} {filters : List Filter}

section

variable (hGood : ∀ filter ∈ filters, Good allowHw filter)
include hGood

theorem ensureFiltersAllowed_good :
    ensureFiltersAllowed allowHw ((filters.map Prod.snd).map ParsedFilter.name) = .ok () := by
  induction filters with
  | nil => rfl
  | cons filter filters hRec =>
    have hAllowed := (hGood filter List.mem_cons_self).allowed
    unfold permitted at hAllowed
    rw [List.map_cons, List.map_cons, ensureFiltersAllowed, if_pos hAllowed]
    exact hRec (List.forall_mem_cons.mp hGood).2

theorem verifyDrawtexts_good : verifyDrawtexts (filters.map Prod.snd) = .ok () := by
  induction filters with
  | nil => rfl
  | cons filter filters hRec =>
    have hOptions := (hGood filter List.mem_cons_self).options
    have hRest := hRec (List.forall_mem_cons.mp hGood).2
    rw [List.map_cons, verifyDrawtexts]
    split
    · exact hRest
    next hName =>
      simp only [hOptions (not_not.mp hName), ne_eq, not_true_eq_false, if_false]
      exact hRest

theorem verifyFiltergraph_good {graph : Text} {used : List Text}
    (hParse : parseFiltergraph graph = .ok (filters.map Prod.snd))
    (hUsed : used = (filters.map Prod.snd).map ParsedFilter.name) :
    verifyFiltergraph graph used allowHw = .ok () := by
  unfold verifyFiltergraph
  simp only [hParse, hUsed, bind, Except.bind, ne_eq, not_true_eq_false, if_false,
    ensureFiltersAllowed_good hGood, verifyDrawtexts_good hGood]

theorem map_filterName :
    (filters.map Prod.fst).map filterName = (filters.map Prod.snd).map ParsedFilter.name := by
  rw [List.map_map, List.map_map]
  exact List.map_congr_left fun filter hMem => (hGood filter hMem).named

end

end Verify

/-! ## Numbers and positions -/

theorem isWordChar_of {char : Char} {test : Char → Bool} (hTest : test char = true)
    (hMarks : ['[', ']', ',', ';', '\\', '\'', ' ', '\n', '\t', '\r'].any test = false) :
    isWordChar char = true := by
  by_contra hWord
  simp only [isWordChar, Bool.not_eq_true', Bool.not_eq_false, List.contains_iff_mem] at hWord
  exact List.any_eq_false.mp hMarks char hWord hTest

theorem word_intText (number : ℤ) : intText number ≠ [] ∧ Word (intText number) := by
  have hDigits : Word (Nat.toDigits 10 number.natAbs) := fun char hMem =>
    isWordChar_of (Nat.isDigit_of_mem_toDigits (by decide) (by decide) hMem) (by decide)
  unfold intText
  split
  · exact ⟨by simp, List.forall_mem_cons.mpr ⟨by decide, hDigits⟩⟩
  · exact ⟨Nat.toDigits_ne_nil, hDigits⟩

theorem word_floatText (fps : FloatText) : Word fps.val := fun char hMem =>
  isWordChar_of (List.all_eq_true.mp fps.property.2 char hMem) (by decide)

structure PlainValue (text : Text) : Prop where
  nonempty : text ≠ []
  word : Word text
  colon : ':' ∉ text

theorem PlainValue.reads {text : Text} (hPlain : PlainValue text) : ReadsValue text text :=
  readsValue_word hPlain.nonempty hPlain.word hPlain.colon

theorem good_drawtext {allowHw : Bool} (font : Text) {text textRead x y : Text}
    (hQuote : '\'' ∉ text) (hText : ReadsValue text textRead) (hX : PlainValue x)
    (hY : PlainValue y) : Good allowHw (drawtext (escapePathForFilter font) text x y) where
  reads := reads_drawtext (quote_notMem_escapePath font) hQuote hX.word hY.word
  named := by
    change filterName (drawtextFilter (escapePathForFilter font) text x y) = "drawtext".toList
    rw [drawtextFilter_eq]
    exact filterName_named (by decide)
  allowed := by
    have hAllowed : "drawtext".toList ∈ allowedFilters := by decide
    exact mem_permitted hAllowed
  options := by
    intro _
    change (parseFilterOptions (drawtextOptions (escapePathForFilter font) text x y)).map
      Prod.fst = _
    rw [parseFilterOptions_drawtext (readsValue_path font) hText hX.reads hY.reads]
    rfl

theorem plainValue_textPosition (placement : Text) :
    PlainValue (textPosition placement).1 ∧ PlainValue (textPosition placement).2 := by
  unfold textPosition
  split_ifs <;>
    exact ⟨⟨by decide, by decide, by decide⟩, ⟨by decide, by decide, by decide⟩⟩

theorem plainValue_imagePosition (placement : Text) :
    PlainValue (imagePosition placement).1 ∧ PlainValue (imagePosition placement).2 := by
  unfold imagePosition
  split_ifs <;>
    exact ⟨⟨by decide, by decide, by decide⟩, ⟨by decide, by decide, by decide⟩⟩

theorem plainValue_captionY (config : OverlayConfig) : PlainValue (captionY config) := by
  have hY := (plainValue_textPosition config.placement).2
  have hWrap : ∀ shift : Text, Word shift → ':' ∉ shift →
      PlainValue (['('] ++ (textPosition config.placement).2 ++ shift) := by
    intro shift hWord hColon
    refine ⟨by simp, (Word.append (by decide) hY.word).append hWord, ?_⟩
    rw [List.mem_append, List.mem_append]
    rintro ((hOpen | hMem) | hShift)
    · exact absurd hOpen (by decide)
    · exact hY.colon hMem
    · exact hColon hShift
  unfold captionY
  split_ifs
  · exact hY
  · exact hWrap _ (by decide) (by decide)
  · exact hWrap _ (by decide) (by decide)

/-! ## The overlays -/

section Overlays

def timestampOverlay (font : Text) (config : OverlayConfig) : List Filter :=
  if config.timestampEnabled then
    [drawtext (escapePathForFilter font)
      (timestampExpression (config.timestampFormat.flatMap writtenFormatChar))
      (textPosition config.placement).1 (textPosition config.placement).2]
  else []

def HasCaption (config : OverlayConfig) : Prop :=
  config.textEnabled = true ∧ config.textContent ≠ []

instance (config : OverlayConfig) : Decidable (HasCaption config) :=
  inferInstanceAs (Decidable (_ ∧ _))

def captionOverlay (font : Text) (config : OverlayConfig) : List Filter :=
  if HasCaption config then
    [drawtext (escapePathForFilter font) (escapeDrawtext config.textContent)
      (textPosition config.placement).1 (captionY config)]
  else []

def imageOverlay (config : OverlayConfig) : List Filter :=
  match config.imageEnabled, config.imagePath with
  | true, some (_ :: _) =>
    [named "overlay".toList ((imagePosition config.placement).1 ++ ':' ::
      (imagePosition config.placement).2)]
  | _, _ => []

/-- What the overlays of a render need: a font where a text is drawn, a format that is accepted
where the timestamp is, and a watermark that is found. -/
structure Renderable (files : OverlayFiles) (font : Text) (config : OverlayConfig) : Prop where
  font : config.timestampEnabled = true ∨ HasCaption config → files.font = some font
  format : config.timestampEnabled = true →
    ∃ accepted, validateTimestampFormat config.timestampFormat = .ok accepted
  image : config.imageEnabled = true → ∀ path, config.imagePath = some path → path ≠ [] →
    (files.image path).isSome = true

variable {files : OverlayFiles} {font : Text} {config : OverlayConfig}

section

variable (hConfig : Renderable files font config)
include hConfig

theorem timestampFilters_eq :
    timestampFilters files config = .ok ((timestampOverlay font config).map Prod.fst) := by
  unfold timestampFilters timestampOverlay
  split
  next hEnabled =>
    obtain ⟨accepted, hValid⟩ := hConfig.format hEnabled
    have hEscape : escapeTimestampFormat config.timestampFormat =
        .ok (config.timestampFormat.flatMap writtenFormatChar) := by
      unfold escapeTimestampFormat
      rw [hValid]
      rfl
    simp only [hConfig.font (Or.inl hEnabled), hEscape]
    rfl
  · rfl

theorem captionFilters_eq :
    captionFilters files config = .ok ((captionOverlay font config).map Prod.fst) := by
  have hDrawn : (config.textEnabled = true ∧ config.textContent ≠ []) ↔ HasCaption config :=
    Iff.rfl
  unfold captionFilters captionOverlay
  by_cases hCaption : HasCaption config
  · rw [if_pos (hDrawn.mpr hCaption), if_pos hCaption]
    simp only [hConfig.font (Or.inr hCaption)]
    rfl
  · rw [if_neg (hDrawn.not.mpr hCaption), if_neg hCaption]
    rfl

theorem imageFilters_eq :
    ∃ inputs, imageFilters files config = .ok (inputs, (imageOverlay config).map Prod.fst) := by
  have hLiteral : "overlay=".toList = "overlay".toList ++ ['='] := by decide
  unfold imageFilters imageOverlay
  match hEnabled : config.imageEnabled, hPath : config.imagePath with
  | false, _ => exact ⟨[], rfl⟩
  | true, none => exact ⟨[], rfl⟩
  | true, some [] => exact ⟨[], rfl⟩
  | true, some (char :: path) =>
    obtain ⟨resolved, hResolved⟩ :=
      Option.isSome_iff_exists.mp (hConfig.image hEnabled _ hPath (List.cons_ne_nil _ _))
    refine ⟨["-i".toList, resolved], ?_⟩
    simp only [hResolved, named, List.map_cons, List.map_nil, hLiteral, List.append_assoc,
      List.cons_append, List.nil_append]

theorem buildOverlayFilters_eq :
    ∃ inputs, buildOverlayFilters files config =
      .ok ((timestampOverlay font config ++ captionOverlay font config).map Prod.fst, inputs,
        (imageOverlay config).map Prod.fst) := by
  obtain ⟨inputs, hImage⟩ := imageFilters_eq hConfig
  refine ⟨inputs, ?_⟩
  unfold buildOverlayFilters
  simp only [timestampFilters_eq hConfig, captionFilters_eq hConfig, hImage, List.map_append]
  rfl

end

theorem quote_notMem_timestamp {format : Text}
    (hFormat : ∀ char ∈ format, isFormatChar char = true) :
    '\'' ∉ timestampExpression (format.flatMap writtenFormatChar) := by
  unfold timestampExpression
  rw [List.mem_append, List.mem_append]
  rintro ((hStart | hBody) | hEnd)
  · exact absurd hStart (by decide)
  · exact notMem_rewrite (by decide) (fun _ hMem => (formatChar_spec (hFormat _ hMem)).1) hBody
  · exact absurd hEnd (by decide)

end Overlays

/-! ## The graph -/

section Graph

variable {allowHw : Bool}

def scaleFilters (spec : RenderSpec) : List Filter :=
  match spec.width, spec.height with
  | some width, some height =>
    [named "scale".toList (intText width ++ ':' :: intText height)]
  | _, _ => []

def mainFilters (spec : RenderSpec) (baseEpoch offsetSeconds : ℤ) (pre : List Filter) :
    List Filter :=
  (if spec.deflicker then [bare "deflicker".toList] else []) ++
    [named "setpts".toList ("PTS+".toList ++ intText (baseEpoch + offsetSeconds) ++
      "/TB".toList)] ++
    pre ++
    [named "setpts".toList ("N/".toList ++ spec.fps.val ++ "/TB".toList),
      named "fps".toList spec.fps.val] ++
    scaleFilters spec

def tailFilters (api : Option HwaccelApi) : List Filter :=
  if uploads api then [named "format".toList "nv12".toList, bare "hwupload".toList]
  else [named "format".toList "yuv420p".toList]

theorem mainFilters_fst (spec : RenderSpec) (baseEpoch offsetSeconds : ℤ) (pre : List Filter) :
    (mainFilters spec baseEpoch offsetSeconds pre).map Prod.fst =
      mainChain spec baseEpoch offsetSeconds (pre.map Prod.fst) := by
  unfold mainFilters mainChain
  simp only [List.map_append]
  congr 1
  · congr 3
    split <;> rfl
  · unfold scaleFilters
    match spec.width, spec.height with
    | none, _ => rfl
    | some _, none => rfl
    | some width, some height => simp [named]

theorem tailFilters_fst (api : Option HwaccelApi) :
    (tailFilters api).map Prod.fst = formatTailFilters api := by
  unfold tailFilters formatTailFilters
  split <;> decide

/-- The text of a graph: of one chain, or of two with the watermark between them. -/
def graphText (chain overlayChain : List Filter) : Text :=
  if overlayChain = [] then [','].intercalate (chain.map Prod.fst)
  else "[0:v]".toList ++ [','].intercalate (chain.map Prod.fst) ++ "[v];[v][1:v]".toList ++
    [','].intercalate (overlayChain.map Prod.fst) ++ "[out]".toList

theorem parseFiltergraph_graphText {chain overlayChain : List Filter} (hChain : chain ≠ [])
    (hGood : ∀ filter ∈ chain ++ overlayChain, Good allowHw filter) :
    parseFiltergraph (graphText chain overlayChain) =
      .ok ((chain ++ overlayChain).map Prod.snd) := by
  obtain ⟨hFirst, hSecond⟩ :=
    List.forall_mem_append.mp fun filter hMem => (hGood filter hMem).reads
  apply Continues.parseFiltergraph
  unfold graphText
  split
  next hNone =>
    have hNo : Labels [] := List.forall_mem_nil _
    simpa [hNone] using Continues.chain hFirst hChain (Or.inl rfl) hNo hNo .done
  next hSome =>
    have hInput : Labels ["0:v".toList] := by decide
    have hLink : Labels ["v".toList] := by decide
    have hInputs : Labels ["v".toList, "1:v".toList] := by decide
    have hOut : Labels ["out".toList] := by decide
    have hOverlay := Continues.chain hSecond hSome (Or.inr rfl) hInputs hOut .done
    have hGraph := Continues.chain hFirst hChain (Or.inl rfl) hInput hLink hOverlay
    simpa [labelText] using hGraph

def renderChain (spec : RenderSpec) (font : Text) (baseEpoch offsetSeconds : ℤ)
    (api : Option HwaccelApi) : List Filter :=
  mainFilters spec baseEpoch offsetSeconds
      (timestampOverlay font spec.overlay ++ captionOverlay font spec.overlay) ++
    if uploads api && !(imageOverlay spec.overlay).isEmpty then [] else tailFilters api

/-- The chain after the watermark of a render, if there is one. -/
def renderOverlayChain (spec : RenderSpec) (api : Option HwaccelApi) : List Filter :=
  if (imageOverlay spec.overlay).isEmpty then []
  else imageOverlay spec.overlay ++ if uploads api then tailFilters api else []

theorem renderChain_ne_nil (spec : RenderSpec) (font : Text) (baseEpoch offsetSeconds : ℤ)
    (api : Option HwaccelApi) : renderChain spec font baseEpoch offsetSeconds api ≠ [] := by
  intro hNone
  have hShift : named "setpts".toList ("PTS+".toList ++ intText (baseEpoch + offsetSeconds) ++
      "/TB".toList) ∈ renderChain spec font baseEpoch offsetSeconds api := by
    simp only [renderChain, mainFilters, List.mem_append, List.mem_singleton, true_or, or_true]
  rw [hNone] at hShift
  cases hShift

theorem assembleGraph_eq (spec : RenderSpec) (font : Text) (baseEpoch offsetSeconds : ℤ)
    (api : Option HwaccelApi) :
    assembleGraph spec baseEpoch offsetSeconds
        ((timestampOverlay font spec.overlay ++ captionOverlay font spec.overlay).map Prod.fst)
        ((imageOverlay spec.overlay).map Prod.fst) api =
      (graphText (renderChain spec font baseEpoch offsetSeconds api)
          (renderOverlayChain spec api),
        ((renderChain spec font baseEpoch offsetSeconds api ++
          renderOverlayChain spec api).map Prod.fst).map filterName) := by
  have hEmpty : ((imageOverlay spec.overlay).map Prod.fst).isEmpty =
      (imageOverlay spec.overlay).isEmpty := List.isEmpty_map
  have hTail : ∀ late : Bool, (if late then [] else tailFilters api).map Prod.fst =
      if late then [] else formatTailFilters api := by
    intro late
    cases late
    · exact tailFilters_fst api
    · rfl
  have hLate : ∀ late : Bool, (if late then tailFilters api else []).map Prod.fst =
      if late then formatTailFilters api else [] := by
    intro late
    cases late
    · rfl
    · exact tailFilters_fst api
  unfold assembleGraph graphText renderChain renderOverlayChain
  rw [hEmpty]
  cases hImage : (imageOverlay spec.overlay).isEmpty with
  | true =>
    simp only [List.map_append, mainFilters_fst, hTail, Bool.not_true, Bool.and_false, if_true,
      List.append_nil]
  | false =>
    have hSome : imageOverlay spec.overlay ≠ [] := by
      intro hNone
      rw [hNone] at hImage
      cases hImage
    have hChain : imageOverlay spec.overlay ++ (if uploads api then tailFilters api else []) ≠
        [] := List.append_ne_nil_of_left_ne_nil hSome _
    simp only [List.map_append, mainFilters_fst, hTail, hLate, Bool.not_false, Bool.and_true,
      Bool.false_eq_true, if_false, hChain]

end Graph

end TimelapseManager.Encode
