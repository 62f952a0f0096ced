import TimelapseManager.Encode.OverlayGraph

/-!
# Overlay texts stay texts

What a render's graph is meant to be, in its own terms, and that the graph is read as that:
`overlay_graph_verified`.  The filters are the intended ones in order, every `drawtext` has
exactly its eight options, the timestamp is one function of the format and the caption is shown
character by character.
-/

namespace TimelapseManager.Encode

open QuotedTokens

/-! ## What is intended -/

def HasImage (config : OverlayConfig) : Prop :=
  config.imageEnabled = true ∧ config.imagePath ≠ none ∧ config.imagePath ≠ some []

instance (config : OverlayConfig) : Decidable (HasImage config) :=
  inferInstanceAs (Decidable (_ ∧ _ ∧ _))

def intendedTail (api : Option HwaccelApi) : List Text :=
  if uploads api then ["format".toList, "hwupload".toList] else ["format".toList]

def intendedFilters (spec : RenderSpec) (api : Option HwaccelApi) : List Text :=
  (if spec.deflicker then ["deflicker".toList] else []) ++ ["setpts".toList] ++
    (if spec.overlay.timestampEnabled then ["drawtext".toList] else []) ++
    (if HasCaption spec.overlay then ["drawtext".toList] else []) ++
    ["setpts".toList, "fps".toList] ++
    (if spec.width ≠ none ∧ spec.height ≠ none then ["scale".toList] else []) ++
    -- The upload of a watermarked render comes after the watermark.
    if HasImage spec.overlay then
      if uploads api then ["overlay".toList] ++ intendedTail api
      else intendedTail api ++ ["overlay".toList]
    else intendedTail api

/-- What one filter draws: the expansion of the value of a `drawtext`'s `text`. -/
def shownText (filter : ParsedFilter) : List (Except ExpandError (List Piece)) :=
  if filter.name = "drawtext".toList then
    [expandText (((parseFilterOptions (filter.args.getD [])).lookup (some "text".toList)).getD [])]
  else []

/-- What the timestamp is to show: one function, of the time of the frame and the format. -/
def intendedTimestamp (format : Text) : List Piece :=
  [.function ["pts".toList, "gmtime".toList, "0".toList,
    (format.dropWhile (· = ' ')).rdropWhile (· = ' ')]]

def intendedTexts (config : OverlayConfig) : List (List Piece) :=
  (if config.timestampEnabled then [intendedTimestamp config.timestampFormat] else []) ++
    if HasCaption config then [(shownCaption config.textContent).map .char] else []

/-! ## What is read -/

def names (filters : List Filter) : List Text :=
  filters.map fun filter => filter.2.name

def shown (filters : List Filter) : List (Except ExpandError (List Piece)) :=
  filters.flatMap fun filter => shownText filter.2

/-- The filters are good ones, with these names, and draw these texts. -/
structure Intended (allowHw : Bool) (filters : List Filter) (intended : List Text)
    (texts : List (List Piece)) : Prop where
  good : ∀ filter ∈ filters, Good allowHw filter
  meant : names filters = intended
  drawn : shown filters = texts.map .ok

section Read

variable {allowHw : Bool} {filters others : List Filter} {intended further : List Text}
  {texts more : List (List Piece)} {font : Text} {config : OverlayConfig}

theorem Intended.nil : Intended allowHw [] [] [] :=
  ⟨nofun, rfl, rfl⟩

theorem Intended.append (hFirst : Intended allowHw filters intended texts)
    (hSecond : Intended allowHw others further more) :
    Intended allowHw (filters ++ others) (intended ++ further) (texts ++ more) where
  good := List.forall_mem_append.mpr ⟨hFirst.good, hSecond.good⟩
  meant := by
    rw [← hFirst.meant, ← hSecond.meant]
    exact List.map_append
  drawn := by
    rw [List.map_append, ← hFirst.drawn, ← hSecond.drawn]
    exact List.flatMap_append

theorem Intended.optional {condition : Prop} [Decidable condition]
    (hFilters : condition → Intended allowHw filters intended texts) :
    Intended allowHw (if condition then filters else []) (if condition then intended else [])
      (if condition then texts else []) := by
  split
  next hHolds => exact hFilters hHolds
  · exact .nil

theorem Intended.silent {filter : Filter} {name : Text} (hGood : Good allowHw filter)
    (hIs : filter.2.name = name := by rfl) (hName : name ≠ "drawtext".toList := by decide) :
    Intended allowHw [filter] [name] [] where
  good := List.forall_mem_singleton.mpr hGood
  meant := congrArg (fun name => [name]) hIs
  drawn := by
    rw [shown, List.flatMap_singleton, shownText, hIs]
    exact if_neg hName

theorem Intended.text (font : Text) {text textRead x y : Text} {pieces : List Piece}
    (hQuote : '\'' ∉ text) (hText : ReadsValue text textRead)
    (hExpand : expandText textRead = .ok pieces) (hX : PlainValue x) (hY : PlainValue y) :
    Intended allowHw [drawtext (escapePathForFilter font) text x y] ["drawtext".toList]
      [pieces] where
  good := List.forall_mem_singleton.mpr (good_drawtext font hQuote hText hX hY)
  meant := rfl
  drawn := by
    have hOptions := parseFilterOptions_drawtext (readsValue_path font) hText hX.reads hY.reads
    have hName : (drawtext (escapePathForFilter font) text x y).2.name = "drawtext".toList := rfl
    rw [shown, List.flatMap_singleton, shownText, if_pos hName]
    change [expandText (((parseFilterOptions
      (drawtextOptions (escapePathForFilter font) text x y)).lookup _).getD [])] = _
    rw [hOptions]
    exact congrArg (fun shown => [shown]) hExpand

theorem intended_timestampOverlay {files : OverlayFiles} (hConfig : Renderable files font config) :
    Intended allowHw (timestampOverlay font config)
      (if config.timestampEnabled then ["drawtext".toList] else [])
      (if config.timestampEnabled then [intendedTimestamp config.timestampFormat] else []) := by
  refine .optional fun hEnabled => ?_
  obtain ⟨accepted, hValid⟩ := hConfig.format hEnabled
  have hFormat := validateTimestampFormat_chars hValid
  obtain ⟨hX, hY⟩ := plainValue_textPosition config.placement
  exact .text font (quote_notMem_timestamp hFormat) (readsValue_timestamp hFormat)
    (expandText_timestamp hFormat) hX hY

theorem intended_captionOverlay :
    Intended allowHw (captionOverlay font config)
      (if HasCaption config then ["drawtext".toList] else [])
      (if HasCaption config then [(shownCaption config.textContent).map .char] else []) := by
  have hX := (plainValue_textPosition config.placement).1
  have hY := plainValue_captionY config
  exact .optional fun _ => .text font (quote_notMem_escapeDrawtext _) (readsValue_caption _)
    (expandText_caption _) hX hY

theorem intended_imageOverlay :
    (imageOverlay config).isEmpty = !decide (HasImage config) ∧
      Intended allowHw (imageOverlay config)
        (if HasImage config then ["overlay".toList] else []) [] := by
  obtain ⟨hX, hY⟩ := plainValue_imagePosition config.placement
  have hArgs : Word ((imagePosition config.placement).1 ++ ':' ::
      (imagePosition config.placement).2) := by
    have hColon : Word [':'] := by decide
    exact hX.word.append (hColon.append hY.word)
  unfold imageOverlay
  split
  next path hEnabled hPath =>
    have hImage : HasImage config := ⟨hEnabled, by rw [hPath]; simp, by rw [hPath]; simp⟩
    rw [if_pos hImage, decide_eq_true hImage]
    exact ⟨rfl, .silent (good_named (by simp) hArgs)⟩
  next hNot =>
    have hImage : ¬HasImage config := by
      rintro ⟨hEnabled, hSome, hPath⟩
      obtain ⟨path, hIs⟩ := Option.ne_none_iff_exists'.mp hSome
      cases path with
      | nil => exact hPath hIs
      | cons char path => exact hNot char path hEnabled hIs
    rw [if_neg hImage, decide_eq_false hImage]
    exact ⟨rfl, .nil⟩

theorem intended_tailFilters (api : Option HwaccelApi) :
    Intended api.isSome (tailFilters api) (intendedTail api) [] := by
  have hFormat : ∀ pixels : Text, pixels ≠ [] → Word pixels →
      Intended api.isSome [named "format".toList pixels] ["format".toList] [] :=
    fun _ hNe hWord => .silent (good_named hNe hWord)
  unfold tailFilters intendedTail
  split
  next hUploads =>
    have hSome : api.isSome = true := by
      cases api with
      | none => exact absurd hUploads (by decide)
      | some api => rfl
    have hAllowed : "hwupload".toList ∈ permitted true := by decide
    rw [← hSome] at hAllowed
    exact (hFormat _ (by decide) (by decide)).append (.silent (good_bare hAllowed))
  · exact hFormat _ (by decide) (by decide)

theorem intended_scaleFilters (spec : RenderSpec) :
    Intended allowHw (scaleFilters spec)
      (if spec.width ≠ none ∧ spec.height ≠ none then ["scale".toList] else []) [] := by
  unfold scaleFilters
  match spec.width, spec.height with
  | none, _ => exact .nil
  | some _, none => exact .nil
  | some width, some height =>
    have hColon : Word [':'] := by decide
    have hArgs := (word_intText width).2.append (hColon.append (word_intText height).2)
    exact .silent (good_named (by simp) hArgs)

theorem intended_mainFilters (spec : RenderSpec) (baseEpoch offsetSeconds : ℤ)
    (hPre : Intended allowHw filters intended texts) :
    Intended allowHw (mainFilters spec baseEpoch offsetSeconds filters)
      ((if spec.deflicker then ["deflicker".toList] else []) ++ ["setpts".toList] ++ intended ++
        ["setpts".toList, "fps".toList] ++
        (if spec.width ≠ none ∧ spec.height ≠ none then ["scale".toList] else [])) texts := by
  have hFps := word_floatText spec.fps
  have hFirst : Intended allowHw (if spec.deflicker then [bare "deflicker".toList] else [])
      (if spec.deflicker then ["deflicker".toList] else []) [] := by
    split
    · have hAllowed : "deflicker".toList ∈ allowedFilters := by decide
      exact .silent (good_bare (mem_permitted hAllowed))
    · exact .nil
  have hShift : Intended allowHw [named "setpts".toList
      ("PTS+".toList ++ intText (baseEpoch + offsetSeconds) ++ "/TB".toList)]
      ["setpts".toList] [] :=
    .silent (good_named (by simp) ((Word.append (by decide) (word_intText _).2).append (by decide)))
  have hRenumber : Intended allowHw [named "setpts".toList
      ("N/".toList ++ spec.fps.val ++ "/TB".toList)] ["setpts".toList] [] :=
    .silent (good_named (by simp) ((Word.append (by decide) hFps).append (by decide)))
  have hRate : Intended allowHw [named "fps".toList spec.fps.val] ["fps".toList] [] :=
    .silent (good_named spec.fps.property.1 hFps)
  have hAll := (((hFirst.append hShift).append hPre).append (hRenumber.append hRate)).append
    (intended_scaleFilters spec)
  rw [List.append_nil, List.append_nil, List.append_nil] at hAll
  exact hAll

theorem intended_tail (spec : RenderSpec) (api : Option HwaccelApi) :
    Intended api.isSome
      ((if uploads api && !(imageOverlay spec.overlay).isEmpty then [] else tailFilters api) ++
        renderOverlayChain spec api)
      (if HasImage spec.overlay then
        if uploads api then ["overlay".toList] ++ intendedTail api
        else intendedTail api ++ ["overlay".toList]
      else intendedTail api) [] := by
  obtain ⟨hEmpty, hImage⟩ := @intended_imageOverlay api.isSome spec.overlay
  have hTail := intended_tailFilters api
  unfold renderOverlayChain
  rw [hEmpty]
  by_cases hHas : HasImage spec.overlay
  · rw [if_pos hHas] at hImage ⊢
    rw [decide_eq_true hHas]
    cases uploads api with
    | true => exact hImage.append hTail
    | false =>
      have hAll := hTail.append hImage
      simpa using hAll
  · rw [if_neg hHas, decide_eq_false hHas, Bool.not_false, Bool.not_true, Bool.and_false]
    simpa using hTail

theorem intended_render {files : OverlayFiles} {spec : RenderSpec}
    (hConfig : Renderable files font spec.overlay) (baseEpoch offsetSeconds : ℤ)
    (api : Option HwaccelApi) :
    Intended api.isSome
      (renderChain spec font baseEpoch offsetSeconds api ++ renderOverlayChain spec api)
      (intendedFilters spec api) (intendedTexts spec.overlay) := by
  have hCaption := @intended_captionOverlay api.isSome font spec.overlay
  have hPre := (intended_timestampOverlay hConfig).append hCaption
  have hAll := (intended_mainFilters spec baseEpoch offsetSeconds hPre).append
    (intended_tail spec api)
  unfold renderChain intendedFilters
  simp only [List.append_assoc, List.append_nil] at hAll ⊢
  exact hAll

end Read

/-! ## The result -/

/-- The graph of every render is built and passes its check: it is read as the intended filters
in order, every `drawtext` has exactly its options, and the texts shown are the intended ones. -/
theorem overlay_graph_verified {files : OverlayFiles} {font : Text} {spec : RenderSpec}
    (hConfig : Renderable files font spec.overlay) (baseEpoch offsetSeconds : ℤ)
    (api : Option HwaccelApi) :
    ∃ preFilters imageInputs imageFilter graph parsed,
      buildOverlayFilters files spec.overlay = .ok (preFilters, imageInputs, imageFilter) ∧
      buildFiltergraph spec baseEpoch offsetSeconds preFilters imageFilter api =
        .ok (graph, intendedFilters spec api) ∧
      verifyFiltergraph graph (intendedFilters spec api) api.isSome = .ok () ∧
      parseFiltergraph graph = .ok parsed ∧
      parsed.map ParsedFilter.name = intendedFilters spec api ∧
      (∀ filter ∈ parsed, filter.name = "drawtext".toList →
        (parseFilterOptions (filter.args.getD [])).map Prod.fst = drawtextOptionKeys.map some) ∧
      parsed.flatMap shownText = (intendedTexts spec.overlay).map .ok := by
  obtain ⟨inputs, hBuild⟩ := buildOverlayFilters_eq hConfig
  obtain ⟨hGood, hNames, hShown⟩ := intended_render hConfig baseEpoch offsetSeconds api
  have hAssemble := assembleGraph_eq spec font baseEpoch offsetSeconds api
  have hParse := parseFiltergraph_graphText (renderChain_ne_nil spec font baseEpoch offsetSeconds
    api) hGood
  generalize renderChain spec font baseEpoch offsetSeconds api = chain at *
  generalize renderOverlayChain spec api = overlayChain at *
  have hParsed : ((chain ++ overlayChain).map Prod.snd).map ParsedFilter.name =
      intendedFilters spec api := by
    rw [← hNames, List.map_map]
    rfl
  have hVerify := verifyFiltergraph_good hGood hParse hParsed.symm
  refine ⟨_, inputs, _, graphText chain overlayChain, _, hBuild, ?_, hVerify, hParse,
    hParsed, ?_, ?_⟩
  · unfold buildFiltergraph
    rw [hAssemble, map_filterName hGood, hParsed]
    simp only [hVerify]
    rfl
  · intro parsed hMem hName
    obtain ⟨filter, hFilter, rfl⟩ := List.mem_map.mp hMem
    exact (hGood filter hFilter).options hName
  · rw [List.flatMap_map]
    exact hShown

/-- A render with every overlay, and a caption that tries to leave its quotes. -/
def captionedRender : RenderSpec where
  overlay :=
    { timestampEnabled := true
      timestampFormat := " %H:%M".toList
      textEnabled := true
      textContent := "':%\\".toList
      imageEnabled := true
      imagePath := some "logo.png".toList
      placement := "bottom-left".toList }
  deflicker := true
  fps := ⟨"24.0".toList, by decide⟩
  width := some 1920
  height := some 1080

def captionedFiles : OverlayFiles :=
  ⟨some "C:\\font's.ttf".toList, fun path => some path⟩

theorem overlay_graph_verified_captioned :
    Renderable captionedFiles "C:\\font's.ttf".toList captionedRender.overlay ∧
      ∃ preFilters imageInputs imageFilter graph parsed,
        buildOverlayFilters captionedFiles captionedRender.overlay =
          .ok (preFilters, imageInputs, imageFilter) ∧
        buildFiltergraph captionedRender 1700000000 3600 preFilters imageFilter (some .vaapi) =
          .ok (graph, intendedFilters captionedRender (some .vaapi)) ∧
        parseFiltergraph graph = .ok parsed ∧
        parsed.flatMap shownText =
          [.ok [.function ["pts".toList, "gmtime".toList, "0".toList, "%H:%M".toList]],
            .ok [.char '’', .char ':', .char '%', .char '\\']] := by
  have hConfig : Renderable captionedFiles "C:\\font's.ttf".toList captionedRender.overlay :=
    ⟨fun _ => rfl, fun _ => ⟨_, rfl⟩, fun _ _ _ _ => rfl⟩
  obtain ⟨preFilters, imageInputs, imageFilter, graph, parsed, hBuild, hGraph, -, hParse, -, -,
    hShown⟩ := overlay_graph_verified hConfig 1700000000 3600 (some .vaapi)
  refine ⟨hConfig, preFilters, imageInputs, imageFilter, graph, parsed, hBuild, hGraph, hParse, ?_⟩
  rw [hShown]
  rfl

end TimelapseManager.Encode
