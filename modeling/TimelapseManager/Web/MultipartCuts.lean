import TimelapseManager.Web.MultipartLayout

/-!
# Cutting a multipart body

The events of a body are meant to be the same for every way of splitting it.  Three limits are
compared with what happens to be buffered, and so depend on the cut: the preamble is only measured
while the first delimiter is missing from the buffer, the rest of a delimiter's line while its line
break is missing, and a header block together with the part of its blank line that has arrived.
-/

namespace TimelapseManager.Web.Multipart

open Occurrence
open MultipartParser (init step finish)

/-! ## Whole bodies -/

section Bodies

variable {allowed : Gap → Prop} {boundary : Bytes} {chunks : List Bytes}
  {events out : List MultipartEvent}

theorem chunks_ne_nil_of_layout (hLayout : Layout (delimiterOf boundary) allowed (.preamble 0)
      (crlf ++ chunks.flatten) events) : chunks ≠ [] := by
  rintro rfl
  generalize hStream : crlf ++ [].flatten = stream at hLayout
  cases hLayout with
  | @preamble _ pre rest =>
    have hLength := congrArg List.length hStream
    simp only [List.length_append, delimiterOf_length] at hLength
    change 2 = _ at hLength
    omega

theorem parse_of_layout (hDocumented : ∀ gap, allowed gap → Documented gap)
    (hArrived : chunks.length = 1 ∨ ∀ gap, allowed gap → AnyCut gap)
    (hLayout : Layout (delimiterOf boundary) allowed (.preamble 0) (crlf ++ chunks.flatten)
      events) : ∃ out, parse boundary chunks = .ok out ∧ concatData out = concatData events := by
  have hChunks := chunks_ne_nil_of_layout hLayout
  have hInit : Ahead allowed (init boundary) chunks.flatten events := hLayout
  obtain ⟨last, out, hFeed, hEnd, hEvents⟩ :=
    feedAll_forward hDocumented hArrived hChunks hInit
  refine ⟨out, ?_, hEvents.symm⟩
  unfold parse finish
  rw [hFeed]
  dsimp only
  rw [if_pos hEnd]

theorem layout_of_parse (hParse : parse boundary chunks = .ok out) :
    ∃ events, Layout (delimiterOf boundary) Documented (.preamble 0) (crlf ++ chunks.flatten)
      events ∧ concatData events = concatData out := by
  unfold parse at hParse
  split at hParse
  next => cases hParse
  next last read hFeed =>
    unfold finish at hParse
    by_cases hEnd : last.phase = .epilogue
    · rw [if_pos hEnd] at hParse
      cases hParse
      exact feedAll_backward hFeed hEnd
    · rw [if_neg hEnd] at hParse
      cases hParse

theorem parse_eq_of_anyCut {first second : List Bytes} (hSame : first.flatten = second.flatten)
    (hTight : ∀ events,
      Layout (delimiterOf boundary) Documented (.preamble 0) (crlf ++ first.flatten) events →
      Layout (delimiterOf boundary) AnyCut (.preamble 0) (crlf ++ first.flatten) events)
    (hParse : parse boundary first = .ok out) :
    ∃ others, parse boundary second = .ok others ∧ concatData others = concatData out := by
  obtain ⟨events, hLayout, hEvents⟩ := layout_of_parse hParse
  have hAny := hTight events hLayout
  rw [hSame] at hAny
  obtain ⟨others, hOthers, hRead⟩ :=
    parse_of_layout (fun _ => AnyCut.documented) (Or.inr fun _ hGap => hGap) hAny
  exact ⟨others, hOthers, hRead.trans hEvents⟩

end Bodies

/-! ## Cuts that are refused -/

section Refused

variable {parser next : MultipartParser}

/-- The parser with other bytes in its buffer. -/
def MultipartParser.holding (parser : MultipartParser) (buf : Bytes) : MultipartParser :=
  { parser with buf := buf }

open MultipartParser (holding)

/-- However much of the stream is in the buffer, the loop does not raise. -/
def Survives (parser : MultipartParser) (stream : Bytes) : Prop :=
  ∀ arrived, arrived <+: stream → ∃ result, Loop (parser.holding arrived) (.ok result)

variable {rest : Bytes}

theorem survives_of_step {front needle : Bytes} (out : List MultipartEvent) (hStep : ∀ arrived,
      (parser.holding (front ++ (needle ++ arrived))).step = .ok (next.holding arrived, out, true))
    (hSurvives : Survives parser (front ++ (needle ++ rest))) : Survives next rest := by
  intro arrived hPrefix
  obtain ⟨result, hLoop⟩ := hSurvives (front ++ (needle ++ arrived)) (by simpa using hPrefix)
  have hNext : Loop (next.holding arrived) _ := loop_drain (Nat.lt_succ_self _)
  have hSame := hLoop.unique (.goesOn (hStep arrived) hNext)
  -- The loop does not raise, so what it goes on with does not.
  generalize MultipartParser.drain _ (next.holding arrived) = rest at hNext hSame
  cases rest with
  | error => cases hSame
  | ok last => exact ⟨last, hNext⟩

theorem not_survives_of_step {arrived stream : Bytes} (error : MultipartError)
    (hPrefix : arrived <+: stream) (hStep : (parser.holding arrived).step = .error error) :
    ¬Survives parser stream := by
  intro hSurvives
  obtain ⟨result, hLoop⟩ := hSurvives arrived hPrefix
  cases hLoop.unique (.raises hStep)

/-- The phase of a parser at a place. -/
def Place.phase : Place → Phase
  | .preamble _ => .preamble
  | .afterDelimiter => .afterDelimiter
  | .headers => .headers
  | .content _ _ => .content
  | .epilogue => .epilogue

theorem phase_of_place {place : Place} (hPlace : parser.place = place) :
    parser.phase = place.phase := by
  rw [← hPlace, MultipartParser.place]
  cases parser.phase with
  | _ => rfl

theorem preamble_measured {pre : Bytes} (hPhase : parser.phase = .preamble)
    (hDiscarded : parser.discarded ≤ maxPreambleBytes) (hFirst : FirstAt parser.delimiter pre)
    (hSurvives : Survives parser (pre ++ (parser.delimiter ++ rest))) :
    parser.discarded + pre.length ≤ maxPreambleBytes := by
  by_contra hLong
  have hPrefix : pre ++ parser.delimiter.dropLast <+: pre ++ (parser.delimiter ++ rest) :=
    (List.prefix_append_right_inj pre).mpr ((List.dropLast_prefix _).trans (List.prefix_append _ _))
  refine not_survives_of_step ⟨"the multipart body has no first boundary"⟩ hPrefix ?_ hSurvives
  have hNe : parser.delimiter ≠ [] := List.ne_nil_of_length_pos parser.delimited
  have hFind : find parser.delimiter (pre ++ parser.delimiter.dropLast) = none :=
    find_eq_none_of_incomplete hFirst (List.dropLast_append_getLast hNe) (List.cons_ne_nil _ _)
  have hLength : (pre ++ parser.delimiter.dropLast).length =
      pre.length + (parser.delimiter.length - 1) := by
    rw [List.length_append, List.length_dropLast]
  unfold step holding
  rw [hPhase]
  unfold MultipartParser.preamble
  rw [hFind]
  dsimp only
  have hDelimited := parser.delimited
  rw [hLength, if_pos (by omega), if_pos (by omega)]

theorem padding_measured {padding : Bytes} (hPhase : parser.phase = .afterDelimiter)
    (hBlank : ∀ byte ∈ padding, isBlank byte = true)
    (hSurvives : Survives parser (padding ++ (crlf ++ rest))) :
    padding.length < maxPendingLine := by
  by_contra hLong
  have hStream : (padding ++ [13]) ++ (10 :: rest) = padding ++ (crlf ++ rest) := by
    rw [List.append_assoc]
    rfl
  have hPrefix : padding ++ [13] <+: padding ++ (crlf ++ rest) := ⟨10 :: rest, hStream⟩
  refine not_survives_of_step ⟨"a boundary is not followed by a line break"⟩ hPrefix ?_ hSurvives
  have hFind : find crlf (padding ++ [13]) = none :=
    find_eq_none_of_incomplete (firstAt_of_not_mem (not_mem_blanks hBlank)) rfl
      (List.cons_ne_nil 10 [])
  have hHolding : (parser.holding (padding ++ [13])).buf ++ 10 :: rest =
      padding ++ (crlf ++ rest) := hStream
  have hNot : (padding ++ [13]).take 2 ≠ dashes := take_ne_dashes hBlank hHolding
  have hTooLong : maxPendingLine < (padding ++ [13]).length := by
    rw [List.length_append]
    exact Nat.lt_succ_of_le (Nat.le_of_not_lt hLong)
  unfold step holding
  rw [hPhase]
  unfold MultipartParser.afterDelimiter
  rw [if_neg hNot, hFind]
  rw [if_pos (Or.inl hTooLong)]

theorem headers_refused {blob : Bytes} (hStart : ¬crlf <+: blob ++ blankLine)
    (hFirst : FirstAt blankLine blob) (hLong : maxPartHeaderBytes < blob.length + 3)
    (hBuf : parser.buf = blob ++ [13, 10, 13]) :
    parser.headers = .error ⟨"a multipart part header is too large"⟩ := by
  have hFind : find blankLine parser.buf = none := by
    rw [hBuf]
    exact find_eq_none_of_incomplete hFirst rfl (List.cons_ne_nil 10 [])
  have hNot : ¬crlf <+: parser.buf := by
    rw [hBuf]
    intro hCrlf
    apply hStart
    exact hCrlf.trans ((List.prefix_append_right_inj blob).mpr ⟨[10], rfl⟩)
  have hTooLong : maxPartHeaderBytes < parser.buf.length := by
    rw [hBuf, List.length_append]
    exact hLong
  unfold MultipartParser.headers
  rw [if_neg hNot, hFind]
  rw [if_pos hTooLong]

theorem header_measured {blob : Bytes} (hPhase : parser.phase = .headers)
    (hStart : ¬crlf <+: blob ++ blankLine) (hFirst : FirstAt blankLine blob)
    (hSurvives : Survives parser (blob ++ (blankLine ++ rest))) :
    blob.length + 3 ≤ maxPartHeaderBytes := by
  by_contra hLong
  have hStream : (blob ++ [13, 10, 13]) ++ (10 :: rest) = blob ++ (blankLine ++ rest) := by
    rw [List.append_assoc]
    rfl
  have hPrefix : blob ++ [13, 10, 13] <+: blob ++ (blankLine ++ rest) := ⟨10 :: rest, hStream⟩
  refine not_survives_of_step ⟨"a multipart part header is too large"⟩ hPrefix ?_ hSurvives
  unfold step holding
  rw [hPhase]
  exact headers_refused hStart hFirst (Nat.lt_of_not_le hLong) rfl

theorem anyCut_of_survives {delimiter : Bytes} {place : Place} {stream : Bytes}
    {events : List MultipartEvent} (hLayout : Layout delimiter Documented place stream events) :
    ∀ parser : MultipartParser, parser.delimiter = delimiter → parser.place = place →
      parser.discarded ≤ maxPreambleBytes → Survives parser stream →
      Layout delimiter AnyCut place stream events := by
  -- The induction follows the layout; each case hands the parser that is past the region on, which
  -- survives since one call of `step` gets it there however the region arrived.
  induction hLayout with
  | @preamble discarded pre rest events hFirst _ _ ih =>
    rintro parser rfl hPlace hDiscarded hSurvives
    have hPhase : parser.phase = .preamble := phase_of_place hPlace
    rw [MultipartParser.place, hPhase] at hPlace
    cases hPlace
    have hMeasured := preamble_measured hPhase hDiscarded hFirst hSurvives
    refine .preamble hFirst hMeasured ?_
    apply ih { parser with phase := .afterDelimiter } rfl rfl hDiscarded
    refine survives_of_step [] ?_ hSurvives
    exact fun _ => Moves.step (.first hPhase hFirst rfl)
  | close rest =>
    intro parser hSame hPlace hDiscarded hSurvives
    exact .close rest
  | @line padding rest events hBlank _ _ ih =>
    rintro parser rfl hPlace hDiscarded hSurvives
    have hPhase : parser.phase = .afterDelimiter := phase_of_place hPlace
    refine .line hBlank (padding_measured hPhase hBlank hSurvives) ?_
    apply ih { parser with phase := .headers } rfl rfl hDiscarded
    refine survives_of_step [] ?_ hSurvives
    exact fun _ => Moves.step (.line hPhase hBlank rfl)
  | @noHeaders rest events _ ih =>
    rintro parser rfl hPlace hDiscarded hSurvives
    have hPhase : parser.phase = .headers := phase_of_place hPlace
    refine .noHeaders ?_
    apply ih (parser.inPart (partStart []) []) rfl rfl hDiscarded
    rw [← List.nil_append (crlf ++ rest)] at hSurvives
    refine survives_of_step [.start (partStart [])] ?_ hSurvives
    exact fun _ => Moves.step (.noHeaders hPhase rfl)
  | @headers blob rest events hStart hFirst hGap _ ih =>
    rintro parser rfl hPlace hDiscarded hSurvives
    have hPhase : parser.phase = .headers := phase_of_place hPlace
    refine .headers hStart hFirst (header_measured hPhase hStart hFirst hSurvives) ?_
    apply ih (parser.inPart (partStart blob) []) rfl rfl hDiscarded
    refine survives_of_step [.start (partStart blob)] ?_ hSurvives
    exact fun _ => Moves.step (.headers hPhase hStart hFirst hGap rfl)
  | @content isFile partBytes content rest events hFirst hField _ ih =>
    rintro parser rfl hPlace hDiscarded hSurvives
    have hPhase : parser.phase = .content := phase_of_place hPlace
    rw [MultipartParser.place, hPhase] at hPlace
    cases hPlace
    refine .content hFirst hField ?_
    apply ih { parser with
      partBytes := parser.partBytes + content.length
      phase := .afterDelimiter } rfl rfl hDiscarded
    refine survives_of_step (emitted content ++ [.partEnd]) ?_ hSurvives
    exact fun _ => Moves.step (.content (fun _ => hPhase) hFirst hField rfl)
  | epilogue rest =>
    intro parser hSame hPlace hDiscarded hSurvives
    exact .epilogue rest

end Refused

/-! ## Independence of the cut -/

/-- Both raise, or both succeed with the same events once adjacent data are joined. -/
def SameOutcome (first second : Except MultipartError (List MultipartEvent)) : Prop :=
  match first, second with
  | .ok events, .ok others => concatData events = concatData others
  | .error _, .error _ => True
  | _, _ => False

variable {boundary : Bytes}

theorem parse_of_feed_error {chunk : Bytes} {error : MultipartError} (chunks : List Bytes)
    (hFeed : (init boundary).feed chunk = .error error) :
    parse boundary (chunk :: chunks) = .error error := by
  unfold parse
  rw [MultipartParser.feedAll, hFeed]

theorem feed_of_parse {chunk : Bytes} {chunks : List Bytes} {out : List MultipartEvent}
    (hParse : parse boundary (chunk :: chunks) = .ok out) :
    ∃ result, (init boundary).feed chunk = .ok result := by
  cases hFeed : (init boundary).feed chunk with
  | ok result => exact ⟨result, rfl⟩
  | error error =>
    rw [parse_of_feed_error chunks hFeed] at hParse
    cases hParse

theorem survives_of_feed {body : Bytes} (hFeed : ∀ first, first ≠ [] → first <+: body →
      ∃ result, (init boundary).feed first = .ok result) :
    Survives (init boundary) (crlf ++ body) := by
  intro arrived hPrefix
  by_cases hShort : arrived.length < 3
  · -- With the prepended CRLF alone there is nothing to find and nothing to drop.
    have hDelimiter := delimiterOf_length boundary
    have hFind : find (delimiterOf boundary) arrived = none := find_eq_none_of_short (by omega)
    have hStep : ((init boundary).holding arrived).step =
        .ok ((init boundary).holding arrived, [], false) := by
      unfold step MultipartParser.holding init
      unfold MultipartParser.preamble
      rw [hFind]
      dsimp only
      rw [if_neg (by omega)]
    exact ⟨_, .rests hStep⟩
  · have hLength : crlf.length ≤ arrived.length :=
      Nat.le_trans (by decide) (Nat.le_of_not_lt hShort)
    obtain ⟨first, rfl⟩ :=
      List.prefix_of_prefix_length_le (List.prefix_append crlf body) hPrefix hLength
    have hSome : first ≠ [] := by
      rintro rfl
      exact hShort (by decide)
    obtain ⟨result, hResult⟩ := hFeed first hSome ((List.prefix_append_right_inj crlf).mp hPrefix)
    refine ⟨result, ?_⟩
    rw [← hResult]
    exact loop_feed first nofun

/-- Where a body is accepted whole, the events do not depend on the cut exactly if its preamble,
the rest of each delimiter's line and each header block stay below what is measured while they
arrive. -/
theorem cut_independent_iff (boundary body : Bytes) :
    (∀ first second : List Bytes, first.flatten = body → second.flatten = body →
      SameOutcome (parse boundary first) (parse boundary second)) ↔
    ∀ events,
      Layout (delimiterOf boundary) Documented (.preamble 0) (crlf ++ body) events →
      Layout (delimiterOf boundary) AnyCut (.preamble 0) (crlf ++ body) events := by
  constructor
  · intro hSame events hLayout
    have hWhole : [body].flatten = body := by
      rw [List.flatten_cons, List.flatten_nil, List.append_nil]
    -- The whole body in one chunk is accepted, so every cut of it in two is.
    have hOne : Layout (delimiterOf boundary) Documented (.preamble 0) (crlf ++ [body].flatten)
        events := by
      rw [hWhole]
      exact hLayout
    obtain ⟨out, hParse, -⟩ := parse_of_layout (fun _ hGap => hGap) (Or.inl rfl) hOne
    apply anyCut_of_survives hLayout (init boundary) rfl rfl (Nat.zero_le _)
    apply survives_of_feed
    rintro first - ⟨second, hCut⟩
    have hTwo : [first, second].flatten = body := by
      rw [List.flatten_cons, List.flatten_cons, List.flatten_nil, List.append_nil, hCut]
    have hOutcome := hSame [body] [first, second] hWhole hTwo
    rw [hParse] at hOutcome
    cases hSecond : parse boundary [first, second] with
    | ok others => exact feed_of_parse hSecond
    | error error =>
      rw [hSecond] at hOutcome
      exact absurd hOutcome id
  · rintro hTight first second rfl hSecond
    cases hParse : parse boundary first with
    | ok out =>
      obtain ⟨others, hOthers, hEvents⟩ :=
        parse_eq_of_anyCut hSecond.symm hTight hParse
      rw [hOthers]
      exact hEvents.symm
    | error error =>
      cases hOther : parse boundary second with
      | error other => exact trivial
      | ok out =>
        rw [← hSecond] at hTight
        obtain ⟨others, hOthers, -⟩ := parse_eq_of_anyCut hSecond hTight hOther
        rw [hParse] at hOthers
        cases hOthers

/-- A first delimiter with 1024 blanks after it, up to the CR of its line. -/
def paddedLine : Bytes :=
  ascii "--B" ++ List.replicate maxPendingLine 32 ++ [13]

/-- The rest of a form with one empty part. -/
def afterPaddedLine : Bytes :=
  [10] ++ crlf ++ ascii "\r\n--B--"

/-- In one chunk the form is read; cut between the CR and the LF of the padded line it is
refused. -/
theorem padded_line_depends_on_cut :
    [paddedLine ++ afterPaddedLine].flatten = [paddedLine, afterPaddedLine].flatten ∧
      parse (ascii "B") [paddedLine ++ afterPaddedLine] =
        .ok [.start ⟨[], none, ascii "application/octet-stream"⟩, .partEnd, .formEnd] ∧
      parse (ascii "B") [paddedLine, afterPaddedLine] =
        .error ⟨"a boundary is not followed by a line break"⟩ ∧
      ¬SameOutcome (parse (ascii "B") [paddedLine ++ afterPaddedLine])
        (parse (ascii "B") [paddedLine, afterPaddedLine]) := by
  have hWhole : parse (ascii "B") [paddedLine ++ afterPaddedLine] =
      .ok [.start ⟨[], none, ascii "application/octet-stream"⟩, .partEnd, .formEnd] := by
    decide +kernel
  have hCut : parse (ascii "B") [paddedLine, afterPaddedLine] =
      .error ⟨"a boundary is not followed by a line break"⟩ := by
    decide +kernel
  refine ⟨?_, hWhole, hCut, ?_⟩
  · simp only [List.flatten_cons, List.flatten_nil, List.append_nil]
  · rw [hWhole, hCut]
    exact id

end TimelapseManager.Web.Multipart
