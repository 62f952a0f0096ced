import TimelapseManager.Web.Multipart

/-!
# What the multipart reader accepts

A body that is accepted has a layout: a preamble up to the first delimiter, and after each
delimiter either the closing dashes or a blank rest of the line, a header block and a content up to
the next delimiter.  `Layout` describes the part of it that is still to come, buffered or not, from
any place the reader can be at.

The limits are where chunks matter.  `Documented` is what the reader enforces when the whole body
is there, `AnyCut` what it enforces whatever has arrived.
-/

namespace TimelapseManager.Web.Multipart

open Occurrence
open MultipartParser (startPart step feed feedAll)

/-! ## Layouts -/

/-- Where the reader is, with the counters of that place. -/
inductive Place
  | preamble (discarded : ℕ)
  | afterDelimiter
  | headers
  | content (isFile : Bool) (partBytes : ℕ)
  | epilogue
  deriving DecidableEq

/-- The stretches of a body whose length is limited while they are incomplete. -/
inductive Gap
  | preamble (length : ℕ)
  | padding (length : ℕ)
  | header (length : ℕ)

/-- The limits for a body that is all there. -/
def Documented : Gap → Prop
  | .header length => length ≤ maxPartHeaderBytes
  | _ => True

/-- The limits for every way to cut a body. -/
def AnyCut : Gap → Prop
  | .preamble length => length ≤ maxPreambleBytes
  | .padding length => length < maxPendingLine
  | .header length => length + 3 ≤ maxPartHeaderBytes

theorem AnyCut.documented {gap : Gap} (hGap : AnyCut gap) : Documented gap := by
  cases gap with
  | preamble | padding => exact trivial
  | header length => exact Nat.le_trans (Nat.le_add_right _ _) hGap

/-- The place where the content of a part starts. -/
def contentOf (part : PartStart) : Place :=
  .content part.filename.isSome 0

/-- `Layout delimiter allowed place rest events`: from `place` on, `rest` is read to the end
with `events`. -/
inductive Layout (delimiter : Bytes) (allowed : Gap → Prop) :
    Place → Bytes → List MultipartEvent → Prop
  | preamble {discarded : ℕ} {pre rest : Bytes} {events : List MultipartEvent}
      (hFirst : FirstAt delimiter pre) (hGap : allowed (.preamble (discarded + pre.length)))
      (hRest : Layout delimiter allowed .afterDelimiter rest events) :
      Layout delimiter allowed (.preamble discarded) (pre ++ (delimiter ++ rest)) events
  | close (rest : Bytes) : Layout delimiter allowed .afterDelimiter (dashes ++ rest) [.formEnd]
  | line {padding rest : Bytes} {events : List MultipartEvent}
      (hBlank : ∀ byte ∈ padding, isBlank byte = true)
      (hGap : allowed (.padding padding.length))
      (hRest : Layout delimiter allowed .headers rest events) :
      Layout delimiter allowed .afterDelimiter (padding ++ (crlf ++ rest)) events
  | noHeaders {rest : Bytes} {events : List MultipartEvent}
      (hRest : Layout delimiter allowed (contentOf (partStart [])) rest events) :
      Layout delimiter allowed .headers (crlf ++ rest) (.start (partStart []) :: events)
  | headers {blob rest : Bytes} {events : List MultipartEvent}
      (hStart : ¬crlf <+: blob ++ blankLine) (hFirst : FirstAt blankLine blob)
      (hGap : allowed (.header blob.length))
      (hRest : Layout delimiter allowed (contentOf (partStart blob)) rest events) :
      Layout delimiter allowed .headers (blob ++ (blankLine ++ rest))
        (.start (partStart blob) :: events)
  | content {isFile : Bool} {partBytes : ℕ} {content rest : Bytes}
      {events : List MultipartEvent} (hFirst : FirstAt delimiter content)
      (hField : isFile = false → content ≠ [] → partBytes + content.length ≤ maxFieldBytes)
      (hRest : Layout delimiter allowed .afterDelimiter rest events) :
      Layout delimiter allowed (.content isFile partBytes) (content ++ (delimiter ++ rest))
        (emitted content ++ .partEnd :: events)
  | epilogue (rest : Bytes) : Layout delimiter allowed .epilogue rest []

/-- Where a parser is. -/
def MultipartParser.place (parser : MultipartParser) : Place :=
  match parser.phase with
  | .preamble => .preamble parser.discarded
  | .afterDelimiter => .afterDelimiter
  | .headers => .headers
  | .content => .content parser.isFile parser.partBytes
  | .epilogue => .epilogue

open MultipartParser (place)

/-- The layout of what a parser has still to read: its buffer and what has not arrived. -/
def Ahead (allowed : Gap → Prop) (parser : MultipartParser) (future : Bytes)
    (events : List MultipartEvent) : Prop :=
  Layout parser.delimiter allowed parser.place (parser.buf ++ future) events

section Ended

variable {allowed : Gap → Prop} {parser : MultipartParser} {future : Bytes}
  {events : List MultipartEvent}

theorem ahead_epilogue (hPhase : parser.phase = .epilogue) : Ahead allowed parser future [] := by
  rw [Ahead, place, hPhase]
  exact .epilogue _

theorem Ahead.eq_nil (hAhead : Ahead allowed parser future events)
    (hPhase : parser.phase = .epilogue) : events = [] := by
  rw [Ahead, place, hPhase] at hAhead
  cases hAhead
  rfl

end Ended

/-! ## Steps that find what they look for -/

variable {needle pre padding rest : Bytes}

section Found

variable {parser : MultipartParser} {future post : Bytes}

theorem find_found (hFirst : FirstAt needle pre) (hBuf : parser.buf = pre ++ (needle ++ post)) :
    find needle parser.buf = some pre.length := by
  rw [hBuf]
  exact find_of_firstAt pre post hFirst

theorem stripBy_eq_nil {text : Bytes} (hBlank : ∀ byte ∈ text, isBlank byte = true) :
    stripBy isBlank text = [] := by
  unfold stripBy
  rw [List.dropWhile_eq_nil_iff.mpr hBlank]
  rfl

section

variable (hBlank : ∀ byte ∈ padding, isBlank byte = true)
include hBlank

theorem not_mem_blanks : (13 : UInt8) ∉ padding := by
  intro hMem
  exact absurd (hBlank 13 hMem) (by decide)

theorem take_ne_dashes
    (hStream : parser.buf ++ future = padding ++ (crlf ++ rest)) : parser.buf.take 2 ≠ dashes := by
  intro hDashes
  have hHead : (45 : UInt8) :: ([45] ++ (parser.buf.drop 2 ++ future)) =
      padding ++ (crlf ++ rest) := by
    rw [← hStream, ← List.take_append_drop 2 parser.buf, hDashes, List.drop_append]
    simp [dashes]
  cases padding with
  | nil => exact absurd (List.cons.inj hHead).1 (by decide)
  | cons byte padding =>
    have hByte := hBlank byte List.mem_cons_self
    rw [← (List.cons.inj hHead).1] at hByte
    exact absurd hByte (by decide)

end

theorem crlf_begins {blob : Bytes} (hCrlf : crlf <+: blob ++ (blankLine ++ post)) :
    crlf <+: blob ++ blankLine := by
  rw [← List.append_assoc] at hCrlf
  refine (List.isPrefix_append_of_length ?_).mp hCrlf
  rw [List.length_append]
  exact Nat.le_trans (by decide) (Nat.le_add_left blankLine.length blob.length)

theorem Moves.step {next : MultipartParser} {out : List MultipartEvent}
    (hMoves : Moves parser next out true) : parser.step = .ok (next, out, true) := by
  cases hMoves with
  | first hAt hFirst hBuf =>
    simp only [MultipartParser.step, hAt]
    unfold MultipartParser.preamble
    rw [find_found hFirst hBuf]
    dsimp only
    rw [drop_found hBuf]
  | @line padding post hAt hBlank hBuf =>
    have hFirst : FirstAt crlf padding := firstAt_of_not_mem (not_mem_blanks hBlank)
    have hStream : parser.buf ++ [] = padding ++ (crlf ++ post) := by
      rw [List.append_nil, hBuf]
    have hDrop : parser.buf.drop (padding.length + 2) = post := drop_found hBuf
    simp only [MultipartParser.step, hAt]
    unfold MultipartParser.afterDelimiter
    rw [if_neg (take_ne_dashes hBlank hStream), find_found hFirst hBuf]
    dsimp only
    rw [take_found hBuf, hDrop, if_neg (not_not.mpr (stripBy_eq_nil hBlank))]
  | @noHeaders post hAt hBuf =>
    have hCrlf : crlf <+: parser.buf := by
      rw [hBuf]
      exact List.prefix_append _ _
    have hDrop : parser.buf.drop 2 = post := by
      rw [hBuf]
      rfl
    simp only [MultipartParser.step, hAt]
    unfold MultipartParser.headers startPart
    rw [if_pos hCrlf, hDrop]
    rfl
  | @headers blob post hAt hStart hFirst hLimit hBuf =>
    have hNot : ¬crlf <+: parser.buf := by
      rw [hBuf]
      exact fun hCrlf => hStart (crlf_begins hCrlf)
    have hDrop : parser.buf.drop (blob.length + 4) = post := drop_found hBuf
    simp only [MultipartParser.step, hAt]
    unfold MultipartParser.headers
    rw [if_neg hNot, find_found hFirst hBuf]
    dsimp only
    rw [if_neg (Nat.not_lt.mpr hLimit), take_found hBuf]
    unfold startPart
    rw [hDrop]
    rfl
  | content hAt hFirst hField hBuf =>
    have hStep : parser.step = parser.content := by
      by_cases hEnd : parser.phase = .epilogue
      · rw [MultipartParser.step, hEnd]
      · rw [MultipartParser.step, hAt hEnd]
    rw [hStep]
    unfold MultipartParser.content
    rw [find_found hFirst hBuf]
    dsimp only
    rw [take_found hBuf, emit_eq_ok hField, drop_found hBuf]

end Found

/-! ## Forward: a layout is read on -/

section Forward

variable {allowed : Gap → Prop} {parser : MultipartParser} {future : Bytes}
  {events : List MultipartEvent}

/-- What is left of a layout by a parser that has read a part of it with some events. -/
def LeftBy (allowed : Gap → Prop) (future : Bytes) (events : List MultipartEvent)
    (next : MultipartParser) (out : List MultipartEvent) : Prop :=
  ∃ later, Ahead allowed next future later ∧ concatData events = concatData (out ++ later)

/-- A step goes on with the layout, and one that makes no progress waits for more of it. -/
inductive GoesOn (allowed : Gap → Prop) (future : Bytes) (events : List MultipartEvent)
    (result : Except MultipartError Stepped) : Prop
  | progress {next : MultipartParser} {out : List MultipartEvent}
      (hResult : result = .ok (next, out, true)) (hLeft : LeftBy allowed future events next out)
  | waits {next : MultipartParser} {out : List MultipartEvent}
      (hResult : result = .ok (next, out, false)) (hLeft : LeftBy allowed future events next out)
      (hEnd : future = [] → next.phase = .epilogue)

/-- Everything is there, or the limits are those of every cut. -/
def Arrived (allowed : Gap → Prop) (future : Bytes) : Prop :=
  future = [] ∨ ∀ gap, allowed gap → AnyCut gap

theorem anyCut_of_not_found (hArrived : Arrived allowed future)
    (hFind : find needle parser.buf = none)
    (hStream : parser.buf ++ future = pre ++ (needle ++ rest)) :
    future ≠ [] ∧ ∀ gap, allowed gap → AnyCut gap := by
  have hFuture : future ≠ [] := by
    rintro rfl
    rw [List.append_nil] at hStream
    exact not_infix_of_find hFind pre rest hStream
  exact ⟨hFuture, hArrived.resolve_left hFuture⟩

theorem found_of_layout {index : ℕ} (hFind : find needle parser.buf = some index)
    (hFirst : FirstAt needle pre) (hStream : parser.buf ++ future = pre ++ (needle ++ rest)) :
    ∃ post, parser.buf = pre ++ (needle ++ post) ∧ post ++ future = rest ∧ pre.length = index := by
  obtain ⟨found, post, hBuf, hIndex, hFound⟩ := exists_of_find hFind
  have hSame : found ++ (needle ++ (post ++ future)) = pre ++ (needle ++ rest) := by
    rw [← hStream, hBuf]
    simp only [List.append_assoc]
  obtain ⟨rfl, rfl⟩ := hFound.unique hFirst hSame
  exact ⟨post, hBuf, rfl, hIndex⟩

theorem pending_blank {waiting : Bytes} (hBlank : ∀ byte ∈ padding, isBlank byte = true)
    (hPrefix : waiting <+: padding ++ [13]) :
    stripBy isBlank (waiting.rdropWhile (· = 13)) = [] := by
  apply stripBy_eq_nil
  intro byte hMem
  rcases List.prefix_concat_iff.mp hPrefix with rfl | hShort
  · rw [List.rdropWhile_concat_pos _ _ _ (by decide)] at hMem
    exact hBlank byte ((List.rdropWhile_prefix _ _).subset hMem)
  · exact hBlank byte (hShort.subset ((List.rdropWhile_prefix _ _).subset hMem))

theorem short_of_dashes (hStream : parser.buf ++ future = dashes ++ rest)
    (hNot : parser.buf.take 2 ≠ dashes) : parser.buf = [] ∨ parser.buf = [45] := by
  rcases hBuf : parser.buf with _ | ⟨first, _ | ⟨second, more⟩⟩
  · exact Or.inl rfl
  · rw [hBuf] at hStream
    rw [(List.cons.inj hStream).1]
    exact Or.inr rfl
  · rw [hBuf] at hStream hNot
    obtain ⟨rfl, hTail⟩ := List.cons.inj hStream
    obtain ⟨rfl, -⟩ := List.cons.inj hTail
    exact absurd rfl hNot

theorem find_eq_none_of_short {text : Bytes} (hShort : text.length < needle.length) :
    find needle text = none := by
  cases hFind : find needle text with
  | none => rfl
  | some index =>
    have hLength := length_of_find hFind
    omega

theorem concatData_emitted (front late : Bytes) (events : List MultipartEvent) :
    concatData (emitted (front ++ late) ++ events) =
      concatData (emitted front ++ (emitted late ++ events)) := by
  unfold emitted
  by_cases hFront : front = []
  · rw [hFront, if_pos rfl]
    rfl
  · by_cases hLate : late = []
    · rw [hLate, List.append_nil, if_pos rfl]
      rfl
    · rw [if_neg hFront, if_neg hLate, if_neg fun hNil => hFront (List.append_eq_nil_iff.mp hNil).1]
      exact (concatData_data front late events).symm

section Steps

variable (hArrived : Arrived allowed future) (hAhead : Ahead allowed parser future events)
include hArrived hAhead

theorem preamble_forward (hPhase : parser.phase = .preamble) :
    GoesOn allowed future events parser.step := by
  have hHere := hAhead
  simp only [Ahead, place, hPhase] at hAhead
  generalize hStream : parser.buf ++ future = stream at hAhead
  cases hAhead with
  | @preamble _ pre rest _ hFirst hGap hRest =>
    cases hFind : find parser.delimiter parser.buf with
    | some index =>
      obtain ⟨post, hBuf, rfl, -⟩ := found_of_layout hFind hFirst hStream
      exact .progress (Moves.first hPhase hFirst hBuf).step ⟨events, hRest, rfl⟩
    | none =>
      obtain ⟨hFuture, hAny⟩ := anyCut_of_not_found hArrived hFind hStream
      have hLimit : parser.discarded + pre.length ≤ maxPreambleBytes := hAny _ hGap
      simp only [step, hPhase]
      unfold MultipartParser.preamble
      rw [hFind]
      dsimp only
      split
      next hLong =>
        -- All but the last bytes are dropped, and belong to the preamble.
        obtain ⟨late, rfl, hLate, hFirstLate⟩ :=
          hFirst.held_back parser.delimited hFind hStream
        have hDropped : (parser.buf.take (spare parser.delimiter parser.buf)).length =
            parser.buf.length - (parser.delimiter.length - 1) := by
          rw [List.length_take, spare]
          omega
        rw [List.length_append, hDropped, ← Nat.add_assoc] at hLimit hGap
        rw [if_neg (by omega)]
        refine .waits rfl ⟨events, ?_, rfl⟩ fun hNil => absurd hNil hFuture
        simp only [Ahead, place, hPhase]
        change Layout _ _ _ (parser.buf.drop (spare _ _) ++ future) _
        rw [hLate]
        exact .preamble hFirstLate hGap hRest
      next => exact .waits rfl ⟨events, hHere, rfl⟩ fun hNil => absurd hNil hFuture

theorem afterDelimiter_forward (hPhase : parser.phase = .afterDelimiter) :
    GoesOn allowed future events parser.step := by
  have hHere := hAhead
  simp only [Ahead, place, hPhase] at hAhead
  generalize hStream : parser.buf ++ future = stream at hAhead
  cases hAhead with
  | close rest =>
    by_cases hDashes : parser.buf.take 2 = dashes
    · simp only [step, hPhase]
      exact .waits (if_pos hDashes) ⟨[], .epilogue _, rfl⟩ fun _ => rfl
    · -- Only one dash, or none, has arrived.
      have hShort := short_of_dashes hStream hDashes
      have hWaits : parser.step = .ok (parser, [], false) := by
        simp only [step, hPhase]
        unfold MultipartParser.afterDelimiter
        rcases hShort with hBuf | hBuf
        · rw [hBuf]
          rfl
        · rw [hBuf]
          rfl
      refine .waits hWaits ⟨_, hHere, rfl⟩ ?_
      rintro rfl
      rw [List.append_nil] at hStream
      rw [hStream] at hDashes
      exact absurd rfl hDashes
  | @line padding rest _ hBlank hGap hRest =>
    have hFirst : FirstAt crlf padding := firstAt_of_not_mem (not_mem_blanks hBlank)
    cases hFind : find crlf parser.buf with
    | some stop =>
      obtain ⟨post, hBuf, rfl, -⟩ := found_of_layout hFind hFirst hStream
      exact .progress (Moves.line hPhase hBlank hBuf).step ⟨events, hRest, rfl⟩
    | none =>
      obtain ⟨hFuture, hAny⟩ := anyCut_of_not_found hArrived hFind hStream
      have hLimit : padding.length < maxPendingLine := hAny _ hGap
      have hShort := lt_of_find_eq_none hFind hStream
      change parser.buf.length < padding.length + 2 at hShort
      -- What has arrived is padding, with the first byte of the line end at most.
      have hPrefix : parser.buf <+: padding ++ [13] := by
        have hWhole : padding ++ [13] <+: parser.buf ++ future := by
          rw [hStream]
          exact ⟨10 :: rest, by simp [crlf]⟩
        apply List.prefix_of_prefix_length_le (List.prefix_append _ _) hWhole
        rw [List.length_append]
        exact Nat.le_of_lt_succ hShort
      simp only [step, hPhase]
      unfold MultipartParser.afterDelimiter
      rw [if_neg (take_ne_dashes hBlank hStream), hFind]
      rw [if_neg]
      · exact .waits rfl ⟨events, hHere, rfl⟩ fun hNil => absurd hNil hFuture
      · rintro (hLong | ⟨-, hPending⟩)
        · omega
        · exact hPending (pending_blank hBlank hPrefix)

theorem headers_forward (hDocumented : ∀ gap, allowed gap → Documented gap)
    (hPhase : parser.phase = .headers) : GoesOn allowed future events parser.step := by
  have hHere := hAhead
  simp only [Ahead, place, hPhase] at hAhead
  generalize hStream : parser.buf ++ future = stream at hAhead
  cases hAhead with
  | @noHeaders rest later hRest =>
    rcases Decidable.em (crlf <+: parser.buf) with ⟨post, hBuf⟩ | hNot
    · rw [← hBuf, List.append_assoc] at hStream
      have hPost : post ++ future = rest := List.append_cancel_left hStream
      rw [← hPost] at hRest
      exact .progress (Moves.noHeaders hPhase hBuf.symm).step ⟨later, hRest, rfl⟩
    · -- The blank line has not arrived whole, so nothing else can be found yet.
      have hShort : parser.buf.length < 2 := by
        by_contra hLong
        apply hNot
        have hWhole : crlf <+: parser.buf ++ future := by
          rw [hStream]
          exact List.prefix_append _ _
        exact (List.isPrefix_append_of_length (Nat.le_of_not_lt hLong)).mp hWhole
      simp only [step, hPhase]
      unfold MultipartParser.headers
      rw [if_neg hNot, find_eq_none_of_short (Nat.lt_trans hShort (by decide))]
      rw [if_neg (by unfold maxPartHeaderBytes; omega)]
      refine .waits rfl ⟨_, hHere, rfl⟩ ?_
      rintro rfl
      rw [List.append_nil] at hStream
      exact absurd ⟨rest, hStream.symm⟩ hNot
  | @headers blob rest later hStart hFirst hGap hRest =>
    -- Part headers do not begin with a line end, or there would be none.
    have hNot : ¬crlf <+: parser.buf := by
      intro hCrlf
      have hWhole : crlf <+: blob ++ (blankLine ++ rest) := by
        rw [← hStream]
        exact hCrlf.trans (List.prefix_append _ _)
      exact hStart (crlf_begins hWhole)
    cases hFind : find blankLine parser.buf with
    | some stop =>
      obtain ⟨post, hBuf, rfl, -⟩ := found_of_layout hFind hFirst hStream
      have hLimit : blob.length ≤ maxPartHeaderBytes := hDocumented _ hGap
      exact .progress (Moves.headers hPhase hStart hFirst hLimit hBuf).step ⟨later, hRest, rfl⟩
    | none =>
      obtain ⟨hFuture, hAny⟩ := anyCut_of_not_found hArrived hFind hStream
      have hLimit : blob.length + 3 ≤ maxPartHeaderBytes := hAny _ hGap
      have hShort := lt_of_find_eq_none hFind hStream
      change parser.buf.length < blob.length + 4 at hShort
      simp only [step, hPhase]
      unfold MultipartParser.headers
      rw [if_neg hNot, hFind]
      rw [if_neg (by omega)]
      exact .waits rfl ⟨_, hHere, rfl⟩ fun hNil => absurd hNil hFuture

theorem content_forward (hPhase : parser.phase = .content) :
    GoesOn allowed future events parser.step := by
  have hHere := hAhead
  simp only [Ahead, place, hPhase] at hAhead
  generalize hStream : parser.buf ++ future = stream at hAhead
  cases hAhead with
  | @content _ _ content rest later hFirst hField hRest =>
    cases hFind : find parser.delimiter parser.buf with
    | some index =>
      obtain ⟨post, hBuf, rfl, -⟩ := found_of_layout hFind hFirst hStream
      refine .progress (Moves.content (fun _ => hPhase) hFirst hField hBuf).step ⟨later, hRest, ?_⟩
      rw [List.append_assoc]
      rfl
    | none =>
      obtain ⟨hFuture, -⟩ := anyCut_of_not_found hArrived hFind hStream
      simp only [step, hPhase]
      unfold MultipartParser.content
      rw [hFind]
      dsimp only
      split
      -- What cannot be the begin of a delimiter is emitted, and the rest is held back.
      next hSafe =>
        obtain ⟨late, rfl, hLate, hFirstLate⟩ :=
          hFirst.held_back parser.delimited hFind hStream
        have hFront : parser.Fits (parser.buf.take (spare parser.delimiter parser.buf)) := by
          intro hText hNe
          have hLimit := hField hText fun hNil => hNe (List.append_eq_nil_iff.mp hNil).1
          rw [List.length_append] at hLimit
          omega
        have hEmit := emit_eq_ok hFront
        unfold spare at hEmit
        rw [hEmit]
        refine .waits rfl ⟨emitted late ++ .partEnd :: later, ?_, concatData_emitted _ late _⟩
          fun hNil => absurd hNil hFuture
        simp only [Ahead, place, hPhase]
        change Layout _ _ _ (parser.buf.drop (spare _ _) ++ future) _
        rw [hLate]
        refine .content hFirstLate ?_ hRest
        intro hText hNe
        have hLimit := hField hText fun hNil => hNe (List.append_eq_nil_iff.mp hNil).2
        rw [List.length_append] at hLimit
        unfold spare at hLimit
        omega
      next => exact .waits rfl ⟨_, hHere, rfl⟩ fun hNil => absurd hNil hFuture

variable (hDocumented : ∀ gap, allowed gap → Documented gap)
include hDocumented

theorem step_forward (hPhase : parser.phase ≠ .epilogue) :
    GoesOn allowed future events parser.step := by
  cases hAt : parser.phase with
  | preamble => exact preamble_forward hArrived hAhead hAt
  | afterDelimiter => exact afterDelimiter_forward hArrived hAhead hAt
  | headers => exact headers_forward hArrived hAhead hDocumented hAt
  | content => exact content_forward hArrived hAhead hAt
  | epilogue => exact absurd hAt hPhase

theorem Loop.forward {result : Except MultipartError (MultipartParser × List MultipartEvent)}
    (hLoop : Loop parser result) (hPhase : parser.phase ≠ .epilogue) :
    ∃ next out, result = .ok (next, out) ∧ LeftBy allowed future events next out ∧
      (future = [] → next.phase = .epilogue) := by
  induction hLoop generalizing events with
    have hGoesOn := step_forward hArrived hAhead hDocumented hPhase
  | raises hStep =>
    rw [hStep] at hGoesOn
    cases hGoesOn with
    | progress hResult | waits hResult => cases hResult
  | rests hStep =>
    rw [hStep] at hGoesOn
    cases hGoesOn with
    | progress hResult => cases hResult
    | waits hResult hLeft hEnd =>
      cases hResult
      exact ⟨_, _, rfl, hLeft, hEnd⟩
  | @goesOn _ _ read _ hStep _ ih =>
    have hNext := (step_advances hStep).phase rfl
    rw [hStep] at hGoesOn
    cases hGoesOn with
    | waits hResult => cases hResult
    | progress hResult hLeft =>
      cases hResult
      obtain ⟨later, hLater, hEvents⟩ := hLeft
      obtain ⟨last, more, rfl, ⟨rest, hRest, hMore⟩, hEnd⟩ := ih hLater hNext
      refine ⟨last, read ++ more, rfl, ⟨rest, hRest, ?_⟩, hEnd⟩
      rw [hEvents, concatData_append hMore, List.append_assoc]

end Steps

theorem feed_forward {chunk : Bytes} (hDocumented : ∀ gap, allowed gap → Documented gap)
    (hArrived : Arrived allowed future) (hAhead : Ahead allowed parser (chunk ++ future) events) :
    ∃ next out, parser.feed chunk = .ok (next, out) ∧ LeftBy allowed future events next out ∧
      (future = [] → next.phase = .epilogue) := by
  by_cases hPhase : parser.phase = .epilogue
  · rw [feed, if_pos hPhase]
    rw [hAhead.eq_nil hPhase]
    exact ⟨parser, [], rfl, ⟨[], ahead_epilogue hPhase, rfl⟩, fun _ => hPhase⟩
  · have hFed : Ahead allowed { parser with buf := parser.buf ++ chunk } future events := by
      rw [Ahead, ← List.append_assoc] at hAhead
      exact hAhead
    exact (loop_feed chunk hPhase).forward hArrived hFed hDocumented hPhase

theorem feedAll_forward {chunks : List Bytes} (hDocumented : ∀ gap, allowed gap → Documented gap)
    (hArrived : chunks.length = 1 ∨ ∀ gap, allowed gap → AnyCut gap) (hChunks : chunks ≠ [])
    (hAhead : Ahead allowed parser chunks.flatten events) :
    ∃ last out, parser.feedAll chunks = .ok (last, out) ∧ last.phase = .epilogue ∧
      concatData events = concatData out := by
  induction chunks generalizing parser events with
  | nil => exact absurd rfl hChunks
  | cons chunk chunks ih =>
    have hNext : Arrived allowed chunks.flatten := by
      rcases hArrived with hOne | hAny
      · left
        rw [List.length_eq_zero_iff.mp (Nat.succ.inj hOne)]
        rfl
      · exact Or.inr hAny
    obtain ⟨next, out, hFeed, ⟨later, hLater, hEvents⟩, hEnd⟩ :=
      feed_forward hDocumented hNext hAhead
    rw [feedAll, hFeed]
    dsimp only
    by_cases hLast : chunks = []
    · subst hLast
      rw [hLater.eq_nil (hEnd rfl)] at hEvents
      exact ⟨next, out ++ [], rfl, hEnd rfl, hEvents⟩
    · have hRestArrived : chunks.length = 1 ∨ ∀ gap, allowed gap → AnyCut gap := by
        rcases hArrived with hOne | hAny
        · exact absurd (List.length_eq_zero_iff.mp (Nat.succ.inj hOne)) hLast
        · exact Or.inr hAny
      obtain ⟨last, more, hAll, hPhase, hMore⟩ := ih hRestArrived hLast hLater
      rw [hAll]
      refine ⟨last, out ++ more, rfl, hPhase, ?_⟩
      rw [hEvents]
      exact concatData_append hMore

end Forward

/-! ## Backward: what was read had a layout -/

section Backward

variable {parser next : MultipartParser} {future : Bytes} {out later : List MultipartEvent}
  {progress : Bool}

/-- A layout of what was there before a step, with the events of the step in front. -/
def ComesFrom (parser : MultipartParser) (future : Bytes) (events : List MultipartEvent) : Prop :=
  ∃ before, Ahead Documented parser future before ∧ concatData before = concatData events

theorem step_backward (hLater : Ahead Documented next future later) (hPhase : parser.phase ≠ .epilogue)
    (hStep : parser.step = .ok (next, out, progress)) :
    ComesFrom parser future (out ++ later) := by
  unfold ComesFrom Ahead
  unfold Ahead at hLater
  cases moves_of_step hStep with
  | first hAt hFirst hBuf =>
    rw [place, hAt, hBuf, List.append_assoc, List.append_assoc]
    exact ⟨later, .preamble hFirst trivial hLater, rfl⟩
  | discard hAt hFind hSpare =>
    simp only [place, hAt] at hLater ⊢
    -- What was discarded goes in front of the preamble that is found later.
    generalize hStream : parser.buf.drop _ ++ future = stream at hLater
    cases hLater with
    | @preamble _ late rest _ hFirst _ hRest =>
      have hWhole := firstAt_of_spare hFind hSpare hStream hFirst
      rw [← List.take_append_drop (spare parser.delimiter parser.buf) parser.buf,
        List.append_assoc, hStream, ← List.append_assoc]
      exact ⟨later, .preamble hWhole trivial hRest, rfl⟩
  | close hAt hBuf =>
    cases hLater
    rw [place, hAt, hBuf, List.append_assoc]
    exact ⟨[.formEnd], .close _, rfl⟩
  | line hAt hBlank hBuf =>
    rw [place, hAt, hBuf, List.append_assoc, List.append_assoc]
    exact ⟨later, .line hBlank trivial hLater, rfl⟩
  | noHeaders hAt hBuf =>
    rw [place, hAt, hBuf, List.append_assoc]
    exact ⟨_, .noHeaders hLater, rfl⟩
  | headers hAt hStart hFirst hLimit hBuf =>
    rw [place, hAt, hBuf, List.append_assoc, List.append_assoc]
    exact ⟨_, .headers hStart hFirst hLimit hLater, rfl⟩
  | content hAt hFirst hField hBuf =>
    rw [place, hAt hPhase, hBuf, List.append_assoc, List.append_assoc, List.append_assoc]
    exact ⟨_, .content hFirst hField hLater, rfl⟩
  | @emit data hAt hFind hSpare hData hField =>
    simp only [place, hAt hPhase] at hLater ⊢
    generalize hStream : parser.buf.drop _ ++ future = stream at hLater
    cases hLater with
    | @content _ _ late rest more hFirst hLate hRest =>
      -- What was emitted now and what is emitted later are one content.
      have hWhole := firstAt_of_spare hFind hSpare hStream hFirst
      rw [← List.take_append_drop (spare parser.delimiter parser.buf) parser.buf,
        List.append_assoc, hStream, ← List.append_assoc]
      rw [← hData] at hWhole ⊢
      refine ⟨_, .content hWhole ?_ hRest, concatData_emitted _ late _⟩
      intro hText hNe
      have hFront := hField hText
      rw [List.length_append]
      -- Each piece was within the limit when it was emitted, and the last one counted them all.
      by_cases hNil : late = []
      · rw [hNil, List.append_nil] at hNe
        rw [hNil]
        exact hFront hNe
      · have hLimit := hLate hText hNil
        omega
  | wait => exact ⟨later, hLater, rfl⟩

theorem Loop.backward {result : Except MultipartError (MultipartParser × List MultipartEvent)}
    (hLoop : Loop parser result) (hPhase : parser.phase ≠ .epilogue)
    (hResult : result = .ok (next, out)) (hLater : Ahead Documented next future later) :
    ComesFrom parser future (out ++ later) := by
  induction hLoop generalizing out with
  | raises => cases hResult
  | rests hStep =>
    cases hResult
    exact step_backward hLater hPhase hStep
  | @goesOn parser afterStep events result hStep _ ih =>
    rcases result with error | ⟨last, more⟩
    · cases hResult
    · cases hResult
      obtain ⟨before, hBefore, hEvents⟩ := ih ((step_advances hStep).phase rfl) rfl
      obtain ⟨whole, hWhole, hAll⟩ := step_backward hBefore hPhase hStep
      refine ⟨whole, hWhole, ?_⟩
      rw [hAll, concatData_append hEvents, List.append_assoc]

theorem feed_backward {chunk : Bytes} (hFeed : parser.feed chunk = .ok (next, out))
    (hLater : Ahead Documented next future later) :
    ComesFrom parser (chunk ++ future) (out ++ later) := by
  by_cases hPhase : parser.phase = .epilogue
  · rw [feed, if_pos hPhase] at hFeed
    cases hFeed
    rw [hLater.eq_nil hPhase]
    exact ⟨[], ahead_epilogue hPhase, rfl⟩
  · obtain ⟨before, hBefore, hEvents⟩ := (loop_feed chunk hPhase).backward hPhase hFeed hLater
    refine ⟨before, ?_, hEvents⟩
    rw [Ahead, ← List.append_assoc]
    exact hBefore

theorem feedAll_backward {chunks : List Bytes} (hFeed : parser.feedAll chunks = .ok (next, out))
    (hEnd : next.phase = .epilogue) : ComesFrom parser chunks.flatten out := by
  induction chunks generalizing parser out with
  | nil =>
    cases hFeed
    exact ⟨[], ahead_epilogue hEnd, rfl⟩
  | cons chunk chunks ih =>
    rw [feedAll] at hFeed
    split at hFeed
    next => cases hFeed
    next afterChunk events hChunk =>
      split at hFeed
      next => cases hFeed
      next last more hRest =>
        cases hFeed
        obtain ⟨before, hBefore, hEvents⟩ := ih hRest
        obtain ⟨whole, hWhole, hAll⟩ := feed_backward hChunk hBefore
        refine ⟨whole, hWhole, ?_⟩
        rw [hAll]
        exact concatData_append hEvents

end Backward

end TimelapseManager.Web.Multipart
