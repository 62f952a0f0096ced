import Mathlib.Data.List.DropRight
import TimelapseManager.Lib.Occurrence

/-!
# The streaming multipart reader

`web/multipart.py`, `MultipartParser`: the body of a form arrives in chunks and is turned into
events.  `feed` appends a chunk to the buffer and steps the state machine until it makes no
progress; `finish` asks whether the closing delimiter was seen.

The text of a part's headers is decoded as Latin-1, so that text is kept as the list of its
character codes; `isSpace` and `lower` are `str.isspace` and `str.lower` on the first 256
characters.  The loop of `feed` is run with fuel: a step that makes progress takes something out of
the buffer, so the length of the buffer is enough.
-/

namespace TimelapseManager.Web.Multipart

open Occurrence

/-! ## Bytes and Latin-1 text -/

abbrev Bytes := List UInt8

/-- The bytes of an ASCII text. -/
def ascii (text : String) : Bytes :=
  text.toList.map fun char => UInt8.ofNat char.toNat

def crlf : Bytes := [13, 10]

def dashes : Bytes := [45, 45]

/-- The end of a header block. -/
def blankLine : Bytes := [13, 10, 13, 10]

/-- `str.isspace`. -/
def isSpace (byte : UInt8) : Bool :=
  (9 ≤ byte && byte ≤ 13) || (28 ≤ byte && byte ≤ 32) || byte = 133 || byte = 160

/-- `str.lower`; the multiplication sign between the accented capitals is no letter. -/
def lower (byte : UInt8) : UInt8 :=
  if (65 ≤ byte ∧ byte ≤ 90) ∨ (192 ≤ byte ∧ byte ≤ 222 ∧ byte ≠ 215) then byte + 32 else byte

/-- A space or a tab. -/
def isBlank (byte : UInt8) : Bool :=
  byte = 32 || byte = 9

/-- `strip` of the bytes that satisfy `drop`. -/
def stripBy (drop : UInt8 → Bool) (text : Bytes) : Bytes :=
  (text.dropWhile drop).rdropWhile drop

def strip (text : Bytes) : Bytes :=
  stripBy isSpace text

/-- `partition`: what stands before the first separator and what after it. -/
def partition (separator : UInt8) (text : Bytes) : Bytes × Bytes :=
  (text.takeWhile (· ≠ separator), (text.dropWhile (· ≠ separator)).drop 1)

def splitWithin (separator : Bytes) : ℕ → Bytes → List Bytes
  | 0, text => [text]
  | fuel + 1, text =>
    match find separator text with
    | none => [text]
    | some index =>
      text.take index :: splitWithin separator fuel (text.drop (index + separator.length))

/-- `split`; a separator is not empty, so there are at most as many as bytes. -/
def split (separator text : Bytes) : List Bytes :=
  splitWithin separator text.length text

/-! ## Part headers -/

/-- `_part_headers`, in the order of the lines. -/
def partHeaders (blob : Bytes) : List (Bytes × Bytes) :=
  (split crlf blob).filterMap fun line =>
    if line = [] then none
    else
      let (key, value) := partition 58 line
      some ((strip key).map lower, strip value)

/-- `headers.get`: a later line replaces an earlier one of the same name. -/
def header? (headers : List (Bytes × Bytes)) (key : Bytes) : Option Bytes :=
  headers.reverse.lookup key

/-- `disposition_param`. -/
def dispositionParam (disposition param : Bytes) : Option Bytes :=
  (split [59] disposition).findSome? fun piece =>
    let (key, value) := partition 61 (strip piece)
    if (strip key).map lower = param then some (stripBy (· = 34) (strip value)) else none

structure PartStart where
  name : Bytes
  filename : Option Bytes
  contentType : Bytes
  deriving DecidableEq, Repr

/-- The part that a header block announces. -/
def partStart (blob : Bytes) : PartStart :=
  let headers := partHeaders blob
  let disposition := (header? headers (ascii "content-disposition")).getD []
  { name := (dispositionParam disposition (ascii "name")).getD []
    filename := dispositionParam disposition (ascii "filename")
    contentType :=
      (header? headers (ascii "content-type")).getD (ascii "application/octet-stream") }

/-! ## The parser -/

inductive MultipartEvent
  | start (part : PartStart)
  | data (content : Bytes)
  | partEnd
  | formEnd
  deriving DecidableEq, Repr

structure MultipartError where
  message : String
  deriving DecidableEq, Repr

def maxFieldBytes : ℕ := 64 * 1024
def maxPartHeaderBytes : ℕ := 16 * 1024
def maxPreambleBytes : ℕ := 64 * 1024

/-- The most a delimiter's line may keep waiting. -/
def maxPendingLine : ℕ := 1024

inductive Phase
  | preamble
  | afterDelimiter
  | headers
  | content
  | epilogue
  deriving DecidableEq, Repr

structure MultipartParser where
  delimiter : Bytes
  buf : Bytes
  phase : Phase
  discarded : ℕ
  isFile : Bool
  partBytes : ℕ
  delimited : 0 < delimiter.length
  deriving DecidableEq, Repr

/-- What a step leaves, with its events and whether it made progress. -/
abbrev Stepped := MultipartParser × List MultipartEvent × Bool

/-- `CRLF --B`. -/
def delimiterOf (boundary : Bytes) : Bytes :=
  crlf ++ (dashes ++ boundary)

theorem delimiterOf_length (boundary : Bytes) :
    (delimiterOf boundary).length = boundary.length + 4 := by
  unfold delimiterOf
  rw [List.length_append, List.length_append]
  change 2 + (2 + boundary.length) = _
  omega

namespace MultipartParser

variable (parser : MultipartParser)

/-- `__init__`: a CRLF is prepended, so that every delimiter starts with one. -/
def init (boundary : Bytes) : MultipartParser where
  delimiter := delimiterOf boundary
  buf := crlf
  phase := .preamble
  discarded := 0
  isFile := false
  partBytes := 0
  delimited := Nat.succ_pos _

/-- `_preamble`. -/
def preamble : Except MultipartError Stepped :=
  match find parser.delimiter parser.buf with
  | some index =>
    .ok ({ parser with
      buf := parser.buf.drop (index + parser.delimiter.length)
      phase := .afterDelimiter }, [], true)
  | none =>
    let keep := parser.delimiter.length - 1
    if keep < parser.buf.length then
      let discarded := parser.discarded + (parser.buf.length - keep)
      if maxPreambleBytes < discarded then
        .error ⟨"the multipart body has no first boundary"⟩
      else
        .ok ({ parser with
          buf := parser.buf.drop (parser.buf.length - keep)
          discarded := discarded }, [], false)
    else .ok (parser, [], false)

/-- `_after_delimiter`. -/
def afterDelimiter : Except MultipartError Stepped :=
  if parser.buf.take 2 = dashes then
    .ok ({ parser with phase := .epilogue, buf := [] }, [.formEnd], false)
  else
    match find crlf parser.buf with
    | none =>
      -- Blanks, a lone dash or a trailing CR may be waiting.
      let pending := parser.buf.rdropWhile (· = 13)
      if maxPendingLine < parser.buf.length ∨ (pending ≠ [45] ∧ stripBy isBlank pending ≠ []) then
        .error ⟨"a boundary is not followed by a line break"⟩
      else .ok (parser, [], false)
    | some stop =>
      if stripBy isBlank (parser.buf.take stop) ≠ [] then
        .error ⟨"a boundary is not followed by a line break"⟩
      else .ok ({ parser with buf := parser.buf.drop (stop + 2), phase := .headers }, [], true)

/-- The end of `_headers`: the part starts. -/
def startPart (blob : Bytes) (consumed : ℕ) : Stepped :=
  let part := partStart blob
  ({ parser with
      buf := parser.buf.drop consumed
      isFile := part.filename.isSome
      partBytes := 0
      phase := .content }, [.start part], true)

/-- `_headers`. -/
def headers : Except MultipartError Stepped :=
  if crlf <+: parser.buf then .ok (parser.startPart [] 2)
  else
    match find blankLine parser.buf with
    | none =>
      if maxPartHeaderBytes < parser.buf.length then
        .error ⟨"a multipart part header is too large"⟩
      else .ok (parser, [], false)
    | some stop =>
      if maxPartHeaderBytes < stop then .error ⟨"a multipart part header is too large"⟩
      else .ok (parser.startPart (parser.buf.take stop) (stop + 4))

/-- `_emit`. -/
def emit (data : Bytes) : Except MultipartError (MultipartParser × List MultipartEvent) :=
  if data = [] then .ok (parser, [])
  else if parser.isFile = false ∧ maxFieldBytes < parser.partBytes + data.length then
    .error ⟨"a multipart text field is too large"⟩
  else .ok ({ parser with partBytes := parser.partBytes + data.length }, [.data data])

/-- `_content`. -/
def content : Except MultipartError Stepped :=
  match find parser.delimiter parser.buf with
  | some index =>
    match parser.emit (parser.buf.take index) with
    | .error error => .error error
    | .ok (emitted, events) =>
      .ok ({ emitted with
        buf := parser.buf.drop (index + parser.delimiter.length)
        phase := .afterDelimiter }, events ++ [.partEnd], true)
  | none =>
    -- The tail could still be the start of a delimiter.
    let safe := parser.buf.length - (parser.delimiter.length - 1)
    if 0 < safe then
      match parser.emit (parser.buf.take safe) with
      | .error error => .error error
      | .ok (emitted, events) =>
        .ok ({ emitted with buf := parser.buf.drop safe }, events, false)
    else .ok (parser, [], false)

/-- `_step`. -/
def step : Except MultipartError Stepped :=
  match parser.phase with
  | .preamble => parser.preamble
  | .afterDelimiter => parser.afterDelimiter
  | .headers => parser.headers
  | _ => parser.content

/-- The loop of `feed`. -/
def drain : ℕ → MultipartParser → Except MultipartError (MultipartParser × List MultipartEvent)
  | 0, parser => .ok (parser, [])
  | fuel + 1, parser =>
    match parser.step with
    | .error error => .error error
    | .ok (next, events, false) => .ok (next, events)
    | .ok (next, events, true) =>
      match drain fuel next with
      | .error error => .error error
      | .ok (last, later) => .ok (last, events ++ later)

/-- `feed`. -/
def feed (chunk : Bytes) : Except MultipartError (MultipartParser × List MultipartEvent) :=
  if parser.phase = .epilogue then .ok (parser, [])
  else
    let fed := { parser with buf := parser.buf ++ chunk }
    drain (fed.buf.length + 1) fed

/-- `feed` of chunk after chunk. -/
def feedAll : MultipartParser → List Bytes →
    Except MultipartError (MultipartParser × List MultipartEvent)
  | parser, [] => .ok (parser, [])
  | parser, chunk :: chunks =>
    match parser.feed chunk with
    | .error error => .error error
    | .ok (next, events) =>
      match feedAll next chunks with
      | .error error => .error error
      | .ok (last, later) => .ok (last, events ++ later)

/-- `finish`. -/
def finish : Except MultipartError Unit :=
  if parser.phase = .epilogue then .ok ()
  else .error ⟨"the multipart body ended before its closing boundary"⟩

end MultipartParser

/-- Feeds the chunks of a body and finishes. -/
def parse (boundary : Bytes) (chunks : List Bytes) : Except MultipartError (List MultipartEvent) :=
  match (MultipartParser.init boundary).feedAll chunks with
  | .error error => .error error
  | .ok (last, events) =>
    match last.finish with
    | .error error => .error error
    | .ok () => .ok events

open MultipartParser (drain)

/-! ## What a step does -/

/-- The events of a content in one piece. -/
def emitted (content : Bytes) : List MultipartEvent :=
  if content = [] then [] else [.data content]

/-- The parser at the content of a part. -/
def MultipartParser.inPart (parser : MultipartParser) (part : PartStart) (post : Bytes) :
    MultipartParser :=
  { parser with
    buf := post
    isFile := part.filename.isSome
    partBytes := 0
    phase := .content }

/-- The field of a parser stays within its limit with this data. -/
def MultipartParser.Fits (parser : MultipartParser) (data : Bytes) : Prop :=
  parser.isFile = false → data ≠ [] → parser.partBytes + data.length ≤ maxFieldBytes

/-- The most that is kept between two feeds. -/
def maxRetained (delimiter : Bytes) : ℕ :=
  max (max (delimiter.length - 1) maxPartHeaderBytes) maxPendingLine

/-- What a step is that does not raise, by what it finds in the buffer. -/
inductive Moves (parser : MultipartParser) :
    MultipartParser → List MultipartEvent → Bool → Prop
  | first {pre post : Bytes} (hPhase : parser.phase = .preamble)
      (hFirst : FirstAt parser.delimiter pre)
      (hBuf : parser.buf = pre ++ (parser.delimiter ++ post)) :
      Moves parser { parser with buf := post, phase := .afterDelimiter } [] true
  | discard (hPhase : parser.phase = .preamble) (hFind : find parser.delimiter parser.buf = none)
      (hSpare : 0 < spare parser.delimiter parser.buf) :
      Moves parser { parser with
        buf := parser.buf.drop (spare parser.delimiter parser.buf)
        discarded := parser.discarded + spare parser.delimiter parser.buf } [] false
  | close {post : Bytes} (hPhase : parser.phase = .afterDelimiter)
      (hBuf : parser.buf = dashes ++ post) :
      Moves parser { parser with phase := .epilogue, buf := [] } [.formEnd] false
  | line {padding post : Bytes} (hPhase : parser.phase = .afterDelimiter)
      (hBlank : ∀ byte ∈ padding, isBlank byte = true)
      (hBuf : parser.buf = padding ++ (crlf ++ post)) :
      Moves parser { parser with buf := post, phase := .headers } [] true
  | noHeaders {post : Bytes} (hPhase : parser.phase = .headers)
      (hBuf : parser.buf = crlf ++ post) :
      Moves parser (parser.inPart (partStart []) post) [.start (partStart [])] true
  | headers {blob post : Bytes} (hPhase : parser.phase = .headers)
      (hStart : ¬crlf <+: blob ++ blankLine) (hFirst : FirstAt blankLine blob)
      (hLimit : blob.length ≤ maxPartHeaderBytes)
      (hBuf : parser.buf = blob ++ (blankLine ++ post)) :
      Moves parser (parser.inPart (partStart blob) post) [.start (partStart blob)] true
  | content {content post : Bytes} (hPhase : parser.phase ≠ .epilogue → parser.phase = .content)
      (hFirst : FirstAt parser.delimiter content) (hField : parser.Fits content)
      (hBuf : parser.buf = content ++ (parser.delimiter ++ post)) :
      Moves parser { parser with
        partBytes := parser.partBytes + content.length
        buf := post
        phase := .afterDelimiter } (emitted content ++ [.partEnd]) true
  | emit {data : Bytes} (hPhase : parser.phase ≠ .epilogue → parser.phase = .content)
      (hFind : find parser.delimiter parser.buf = none)
      (hSpare : 0 < spare parser.delimiter parser.buf)
      (hData : data = parser.buf.take (spare parser.delimiter parser.buf))
      (hField : parser.Fits data) :
      Moves parser { parser with
        partBytes := parser.partBytes + data.length
        buf := parser.buf.drop (spare parser.delimiter parser.buf) } (emitted data) false
  | wait (hShort : parser.buf.length ≤ maxRetained parser.delimiter) : Moves parser parser [] false

section Progress

variable {parser next : MultipartParser} {out : List MultipartEvent} {progress : Bool}
  {needle pre post : Bytes}

theorem drop_found (hBuf : parser.buf = pre ++ (needle ++ post)) :
    parser.buf.drop (pre.length + needle.length) = post := by
  rw [hBuf, ← List.append_assoc, ← List.length_append, List.drop_left]

theorem take_found (hBuf : parser.buf = pre ++ (needle ++ post)) :
    parser.buf.take pre.length = pre := by
  rw [hBuf, List.take_left]

theorem blank_of_stripBy {text : Bytes} (hStrip : stripBy isBlank text = []) :
    ∀ byte ∈ text, isBlank byte = true := by
  unfold stripBy at hStrip
  rw [List.rdropWhile_eq_nil_iff] at hStrip
  have hDrop : text.dropWhile isBlank = [] := by
    by_contra hNe
    have hHead := List.head_dropWhile_not isBlank hNe
    rw [hStrip _ (List.head_mem hNe)] at hHead
    cases hHead
  exact List.dropWhile_eq_nil_iff.mp hDrop

theorem emit_eq_ok {data : Bytes} (hField : parser.Fits data) :
    parser.emit data =
      .ok ({ parser with partBytes := parser.partBytes + data.length }, emitted data) := by
  unfold MultipartParser.emit emitted
  by_cases hNil : data = []
  · rw [if_pos hNil, if_pos hNil, hNil]
    rfl
  · rw [if_neg hNil, if_neg hNil, if_neg]
    rintro ⟨hText, hLong⟩
    have hLimit := hField hText hNil
    omega

theorem emit_spec {data : Bytes} (hEmit : parser.emit data = .ok (next, out)) :
    next = { parser with partBytes := parser.partBytes + data.length } ∧ out = emitted data ∧
      parser.Fits data := by
  have hField : parser.Fits data := by
    intro hText hNe
    unfold MultipartParser.emit at hEmit
    rw [if_neg hNe] at hEmit
    split at hEmit
    next => cases hEmit
    next hNot => exact Nat.le_of_not_lt fun hLong => hNot ⟨hText, hLong⟩
  rw [emit_eq_ok hField] at hEmit
  cases hEmit
  exact ⟨rfl, rfl, hField⟩

theorem moves_of_preamble (hPhase : parser.phase = .preamble)
    (hStep : parser.preamble = .ok (next, out, progress)) : Moves parser next out progress := by
  unfold MultipartParser.preamble at hStep
  split at hStep
  next index hFind =>
    cases hStep
    obtain ⟨pre, post, hBuf, rfl, hFirst⟩ := exists_of_find hFind
    rw [drop_found hBuf]
    exact .first hPhase hFirst hBuf
  next hFind =>
    dsimp only at hStep
    split at hStep
    next hLong =>
      split at hStep
      next => cases hStep
      next =>
        cases hStep
        exact .discard hPhase hFind (Nat.sub_pos_of_lt hLong)
    next hShort =>
      cases hStep
      exact .wait (by unfold maxRetained; omega)

theorem moves_of_afterDelimiter (hPhase : parser.phase = .afterDelimiter)
    (hStep : parser.afterDelimiter = .ok (next, out, progress)) :
    Moves parser next out progress := by
  unfold MultipartParser.afterDelimiter at hStep
  split at hStep
  next hDashes =>
    cases hStep
    have hBuf := List.take_append_drop 2 parser.buf
    rw [hDashes] at hBuf
    exact .close hPhase hBuf.symm
  next =>
    split at hStep
    next =>
      dsimp only at hStep
      split at hStep
      next => cases hStep
      next hWaits =>
        cases hStep
        have hShort := (not_or.mp hWaits).1
        exact .wait (by unfold maxRetained; omega)
    -- The line was refused unless it is blank.
    next stop hFind =>
      split at hStep
      next => cases hStep
      next hStrip =>
        cases hStep
        obtain ⟨padding, post, hBuf, rfl, -⟩ := exists_of_find hFind
        have hDrop : parser.buf.drop (padding.length + 2) = post := drop_found hBuf
        rw [take_found hBuf] at hStrip
        rw [hDrop]
        exact .line hPhase (blank_of_stripBy (not_not.mp hStrip)) hBuf

theorem moves_of_headers (hPhase : parser.phase = .headers)
    (hStep : parser.headers = .ok (next, out, progress)) : Moves parser next out progress := by
  unfold MultipartParser.headers at hStep
  split at hStep
  next hCrlf =>
    cases hStep
    obtain ⟨post, hBuf⟩ := hCrlf
    have hDrop : parser.buf.drop 2 = post := by
      rw [← hBuf]
      rfl
    rw [hDrop]
    exact .noHeaders hPhase hBuf.symm
  next hNot =>
    split at hStep
    next =>
      split at hStep
      next => cases hStep
      next hShort =>
        cases hStep
        exact .wait (by unfold maxRetained; omega)
    next stop hFind =>
      split at hStep
      next => cases hStep
      -- The headers were refused if they are too long.
      next hShort =>
        cases hStep
        obtain ⟨blob, post, hBuf, rfl, hFirst⟩ := exists_of_find hFind
        have hDrop : parser.buf.drop (blob.length + 4) = post := drop_found hBuf
        rw [take_found hBuf, hDrop]
        refine .headers hPhase ?_ hFirst (Nat.le_of_not_lt hShort) hBuf
        intro hStart
        apply hNot
        rw [hBuf, ← List.append_assoc]
        exact hStart.trans (List.prefix_append _ _)

theorem moves_of_content (hPhase : parser.phase ≠ .epilogue → parser.phase = .content)
    (hStep : parser.content = .ok (next, out, progress)) : Moves parser next out progress := by
  unfold MultipartParser.content at hStep
  split at hStep
  next index hFind =>
    split at hStep
    next => cases hStep
    next hEmit =>
      cases hStep
      obtain ⟨rfl, rfl, hField⟩ := emit_spec hEmit
      obtain ⟨content, post, hBuf, rfl, hFirst⟩ := exists_of_find hFind
      rw [take_found hBuf] at hField ⊢
      rw [drop_found hBuf]
      exact .content hPhase hFirst hField hBuf
  next hFind =>
    dsimp only at hStep
    split at hStep
    next hSafe =>
      split at hStep
      next => cases hStep
      next hEmit =>
        cases hStep
        obtain ⟨rfl, rfl, hField⟩ := emit_spec hEmit
        exact .emit hPhase hFind hSafe rfl hField
    next =>
      cases hStep
      exact .wait (by unfold maxRetained; omega)

theorem moves_of_step (hStep : parser.step = .ok (next, out, progress)) :
    Moves parser next out progress := by
  unfold MultipartParser.step at hStep
  cases hAt : parser.phase with rw [hAt] at hStep
  | preamble => exact moves_of_preamble hAt hStep
  | afterDelimiter => exact moves_of_afterDelimiter hAt hStep
  | headers => exact moves_of_headers hAt hStep
  | content => exact moves_of_content (fun _ => hAt) hStep
  | epilogue => exact moves_of_content (fun hNot => absurd hAt hNot) hStep

/-! ## Progress -/

/-- What every step keeps, and what a step with progress does. -/
structure Advances (parser next : MultipartParser) (progress : Bool) : Prop where
  delimiter : next.delimiter = parser.delimiter
  shorter : progress = true → next.buf.length < parser.buf.length
  phase : progress = true → next.phase ≠ .epilogue

theorem Advances.waits (hDelimiter : next.delimiter = parser.delimiter) :
    Advances parser next false := by
  refine ⟨hDelimiter, ?_, ?_⟩
  · intro hProgress
    cases hProgress
  · intro hProgress
    cases hProgress

theorem Advances.found (hDelimiter : next.delimiter = parser.delimiter)
    (hBuf : parser.buf = pre ++ (needle ++ next.buf)) (hNeedle : 0 < needle.length)
    (hPhase : next.phase ≠ .epilogue) : Advances parser next true := by
  refine ⟨hDelimiter, fun _ => ?_, fun _ => hPhase⟩
  rw [hBuf, List.length_append, List.length_append]
  omega

theorem step_advances (hStep : parser.step = .ok (next, out, progress)) :
    Advances parser next progress := by
  cases moves_of_step hStep with
  | discard | close | emit | wait => exact .waits rfl
  | first _ _ hBuf => exact .found rfl hBuf parser.delimited nofun
  | line _ _ hBuf => exact .found rfl hBuf (by decide) nofun
  | noHeaders _ hBuf => exact .found rfl (hBuf.trans (List.nil_append _).symm) (by decide) nofun
  | headers _ _ _ _ hBuf => exact .found rfl hBuf (by decide) nofun
  | content _ _ _ hBuf => exact .found rfl hBuf parser.delimited nofun

end Progress

/-! ## The loop of `feed` -/

/-- The loop of `feed`, as far as it goes: it ends with a step that raises, or with one that makes
no progress. -/
inductive Loop :
    MultipartParser → Except MultipartError (MultipartParser × List MultipartEvent) → Prop
  | raises {parser : MultipartParser} {error : MultipartError}
      (hStep : parser.step = .error error) : Loop parser (.error error)
  | rests {parser next : MultipartParser} {events : List MultipartEvent}
      (hStep : parser.step = .ok (next, events, false)) : Loop parser (.ok (next, events))
  | goesOn {parser next : MultipartParser} {events : List MultipartEvent}
      {result : Except MultipartError (MultipartParser × List MultipartEvent)}
      (hStep : parser.step = .ok (next, events, true)) (hLoop : Loop next result) :
      Loop parser (result.map fun (last, later) => (last, events ++ later))

section Loop

variable {parser : MultipartParser} {fuel : ℕ}
  {result other : Except MultipartError (MultipartParser × List MultipartEvent)}

theorem loop_drain (hFuel : parser.buf.length < fuel) : Loop parser (drain fuel parser) := by
  induction fuel generalizing parser with
  | zero => exact absurd hFuel (Nat.not_lt_zero _)
  | succ fuel ih =>
    rw [drain]
    split
    next hStep => exact .raises hStep
    next hStep => exact .rests hStep
    next next events hStep =>
      have hShorter := (step_advances hStep).shorter rfl
      have hLoop := Loop.goesOn hStep (ih (by omega))
      cases hRest : drain fuel next with rw [hRest] at hLoop
      | error | ok => exact hLoop

theorem Loop.eq_drain (hLoop : Loop parser result) (hFuel : parser.buf.length < fuel) :
    drain fuel parser = result := by
  induction hLoop generalizing fuel with obtain ⟨fuel, rfl⟩ := Nat.exists_eq_add_of_lt hFuel
  | raises hStep | rests hStep => rw [drain, hStep]
  | @goesOn parser next events result hStep _ ih =>
    have hShorter := (step_advances hStep).shorter rfl
    rw [drain, hStep]
    dsimp only
    rw [ih (by omega)]
    cases result with
    | error | ok => rfl

theorem Loop.unique (hLoop : Loop parser result) (hOther : Loop parser other) : result = other := by
  rw [← hLoop.eq_drain (Nat.lt_succ_self _), hOther.eq_drain (Nat.lt_succ_self _)]

theorem loop_feed (chunk : Bytes) (hPhase : parser.phase ≠ .epilogue) :
    Loop { parser with buf := parser.buf ++ chunk } (parser.feed chunk) := by
  unfold MultipartParser.feed
  rw [if_neg hPhase]
  exact loop_drain (Nat.lt_succ_self _)

end Loop

/-! ## What a feed keeps -/

/-- The states of a parser.  A feed that raises leaves it in some state before the epilogue. -/
inductive Reached (boundary : Bytes) : MultipartParser → Prop
  | init : Reached boundary (.init boundary)
  | fed {parser next : MultipartParser} {chunk : Bytes} {out : List MultipartEvent}
      (hReached : Reached boundary parser) (hFeed : parser.feed chunk = .ok (next, out)) :
      Reached boundary next
  | raised {parser next : MultipartParser} (hReached : Reached boundary parser)
      (hDelimiter : next.delimiter = parser.delimiter) (hPhase : next.phase ≠ .epilogue) :
      Reached boundary next

/-- The delimiter is as it was, and the buffer within the bound and empty behind the closing
delimiter. -/
structure Kept (delimiter : Bytes) (next : MultipartParser) : Prop where
  same : next.delimiter = delimiter
  length : next.buf.length ≤ maxRetained delimiter
  ended : next.phase = .epilogue → next.buf = []

section Buffer

variable {parser next : MultipartParser} {out : List MultipartEvent} {boundary : Bytes}

theorem step_kept (hPhase : parser.phase ≠ .epilogue)
    (hStep : parser.step = .ok (next, out, false)) : Kept parser.delimiter next := by
  cases moves_of_step hStep with
  | discard | emit =>
    refine ⟨rfl, ?_, fun hEnd => absurd hEnd hPhase⟩
    rw [List.length_drop, spare, maxRetained]
    omega
  | close => exact ⟨rfl, Nat.zero_le _, fun _ => rfl⟩
  | wait hShort => exact ⟨rfl, hShort, fun hEnd => absurd hEnd hPhase⟩

theorem Loop.kept {result : Except MultipartError (MultipartParser × List MultipartEvent)}
    (hLoop : Loop parser result) (hPhase : parser.phase ≠ .epilogue)
    {last : MultipartParser × List MultipartEvent} (hResult : result = .ok last) :
    Kept parser.delimiter last.1 := by
  induction hLoop generalizing last with
  | raises => cases hResult
  | rests hStep =>
    cases hResult
    exact step_kept hPhase hStep
  | @goesOn parser next events result hStep _ ih =>
    have hNext := step_advances hStep
    cases result with
    | error => cases hResult
    | ok rest =>
      cases hResult
      have hRest : Kept next.delimiter rest.1 := ih (hNext.phase rfl) rfl
      rw [← hNext.delimiter]
      exact hRest

theorem feed_kept {chunk : Bytes} (hEnded : parser.phase = .epilogue → parser.buf = [])
    (hFeed : parser.feed chunk = .ok (next, out)) : Kept parser.delimiter next := by
  by_cases hPhase : parser.phase = .epilogue
  · rw [MultipartParser.feed, if_pos hPhase] at hFeed
    cases hFeed
    refine ⟨rfl, ?_, hEnded⟩
    rw [hEnded hPhase]
    exact Nat.zero_le _
  · exact (loop_feed chunk hPhase).kept hPhase hFeed

theorem Reached.sound (hReached : Reached boundary parser) :
    parser.delimiter = delimiterOf boundary ∧ (parser.phase = .epilogue → parser.buf = []) := by
  induction hReached with
  | init => exact ⟨rfl, nofun⟩
  | fed _ hFeed ih =>
    have hKept := feed_kept ih.2 hFeed
    exact ⟨hKept.same.trans ih.1, hKept.ended⟩
  | raised _ hDelimiter hPhase ih => exact ⟨hDelimiter.trans ih.1, fun hEnd => absurd hEnd hPhase⟩

/-- In every state of a parser and for every chunk the loop of `feed` ends, and what a feed that
does not raise keeps in memory does not grow with the body. -/
theorem feed_bounded (hReached : Reached boundary parser) (chunk : Bytes) :
    (parser.phase ≠ .epilogue →
      Loop { parser with buf := parser.buf ++ chunk } (parser.feed chunk)) ∧
    ∀ next out, parser.feed chunk = .ok (next, out) →
      next.buf.length ≤ maxRetained (delimiterOf boundary) := by
  obtain ⟨hSame, hEnded⟩ := hReached.sound
  rw [← hSame]
  exact ⟨loop_feed chunk, fun next out hFeed => (feed_kept hEnded hFeed).length⟩

/-- A blank behind the first delimiter waits for its line break. -/
theorem feed_bounded_init : ∃ next out,
    (MultipartParser.init [66]).feed [13, 10, 45, 45, 66, 32] = .ok (next, out) ∧
      next.buf = [32] ∧ next.buf.length ≤ maxRetained (delimiterOf [66]) := by
  obtain ⟨result, hFeed, hBuf⟩ : ∃ result : MultipartParser × List MultipartEvent,
      (MultipartParser.init [66]).feed [13, 10, 45, 45, 66, 32] = .ok result ∧
        result.1.buf = [32] :=
    ⟨_, rfl, rfl⟩
  exact ⟨result.1, result.2, hFeed, hBuf, (feed_bounded .init _).2 _ _ hFeed⟩

end Buffer

/-! ## Adjacent data -/

/-- The events with adjacent `PartData` concatenated. -/
def concatData : List MultipartEvent → List MultipartEvent
  | [] => []
  | .data content :: events =>
    match concatData events with
    | .data more :: later => .data (content ++ more) :: later
    | later => .data content :: later
  | event :: events => event :: concatData events

theorem concatData_append {events later other : List MultipartEvent}
    (hLater : concatData later = concatData other) :
    concatData (events ++ later) = concatData (events ++ other) := by
  induction events with
  | nil => exact hLater
  | cons event events ih =>
    cases event with
    | data content =>
      rw [List.cons_append, List.cons_append, concatData, concatData, ih]
    | start part => exact congrArg (MultipartEvent.start part :: ·) ih
    | partEnd => exact congrArg (MultipartEvent.partEnd :: ·) ih
    | formEnd => exact congrArg (MultipartEvent.formEnd :: ·) ih

theorem concatData_data (first second : Bytes) (events : List MultipartEvent) :
    concatData (.data first :: .data second :: events) =
      concatData (.data (first ++ second) :: events) := by
  rw [concatData, concatData, concatData]
  cases concatData events with
  | nil => rfl
  | cons event later =>
    cases event with
    | data content => simp only [List.append_assoc]
    | start | partEnd | formEnd => rfl

end TimelapseManager.Web.Multipart
