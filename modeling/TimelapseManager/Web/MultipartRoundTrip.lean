import TimelapseManager.Web.MultipartCuts

/-!
# Reading back what was encoded

`encode` writes a list of parts in the multipart/form-data form; `expected` are the events
that give the parts back.

* `partStart_header`: the header block of a part is read back to its name, its file name and
  its content type.
* `layout_tail` and `of_layout_tail`: the encoding has the layout with the expected events
  exactly if the header blocks are within the limit and no content is closed early.
-/

namespace TimelapseManager.Web.Multipart

open Occurrence

/-! ## Texts -/

variable {byte first : UInt8}

section Texts

variable {separator pre post text : Bytes}

theorem splitWithin_eq_singleton (hFind : find separator text = none) (fuel : ℕ) :
    splitWithin separator fuel text = [text] := by
  cases fuel with
  | zero => rfl
  | succ fuel => rw [splitWithin, hFind]

theorem split_eq_singleton (hFind : find separator text = none) : split separator text = [text] :=
  splitWithin_eq_singleton hFind _

theorem splitWithin_fuel {fuel more : ℕ} (hSeparator : 0 < separator.length)
    (hFuel : text.length ≤ fuel) (hMore : text.length ≤ more) :
    splitWithin separator fuel text = splitWithin separator more text := by
  induction fuel generalizing text more with
  | zero =>
    have hFind : find separator text = none := by
      rw [List.eq_nil_of_length_eq_zero (Nat.le_zero.mp hFuel), find,
        if_neg (List.ne_nil_of_length_pos hSeparator)]
    rw [splitWithin_eq_singleton hFind, splitWithin_eq_singleton hFind]
  | succ fuel ih =>
    cases hFind : find separator text with
    | none => rw [splitWithin_eq_singleton hFind, splitWithin_eq_singleton hFind]
    | some index =>
      have hLength := length_of_find hFind
      obtain ⟨more, rfl⟩ := Nat.exists_eq_add_one.mpr (show 0 < more by omega)
      rw [splitWithin, splitWithin, hFind]
      refine congrArg _ (ih ?_ ?_) <;> rw [List.length_drop] <;> omega

theorem split_append (hSeparator : 0 < separator.length) (hFirst : FirstAt separator pre) :
    split separator (pre ++ (separator ++ post)) = pre :: split separator post := by
  have hDrop : (pre ++ (separator ++ post)).drop (pre.length + separator.length) = post := by
    rw [← List.append_assoc, ← List.length_append, List.drop_left]
  obtain ⟨fuel, hFuel⟩ : ∃ fuel, (pre ++ (separator ++ post)).length = fuel + 1 := by
    refine Nat.exists_eq_succ_of_ne_zero ?_
    simp only [List.length_append]
    omega
  unfold split
  rw [hFuel, splitWithin, find_of_firstAt pre post hFirst]
  dsimp only
  rw [List.take_left, hDrop]
  congr 1
  apply splitWithin_fuel hSeparator _ (Nat.le_refl _)
  simp only [List.length_append] at hFuel
  omega

theorem partition_append (hPre : byte ∉ pre) :
    partition byte (pre ++ byte :: post) = (pre, post) := by
  have hBefore : ∀ entry ∈ pre, decide (entry ≠ byte) = true := by
    intro entry hMem
    exact decide_eq_true fun hSame => hPre (hSame ▸ hMem)
  unfold partition
  rw [List.takeWhile_append_of_pos hBefore, List.dropWhile_append_of_pos hBefore]
  simp

variable {drop : UInt8 → Bool}

theorem stripBy_cons (hDrop : drop byte = true) :
    stripBy drop (byte :: text) = stripBy drop text := by
  unfold stripBy
  rw [List.dropWhile_cons_of_pos hDrop]

theorem stripBy_of_ends {last : UInt8} (hFirst : drop first = false) (hLast : drop last = false) :
    stripBy drop (first :: (text ++ [last])) = first :: (text ++ [last]) := by
  unfold stripBy
  rw [List.dropWhile_cons_of_neg (by rw [hFirst]; exact Bool.noConfusion), ← List.cons_append,
    List.rdropWhile_concat_neg _ _ _ (by rw [hLast]; exact Bool.noConfusion)]

theorem stripBy_between {last : UInt8} (hFirst : drop first = true) (hLast : drop last = true)
    (hText : ∀ byte ∈ text, drop byte = false) :
    stripBy drop (first :: (text ++ [last])) = text := by
  rw [stripBy_cons hFirst]
  unfold stripBy
  cases text with
  | nil =>
    rw [List.nil_append, List.dropWhile_cons_of_pos hLast]
    rfl
  | cons byte text =>
    have hHead : ¬drop byte = true := by
      rw [hText byte List.mem_cons_self]
      exact Bool.noConfusion
    rw [List.cons_append, List.dropWhile_cons_of_neg hHead, ← List.cons_append,
      List.rdropWhile_concat_pos _ _ _ hLast, List.rdropWhile_eq_self_iff]
    intro hNe
    rw [hText _ (List.getLast_mem hNe)]
    exact Bool.noConfusion

end Texts

/-! ## The header block of a part -/

/-- A name that can stand between quotes in a parameter. -/
def Plain (text : Bytes) : Prop :=
  ∀ byte ∈ text, byte ≠ 34 ∧ byte ≠ 59 ∧ byte ≠ 13 ∧ byte ≠ 10

instance (text : Bytes) : Decidable (Plain text) :=
  inferInstanceAs (Decidable (∀ byte ∈ text, _))

/-- A part of a form, its names and its content type as the texts of its header block. -/
structure FormPart where
  name : Bytes
  filename : Option Bytes
  contentType : Option Bytes
  content : Bytes
  plainName : Plain name
  plainFilename : ∀ file ∈ filename, Plain file
  oneLine : ∀ media ∈ contentType, 13 ∉ media ∧ 10 ∉ media

/-- A parameter of a disposition. -/
def parameter (key value : Bytes) : Bytes :=
  32 :: (key ++ 61 :: 34 :: (value ++ [34]))

/-- The line of a content type. -/
def mediaLine (media : Bytes) : Bytes :=
  ascii "Content-Type" ++ 58 :: 32 :: media

namespace FormPart

variable (part : FormPart)

def disposition : Bytes :=
  ascii "form-data" ++ ([59] ++ (parameter (ascii "name") part.name ++
    match part.filename with
    | none => []
    | some file => [59] ++ parameter (ascii "filename") file))

def dispositionLine : Bytes :=
  ascii "Content-Disposition" ++ 58 :: 32 :: part.disposition

def header : Bytes :=
  part.dispositionLine ++
    match part.contentType with
    | none => []
    | some media => crlf ++ mediaLine media

/-- The part as its header block announces it. -/
def start : PartStart where
  name := part.name
  filename := part.filename
  contentType := (part.contentType.map strip).getD (ascii "application/octet-stream")

end FormPart

section Header

variable {part : FormPart}

variable {key value text : Bytes}

theorem strip_parameter (hFirst : isSpace first = false) :
    strip (parameter (first :: key) value) = first :: key ++ 61 :: 34 :: (value ++ [34]) := by
  have hText : first :: key ++ 61 :: 34 :: (value ++ [34]) =
      first :: ((key ++ 61 :: 34 :: value) ++ [34]) := by
    simp only [List.cons_append, List.append_assoc]
  unfold strip parameter
  rw [stripBy_cons (by decide), hText, stripBy_of_ends hFirst (by decide)]

theorem partition_parameter (hFirst : isSpace first = false) (hKey : 61 ∉ first :: key) :
    partition 61 (strip (parameter (first :: key) value)) =
      (first :: key, 34 :: (value ++ [34])) := by
  rw [strip_parameter hFirst, partition_append hKey]

theorem strip_quoted (hValue : (34 : UInt8) ∉ value) :
    stripBy (· = 34) (strip (34 :: (value ++ [34]))) = value := by
  have hNoQuote : ∀ byte ∈ value, decide (byte = 34) = false := by
    intro byte hMem
    exact decide_eq_false fun hQuote => hValue (hQuote ▸ hMem)
  unfold strip
  rw [stripBy_of_ends (by decide) (by decide)]
  exact stripBy_between rfl rfl hNoQuote

theorem Plain.not_mem_quote (hPlain : Plain text) : (34 : UInt8) ∉ text :=
  fun hMem => (hPlain 34 hMem).1 rfl

theorem Plain.not_mem_semicolon (hPlain : Plain text) : (59 : UInt8) ∉ text :=
  fun hMem => (hPlain 59 hMem).2.1 rfl

theorem Plain.not_mem_cr (hPlain : Plain text) : (13 : UInt8) ∉ text :=
  fun hMem => (hPlain 13 hMem).2.2.1 rfl

theorem not_mem_parameter (hKey : byte ∉ key) (hValue : byte ∉ value)
    (hOther : byte ≠ 32 ∧ byte ≠ 61 ∧ byte ≠ 34) : byte ∉ parameter key value := by
  unfold parameter
  simp only [List.mem_cons, List.mem_append, List.not_mem_nil, or_false, not_or]
  exact ⟨hOther.1, hKey, hOther.2.1, hOther.2.2, hValue, hOther.2.2⟩

theorem split_disposition (part : FormPart) :
    split [59] part.disposition =
      ascii "form-data" :: parameter (ascii "name") part.name ::
        (part.filename.map (parameter (ascii "filename"))).toList := by
  have hName : (59 : UInt8) ∉ parameter (ascii "name") part.name :=
    not_mem_parameter (by decide) part.plainName.not_mem_semicolon (by decide)
  unfold FormPart.disposition
  rw [split_append (by decide) (firstAt_of_not_mem (by decide))]
  congr 1
  cases hFile : part.filename with
  | none =>
    rw [List.append_nil, split_eq_singleton (find_eq_none_of_not_mem hName)]
    rfl
  | some file =>
    have hFilename : (59 : UInt8) ∉ parameter (ascii "filename") file :=
      not_mem_parameter (by decide) (part.plainFilename file hFile).not_mem_semicolon (by decide)
    rw [split_append (by decide) (firstAt_of_not_mem hName),
      split_eq_singleton (find_eq_none_of_not_mem hFilename)]
    rfl

theorem partition_name (value : Bytes) :
    partition 61 (strip (parameter (ascii "name") value)) = (ascii "name", 34 :: (value ++ [34])) :=
  partition_parameter (by decide) (by decide)

theorem partition_filename (value : Bytes) :
    partition 61 (strip (parameter (ascii "filename") value)) =
      (ascii "filename", 34 :: (value ++ [34])) :=
  partition_parameter (by decide) (by decide)

theorem partition_formData :
    partition 61 (strip (ascii "form-data")) = (ascii "form-data", []) := by
  decide

theorem dispositionParam_name (part : FormPart) :
    dispositionParam part.disposition (ascii "name") = some part.name := by
  have hFormData : (strip (ascii "form-data")).map lower ≠ ascii "name" := by decide
  have hName : (strip (ascii "name")).map lower = ascii "name" := by decide
  unfold dispositionParam
  rw [split_disposition, List.findSome?_cons, partition_formData]
  dsimp only
  rw [if_neg hFormData, List.findSome?_cons, partition_name]
  rw [if_pos hName, strip_quoted part.plainName.not_mem_quote]

theorem dispositionParam_filename (part : FormPart) :
    dispositionParam part.disposition (ascii "filename") = part.filename := by
  have hFormData : (strip (ascii "form-data")).map lower ≠ ascii "filename" := by decide
  have hName : (strip (ascii "name")).map lower ≠ ascii "filename" := by decide
  have hFilename : (strip (ascii "filename")).map lower = ascii "filename" := by decide
  unfold dispositionParam
  rw [split_disposition, List.findSome?_cons, partition_formData]
  dsimp only
  rw [if_neg hFormData, List.findSome?_cons, partition_name]
  rw [if_neg hName]
  cases hFile : part.filename with
  | none => rfl
  | some file =>
    rw [Option.map_some, Option.toList_some, List.findSome?_cons, partition_filename]
    rw [if_pos hFilename, strip_quoted (part.plainFilename file hFile).not_mem_quote]

theorem disposition_ends (part : FormPart) :
    ∃ middle, part.disposition = 102 :: (middle ++ [34]) := by
  unfold FormPart.disposition parameter
  cases part.filename with
  | none =>
    refine ⟨ascii "orm-data" ++ ([59] ++ 32 :: (ascii "name" ++ 61 :: 34 :: part.name)), ?_⟩
    simp [ascii]
  | some file =>
    refine ⟨ascii "orm-data" ++ ([59] ++
      (32 :: (ascii "name" ++ 61 :: 34 :: (part.name ++ [34])) ++
        ([59] ++ 32 :: (ascii "filename" ++ 61 :: 34 :: file)))), ?_⟩
    simp [ascii]

theorem strip_disposition (part : FormPart) :
    strip (32 :: part.disposition) = part.disposition := by
  obtain ⟨middle, hMiddle⟩ := disposition_ends part
  unfold strip
  rw [stripBy_cons (by decide), hMiddle, stripBy_of_ends (by decide) (by decide)]

theorem not_mem_dispositionLine (part : FormPart) : (13 : UInt8) ∉ part.dispositionLine := by
  have hName : (13 : UInt8) ∉ parameter (ascii "name") part.name :=
    not_mem_parameter (by decide) part.plainName.not_mem_cr (by decide)
  have hFile : (13 : UInt8) ∉ (match part.filename with
      | none => []
      | some file => [59] ++ parameter (ascii "filename") file) := by
    cases hSome : part.filename with
    | none => exact List.not_mem_nil
    | some file =>
      have hFilename : (13 : UInt8) ∉ parameter (ascii "filename") file :=
        not_mem_parameter (by decide) (part.plainFilename file hSome).not_mem_cr (by decide)
      rw [List.mem_append, not_or]
      exact ⟨by decide, hFilename⟩
  unfold FormPart.dispositionLine FormPart.disposition
  simp only [List.mem_append, List.mem_cons, not_or]
  exact ⟨by decide, by decide, by decide, by decide, ⟨by decide, List.not_mem_nil⟩, hName, hFile⟩

theorem not_mem_mediaLine {media : Bytes} (hMedia : media ∈ part.contentType) :
    (13 : UInt8) ∉ mediaLine media := by
  unfold mediaLine
  simp only [List.mem_append, List.mem_cons, not_or]
  exact ⟨by decide, by decide, by decide, (part.oneLine media hMedia).1⟩

theorem split_header (part : FormPart) :
    split crlf part.header = part.dispositionLine :: (part.contentType.map mediaLine).toList := by
  have hLine := not_mem_dispositionLine part
  unfold FormPart.header
  cases hMedia : part.contentType with
  | none =>
    have hFind : find crlf part.dispositionLine = none := find_eq_none_of_not_mem hLine
    rw [List.append_nil, split_eq_singleton hFind]
    rfl
  | some media =>
    have hFirst : FirstAt crlf part.dispositionLine := firstAt_of_not_mem hLine
    have hFind : find crlf (mediaLine media) = none :=
      find_eq_none_of_not_mem (not_mem_mediaLine hMedia)
    rw [split_append (by decide) hFirst, split_eq_singleton hFind]
    rfl

theorem partition_dispositionLine (part : FormPart) :
    partition 58 part.dispositionLine = (ascii "Content-Disposition", 32 :: part.disposition) :=
  partition_append (by decide)

theorem partition_mediaLine (media : Bytes) :
    partition 58 (mediaLine media) = (ascii "Content-Type", 32 :: media) :=
  partition_append (by decide)

theorem partHeaders_header (part : FormPart) :
    partHeaders part.header =
      (ascii "content-disposition", part.disposition) ::
        (part.contentType.map fun media => (ascii "content-type", strip media)).toList := by
  have hLine : part.dispositionLine ≠ [] := by
    exact List.append_ne_nil_of_right_ne_nil _ (List.cons_ne_nil _ _)
  have hDisposition : (strip (ascii "Content-Disposition")).map lower =
      ascii "content-disposition" := by decide
  unfold partHeaders
  rw [split_header, List.filterMap_cons]
  rw [if_neg hLine, partition_dispositionLine]
  dsimp only
  rw [hDisposition, strip_disposition]
  congr 1
  cases part.contentType with
  | none => rfl
  | some media =>
    have hMediaLine : mediaLine media ≠ [] := by
      exact List.append_ne_nil_of_right_ne_nil _ (List.cons_ne_nil _ _)
    rw [Option.map_some, Option.toList_some, List.filterMap_cons, if_neg hMediaLine,
      partition_mediaLine]
    rfl

theorem partStart_header (part : FormPart) : partStart part.header = part.start := by
  obtain ⟨hDisposition, hType⟩ :
      header? (partHeaders part.header) (ascii "content-disposition") = some part.disposition ∧
        header? (partHeaders part.header) (ascii "content-type") = part.contentType.map strip := by
    rw [partHeaders_header]
    cases part.contentType with
    | none => exact ⟨rfl, rfl⟩
    | some media => exact ⟨rfl, rfl⟩
  unfold partStart
  dsimp only
  rw [hDisposition, hType, Option.getD_some, dispositionParam_name, dispositionParam_filename]
  rfl

theorem header_not_crlf (part : FormPart) (rest : Bytes) : ¬crlf <+: part.header ++ rest := by
  rintro ⟨post, hPost⟩
  exact absurd (List.cons.inj hPost).1 (by decide)

theorem firstAt_header (part : FormPart) : FirstAt blankLine part.header := by
  have hLine := not_mem_dispositionLine part
  unfold FormPart.header
  cases hMedia : part.contentType with
  | none =>
    rw [List.append_nil]
    exact firstAt_of_not_mem hLine
  | some media =>
    have hLast : FirstAt blankLine (mediaLine media) :=
      firstAt_of_not_mem (not_mem_mediaLine hMedia)
    -- The line break between the two lines is followed by a letter.
    have hBreak : FirstAt blankLine (crlf ++ mediaLine media) := by
      refine ⟨?_, ?_, hLast⟩
      · rintro ⟨post, hPost⟩
        have hTail := (List.cons.inj (List.cons.inj hPost).2).2
        exact absurd (List.cons.inj hTail).1 (by decide)
      · rintro ⟨post, hPost⟩
        exact absurd (List.cons.inj hPost).1 (by decide)
    exact hBreak.append_of_not_mem hLine

end Header

/-! ## The form -/

/-- The multipart/form-data form of a list of parts. -/
def encode (boundary : Bytes) : List FormPart → Bytes
  | [] => dashes ++ (boundary ++ (dashes ++ crlf))
  | part :: parts =>
    dashes ++ (boundary ++ (crlf ++ (part.header ++ (blankLine ++ (part.content ++
      (crlf ++ encode boundary parts))))))

/-- What follows the delimiter in front of the parts. -/
def tail (boundary : Bytes) : List FormPart → Bytes
  | [] => dashes ++ crlf
  | part :: parts =>
    [] ++ (crlf ++ (part.header ++ (blankLine ++ (part.content ++
      (delimiterOf boundary ++ tail boundary parts)))))

theorem crlf_encode (boundary : Bytes) (parts : List FormPart) :
    crlf ++ encode boundary parts = delimiterOf boundary ++ tail boundary parts := by
  induction parts with
  | nil => simp only [encode, tail, delimiterOf, List.append_assoc]
  | cons part parts ih =>
    rw [encode, tail, ih]
    simp only [delimiterOf, List.append_assoc, List.nil_append]

/-- The events that give the parts back, each content in one piece. -/
def expected : List FormPart → List MultipartEvent
  | [] => [.formEnd]
  | part :: parts => .start part.start :: (emitted part.content ++ .partEnd :: expected parts)

theorem concatData_part (content : Bytes) (events : List MultipartEvent) :
    concatData (emitted content ++ .partEnd :: events) =
      emitted content ++ .partEnd :: concatData events := by
  unfold emitted
  split
  · rfl
  · rfl

theorem concatData_expected (parts : List FormPart) :
    concatData (expected parts) = expected parts := by
  induction parts with
  | nil => rfl
  | cons part parts ih =>
    rw [expected]
    change MultipartEvent.start part.start :: concatData (emitted part.content ++ _ :: _) = _
    rw [concatData_part, ih]

/-- The limits of the reader, and a content that does not contain the delimiter. -/
structure FormPart.Fits (boundary : Bytes) (part : FormPart) : Prop where
  header : part.header.length ≤ maxPartHeaderBytes
  field : part.filename = none → part.content.length ≤ maxFieldBytes
  content : ∀ pre post, part.content ≠ pre ++ (delimiterOf boundary ++ post)

section Form

variable {allowed : Gap → Prop} {boundary : Bytes} {parts : List FormPart}

theorem layout_tail (hFits : ∀ part ∈ parts, part.Fits boundary) (hPadding : allowed (.padding 0))
    (hHeader : ∀ part ∈ parts, allowed (.header part.header.length))
    (hFirst : ∀ part ∈ parts, FirstAt (delimiterOf boundary) part.content) :
    Layout (delimiterOf boundary) allowed .afterDelimiter (tail boundary parts)
      (expected parts) := by
  induction parts with
  | nil => exact .close crlf
  | cons part parts ih =>
    rw [List.forall_mem_cons] at hFits hHeader hFirst
    refine .line (by simp) hPadding ?_
    rw [expected, ← partStart_header]
    refine .headers (header_not_crlf part _) (firstAt_header part) hHeader.1 ?_
    refine .content hFirst.1 ?_ (ih hFits.2 hHeader.2 hFirst.2)
    intro hText hNe
    rw [partStart_header] at hText
    rw [Nat.zero_add]
    exact hFits.1.field (Option.isNone_iff_eq_none.mp (Option.isSome_eq_false_iff.mp hText))

theorem emitted_inj {content other : Bytes} {events others : List MultipartEvent}
    (hSame : emitted content ++ .partEnd :: events = emitted other ++ .partEnd :: others) :
    content = other ∧ events = others := by
  unfold emitted at hSame
  split at hSame
  next hContent =>
    split at hSame
    next hOther =>
      rw [hContent, hOther]
      exact ⟨rfl, (List.cons.inj hSame).2⟩
    next => cases hSame
  next =>
    split at hSame
    next => cases hSame
    next =>
      cases hSame
      exact ⟨rfl, rfl⟩

theorem of_layout_tail {events : List MultipartEvent}
    (hLayout : Layout (delimiterOf boundary) allowed .afterDelimiter (tail boundary parts) events)
    (hEvents : concatData events = expected parts) :
    ∀ part ∈ parts, allowed (.header part.header.length) ∧
      FirstAt (delimiterOf boundary) part.content := by
  induction parts generalizing events with
  | nil => exact List.forall_mem_nil _
  | cons part parts ih =>
    generalize hStream : tail boundary (part :: parts) = stream at hLayout
    cases hLayout with
    | close rest => exact absurd (List.cons.inj hStream).1 (by decide)
    | @line padding rest _ hBlank _ hHeaders =>
      have hCrlf : FirstAt crlf padding := firstAt_of_not_mem (not_mem_blanks hBlank)
      have hStart : FirstAt crlf [] := trivial
      obtain ⟨-, hRest⟩ := hStart.unique hCrlf hStream
      cases hHeaders with
      | @noHeaders after later =>
        exact absurd ⟨after, hRest.symm⟩ (header_not_crlf part _)
      | @headers blob after later _ hBlob hLimit hContent =>
        obtain ⟨rfl, hAfter⟩ := (firstAt_header part).unique hBlob hRest
        have hLater := (List.cons.inj hEvents).2
        generalize (partStart part.header).filename.isSome = isFile at hContent
        cases hContent with
        | @content _ _ content next more hFirst _ hNext =>
          rw [concatData_part] at hLater
          obtain ⟨rfl, hMore⟩ := emitted_inj hLater
          have hTail := List.append_cancel_left (List.append_cancel_left hAfter)
          rw [← hTail] at hNext
          have hOthers := ih hNext hMore
          exact List.forall_mem_cons.mpr ⟨⟨hLimit, hFirst⟩, hOthers⟩

theorem long_header_refused {part : FormPart} (rest : Bytes)
    (hLong : maxPartHeaderBytes < part.header.length + 3) :
    parse boundary [dashes ++ (boundary ++ (crlf ++ (part.header ++ [13, 10, 13]))), rest] =
      .error ⟨"a multipart part header is too large"⟩ := by
  let first := dashes ++ (boundary ++ (crlf ++ (part.header ++ [13, 10, 13])))
  let fed : MultipartParser := { MultipartParser.init boundary with buf := crlf ++ first }
  have hBuf : fed.buf = [] ++ (fed.delimiter ++ (crlf ++ (part.header ++ [13, 10, 13]))) := by
    simp only [fed, first, MultipartParser.init, delimiterOf, List.append_assoc, List.nil_append]
  have hFed : Loop fed ((MultipartParser.init boundary).feed first) := loop_feed first Phase.noConfusion
  apply parse_of_feed_error
  -- The first delimiter and its line are read, and then the header block is refused.
  have hFirst : FirstAt fed.delimiter [] := trivial
  refine hFed.unique (@Loop.goesOn _ _ _ (.error _) (Moves.first rfl hFirst hBuf).step ?_)
  refine @Loop.goesOn _ _ _ (.error _) (Moves.line rfl (List.forall_mem_nil _) rfl).step ?_
  exact .raises (headers_refused (header_not_crlf part _) (firstAt_header part) hLong rfl)

/-- Any chunks of the form are read back to its parts exactly if each header block leaves room
for its blank line and the delimiter after each content is not met earlier. -/
theorem round_trip_iff (boundary : Bytes) (parts : List FormPart)
    (hFits : ∀ part ∈ parts, part.Fits boundary) :
    (∀ chunks : List Bytes, (∀ chunk ∈ chunks, chunk ≠ []) →
      chunks.flatten = encode boundary parts →
      ∃ out, parse boundary chunks = .ok out ∧ concatData out = expected parts) ↔
    ∀ part ∈ parts, part.header.length + 3 ≤ maxPartHeaderBytes ∧
      FirstAt (delimiterOf boundary) part.content := by
  constructor
  · intro hRead
    have hWhole : [encode boundary parts].flatten = encode boundary parts := by
      rw [List.flatten_cons, List.flatten_nil, List.append_nil]
    have hOne : ∀ chunk ∈ [encode boundary parts], chunk ≠ [] := by
      intro chunk hChunk
      rw [List.mem_singleton.mp hChunk]
      cases parts with
      | nil => exact List.cons_ne_nil _ _
      | cons part parts => exact List.cons_ne_nil _ _
    obtain ⟨out, hParse, hOut⟩ := hRead _ hOne hWhole
    obtain ⟨events, hLayout, hEvents⟩ := layout_of_parse hParse
    rw [hWhole] at hLayout
    -- Every beginning of the form is read, so its layout is within the limits of every cut.
    have hSurvives : Survives (MultipartParser.init boundary) (crlf ++ encode boundary parts) := by
      apply survives_of_feed
      rintro first hFirst ⟨second, hSecond⟩
      by_cases hNil : second = []
      · have hCut : [first].flatten = encode boundary parts := by
          rw [← hSecond, hNil]
          rfl
        obtain ⟨read, hFirstRead, -⟩ := hRead [first] (by simpa using hFirst) hCut
        exact feed_of_parse hFirstRead
      · have hCut : [first, second].flatten = encode boundary parts := by
          rw [← hSecond, List.flatten_cons, List.flatten_cons, List.flatten_nil, List.append_nil]
        obtain ⟨read, hTwoRead, -⟩ := hRead [first, second] (by simp [hFirst, hNil]) hCut
        exact feed_of_parse hTwoRead
    have hTight := anyCut_of_survives hLayout (MultipartParser.init boundary) rfl rfl
      (Nat.zero_le _) hSurvives
    rw [crlf_encode] at hTight
    generalize hStream : delimiterOf boundary ++ tail boundary parts = stream at hTight
    cases hTight with
    | @preamble _ pre rest _ hFirst _ hRest =>
      have hStart : FirstAt (delimiterOf boundary) [] := trivial
      obtain ⟨-, hTail⟩ := hStart.unique hFirst hStream
      rw [← hTail] at hRest
      exact of_layout_tail hRest (hEvents.trans hOut)
  · intro hParts chunks hChunks hFlatten
    have hTail : Layout (delimiterOf boundary) AnyCut .afterDelimiter (tail boundary parts)
        (expected parts) :=
      layout_tail hFits (Nat.zero_lt_succ _) (fun part hPart => (hParts part hPart).1)
        (fun part hPart => (hParts part hPart).2)
    have hLayout : Layout (delimiterOf boundary) AnyCut (.preamble 0) (crlf ++ chunks.flatten)
        (expected parts) := by
      rw [hFlatten, crlf_encode, ← List.nil_append (delimiterOf boundary ++ _)]
      exact .preamble trivial (Nat.zero_le _) hTail
    obtain ⟨out, hParse, hOut⟩ :=
      parse_of_layout (fun _ => AnyCut.documented) (Or.inr fun _ hGap => hGap) hLayout
    exact ⟨out, hParse, hOut.trans (concatData_expected parts)⟩

end Form

/-- A text field and a file whose content ends in a part of the delimiter. -/
def uploadForm : List FormPart :=
  [{ name := ascii "csrf_token"
     filename := none
     contentType := none
     content := ascii "t0"
     plainName := by decide +kernel
     plainFilename := by simp
     oneLine := by simp },
   { name := ascii "files"
     filename := some (ascii "a.jpg")
     contentType := some (ascii "image/jpeg")
     content := [255, 216] ++ ascii "\r\n--"
     plainName := by decide +kernel
     plainFilename := by decide +kernel
     oneLine := by decide +kernel }]

/-- Read byte by byte. -/
theorem round_trip_upload :
    (∀ part ∈ uploadForm, part.Fits (ascii "B")) ∧
      ∃ out, parse (ascii "B") ((encode (ascii "B") uploadForm).map fun byte => [byte]) = .ok out ∧
        concatData out = expected uploadForm := by
  have hTail : (13 : UInt8) ∉ 10 :: 45 :: 45 :: ascii "B" := by decide
  have hFits : ∀ part ∈ uploadForm, part.Fits (ascii "B") := by
    intro part hPart
    have hLimits : part.header.length + 3 ≤ maxPartHeaderBytes ∧
        part.content.length ≤ maxFieldBytes ∧
        find (delimiterOf (ascii "B")) part.content = none := by
      revert part
      decide
    exact ⟨by omega, fun _ => hLimits.2.1, fun pre post => not_infix_of_find hLimits.2.2 pre post⟩
  refine ⟨hFits, (round_trip_iff (ascii "B") uploadForm hFits).mpr ?_ _ ?_ ?_⟩
  · intro part hPart
    refine ⟨?_, firstAt_of_head hTail (hFits part hPart).content⟩
    revert part
    decide
  · intro chunk hChunk
    obtain ⟨byte, -, rfl⟩ := List.mem_map.mp hChunk
    exact List.cons_ne_nil byte []
  · rw [← List.flatMap_def]
    exact List.flatMap_singleton' _

/-- A text field with a name of the given length. -/
def fieldNamed (length : ℕ) : FormPart where
  name := List.replicate length 97
  filename := none
  contentType := none
  content := []
  plainName := by
    intro byte hMem
    rw [List.eq_of_mem_replicate hMem]
    decide
  plainFilename := by simp
  oneLine := by simp

theorem header_fieldNamed (length : ℕ) : (fieldNamed length).header.length = length + 39 := by
  unfold FormPart.header FormPart.dispositionLine FormPart.disposition parameter fieldNamed
  simp only [List.length_append, List.length_cons, List.length_nil, List.length_replicate]
  change 19 + (9 + (0 + 1 + (4 + (length + (0 + 1) + 1 + 1) + 1 + 0)) + 1 + 1) + 0 = _
  omega

/-- A header block of exactly the limit, cut before the last byte of its blank line. -/
theorem header_at_limit_refused :
    (fieldNamed 16345).Fits (ascii "B") ∧
      (fieldNamed 16345).header.length = maxPartHeaderBytes ∧
      [dashes ++ (ascii "B" ++ (crlf ++ ((fieldNamed 16345).header ++ [13, 10, 13]))),
        10 :: (crlf ++ encode (ascii "B") [])].flatten =
        encode (ascii "B") [fieldNamed 16345] ∧
      parse (ascii "B")
        [dashes ++ (ascii "B" ++ (crlf ++ ((fieldNamed 16345).header ++ [13, 10, 13]))),
          10 :: (crlf ++ encode (ascii "B") [])] =
        .error ⟨"a multipart part header is too large"⟩ := by
  have hHeader : (fieldNamed 16345).header.length = maxPartHeaderBytes := header_fieldNamed 16345
  refine ⟨⟨hHeader.le, fun _ => Nat.zero_le _, ?_⟩, hHeader, ?_, ?_⟩
  · intro pre post hContent
    have hLength := congrArg List.length hContent
    simp only [List.length_append, delimiterOf_length] at hLength
    change 0 = _ at hLength
    omega
  · have hContent : (fieldNamed 16345).content = [] := rfl
    rw [List.flatten_cons, List.flatten_cons, List.flatten_nil, List.append_nil]
    simp only [encode, hContent, List.append_assoc]
    generalize (fieldNamed 16345).header = header
    rfl
  · exact long_header_refused _ (by omega)

end TimelapseManager.Web.Multipart
