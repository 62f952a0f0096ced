import TimelapseManager.Lib.QuotedTokens

/-!
# Overlay texts

The escaping of `overlay.py`: captions, timestamp formats and font paths, as they are put into
a single-quoted `drawtext` value.

* `escapeDrawtext_eq` and `escapePathForFilter_eq` give the chains of replacements as one
  replacement of each character.
* `validateTimestampFormat_chars` is what an accepted format consists of.
-/

namespace TimelapseManager.Encode

open QuotedTokens (Text isBlank rewrite)

/-! ## Replacing -/

def replaceChar (old : Char) (new : Text) (text : Text) : Text :=
  text.flatMap fun char => if char = old then new else [char]

def replaceCrLf : Text → Text
  | '\r' :: '\n' :: rest => ' ' :: replaceCrLf rest
  | char :: rest => char :: replaceCrLf rest
  | [] => []

def isShown (char : Char) : Bool :=
  ' ' ≤ char && char ≠ '\x7f'

def stripControls (text : Text) : Text :=
  (replaceChar '\t' [' '] (replaceChar '\r' [' '] (replaceChar '\n' [' ']
    (replaceCrLf text)))).filter isShown

def escapeDrawtext (text : Text) : Text :=
  let cleaned := stripControls text
  let cleaned := replaceChar '\'' ['’'] cleaned
  let cleaned := replaceChar '\\' ['\\', '\\', '\\', '\\'] cleaned
  let cleaned := replaceChar ':' ['\\', ':'] cleaned
  replaceChar '%' ['\\', '\\', '%'] cleaned

def escapePathForFilter (path : Text) : Text :=
  let cleaned := path.filter isShown
  let cleaned := replaceChar '\\' ['\\', '\\'] cleaned
  let cleaned := replaceChar ':' ['\\', ':'] cleaned
  replaceChar '\'' [] cleaned

/-! ## Timestamp formats -/

def timestampFormatMaxLength : ℕ := 64

def timestampDirectives : Text :=
  ['a', 'A', 'b', 'B', 'd', 'H', 'I', 'j', 'm', 'M', 'p', 'S', 'y', 'Y', 'z', 'Z', '%']

def isFormatChar (char : Char) : Bool :=
  ('A' ≤ char && char ≤ 'Z') || ('a' ≤ char && char ≤ 'z') || ('0' ≤ char && char ≤ '9') ||
    [' ', '_', '.', '/', ':', '%', '-'].contains char

inductive FormatError
  | empty
  | tooLong
  | badCharacter
  | badDirective
  deriving DecidableEq

def directivesOk : Text → Bool
  | '%' :: directive :: rest => timestampDirectives.contains directive && directivesOk rest
  | ['%'] => false
  | _ :: rest => directivesOk rest
  | [] => true

def validateTimestampFormat (format : Text) : Except FormatError Text :=
  if format = [] then .error .empty
  else if timestampFormatMaxLength < format.length then .error .tooLong
  else if format.all isFormatChar = false then .error .badCharacter
  else if directivesOk format = false then .error .badDirective
  else .ok format

inductive EncoderError
  | fontNotFound
  | imageRefused
  | invalidTimestampFormat (reason : FormatError)
  | emptyFilterName
  | badLinkLabel
  | trailingGarbage
  | noFilters
  | filtergraphMismatch (expected parsed : List Text)
  | drawtextOptionsMismatch (keys : List (Option Text))
  | disallowedFilter (name : Text)
  deriving DecidableEq

def escapeTimestampFormat (format : Text) : Except EncoderError Text :=
  match validateTimestampFormat format with
  | .error reason => .error (.invalidTimestampFormat reason)
  | .ok _ => .ok (replaceChar ':' ['\\', '\\', '\\', ':'] format)

/-! ## Placements -/

/-- `_TEXT_POSITIONS` and `text_position`: an unknown placement is the default one. -/
def textPosition (placement : Text) : Text × Text :=
  if placement = "top_right".toList then ("w-tw-10".toList, "10".toList)
  else if placement = "bottom_left".toList then ("10".toList, "h-th-10".toList)
  else if placement = "bottom_right".toList then ("w-tw-10".toList, "h-th-10".toList)
  else ("10".toList, "10".toList)

def imagePosition (placement : Text) : Text × Text :=
  if placement = "top_right".toList then ("W-w-10".toList, "10".toList)
  else if placement = "bottom_left".toList then ("10".toList, "H-h-10".toList)
  else if placement = "bottom_right".toList then ("W-w-10".toList, "H-h-10".toList)
  else ("10".toList, "10".toList)

/-! ## What a caption shows -/

/-- What one character of a caption is to show: a blank for a line break or a tab, nothing for
another control, the typographic apostrophe for the plain one. -/
def captionChar (char : Char) : Text :=
  if char = '\n' ∨ char = '\r' ∨ char = '\t' then [' ']
  else if isShown char = false then []
  else if char = '\'' then ['’']
  else [char]

def plainCaption (text : Text) : Text :=
  (replaceCrLf text).flatMap captionChar

def captionTable : List (Char × Text) :=
  [('\\', ['\\', '\\', '\\', '\\']), (':', ['\\', ':']), ('%', ['\\', '\\', '%'])]

def isPathChar (char : Char) : Bool :=
  isShown char && char ≠ '\''

def pathTable : List (Char × Text) :=
  [('\\', ['\\', '\\']), (':', ['\\', ':'])]

@[simp] theorem replaceChar_singleton {old char : Char} {new : Text} :
    replaceChar old new [char] = if char = old then new else [char] := by
  simp [replaceChar]

theorem replaceChar_append {old : Char} {new first second : Text} :
    replaceChar old new (first ++ second) =
      replaceChar old new first ++ replaceChar old new second := by
  simp [replaceChar]

theorem isShown_of_mem_captionChar {char shown : Char} (hMem : shown ∈ captionChar char) :
    isShown shown = true ∧ shown ≠ '\'' ∧ (isBlank shown = true → shown = ' ') := by
  unfold captionChar at hMem
  split_ifs at hMem with hBreak hHidden hQuote
  · rw [List.mem_singleton.mp hMem]
    decide
  · cases hMem
  · rw [List.mem_singleton.mp hMem]
    decide
  · rw [List.mem_singleton.mp hMem]
    refine ⟨by simpa using hHidden, hQuote, ?_⟩
    intro hBlank
    simp only [not_or] at hBreak
    simpa [isBlank, hBreak] using hBlank

theorem captionChar_eq (char : Char) :
    replaceChar '\'' ['’'] ((replaceChar '\t' [' '] (replaceChar '\r' [' ']
      (replaceChar '\n' [' '] [char]))).filter isShown) = captionChar char := by
  unfold captionChar
  by_cases hBreak : char = '\n' ∨ char = '\r' ∨ char = '\t'
  · rw [if_pos hBreak]
    rcases hBreak with rfl | rfl | rfl <;> decide
  · rw [if_neg hBreak]
    simp only [not_or] at hBreak
    cases hShown : isShown char with
    | false => simp [hBreak, hShown, replaceChar]
    | true => simp [hBreak, hShown]

theorem stripControls_eq (text : Text) :
    replaceChar '\'' ['’'] (stripControls text) = plainCaption text := by
  unfold stripControls plainCaption
  induction replaceCrLf text with
  | nil => rfl
  | cons char rest hRec =>
    have hCons : char :: rest = [char] ++ rest := rfl
    rw [List.flatMap_cons, ← hRec, ← captionChar_eq, hCons]
    simp only [replaceChar_append, List.filter_append]

theorem rewrite_captionTable (char : Char) :
    replaceChar '%' ['\\', '\\', '%'] (replaceChar ':' ['\\', ':']
      (replaceChar '\\' ['\\', '\\', '\\', '\\'] [char])) = rewrite captionTable char := by
  by_cases hEscape : char = '\\'
  · rw [hEscape]
    decide
  · by_cases hColon : char = ':'
    · rw [hColon]
      decide
    · simp [captionTable, rewrite, hEscape, hColon]

theorem escapeDrawtext_eq (text : Text) :
    escapeDrawtext text = (plainCaption text).flatMap (rewrite captionTable) := by
  unfold escapeDrawtext
  simp only [stripControls_eq]
  induction plainCaption text with
  | nil => rfl
  | cons char rest hRec =>
    have hCons : char :: rest = [char] ++ rest := rfl
    rw [List.flatMap_cons, ← hRec, ← rewrite_captionTable, hCons]
    simp only [replaceChar_append]

theorem rewrite_pathTable (char : Char) :
    replaceChar '\'' [] (replaceChar ':' ['\\', ':'] (replaceChar '\\' ['\\', '\\']
      ([char].filter isShown))) = ([char].filter isPathChar).flatMap (rewrite pathTable) := by
  cases hShown : isShown char with
  | false => simp [isPathChar, hShown, replaceChar]
  | true =>
    by_cases hEscape : char = '\\'
    · rw [hEscape]
      decide
    · by_cases hColon : char = ':'
      · rw [hColon]
        decide
      · by_cases hQuote : char = '\''
        · rw [hQuote]
          decide
        · simp [isPathChar, pathTable, rewrite, hShown, hEscape, hColon, hQuote]

theorem escapePathForFilter_eq (path : Text) :
    escapePathForFilter path = (path.filter isPathChar).flatMap (rewrite pathTable) := by
  unfold escapePathForFilter
  induction path with
  | nil => rfl
  | cons char rest hRec =>
    have hCons : char :: rest = [char] ++ rest := rfl
    simp only [hCons, List.filter_append, List.flatMap_append, replaceChar_append] at hRec ⊢
    rw [← hRec, ← rewrite_pathTable]

theorem validateTimestampFormat_chars {format accepted : Text}
    (hOk : validateTimestampFormat format = .ok accepted) :
    ∀ char ∈ format, isFormatChar char = true := by
  unfold validateTimestampFormat at hOk
  split_ifs at hOk with hEmpty hLong hBad hDirective
  exact List.all_eq_true.mp (by simpa using hBad)

end TimelapseManager.Encode
