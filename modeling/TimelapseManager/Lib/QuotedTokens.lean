import Mathlib.Data.List.DropRight

/-!
# Tokens with quotes and escapes

The token reader of FFmpeg (`av_get_token`) on lists of characters.  Outside quotes a backslash
takes the next character as it is and a terminator ends the token; inside `'…'` everything but
the closing quote is literal.  Blanks around the token are dropped, unless they were escaped or
quoted: `scan` keeps the characters read so far in two parts, those that stay, and those of which
trailing blanks may still be dropped.
-/

namespace TimelapseManager.QuotedTokens

abbrev Text := List Char

def isBlank (char : Char) : Bool :=
  char = ' ' || char = '\n' || char = '\t' || char = '\r'

/-- The text from its first character that is not blank on. -/
def skipBlanks (text : Text) : Text :=
  text.dropWhile isBlank

/-- The loop of `av_get_token`, inside or outside quotes.  `kept` and `loose` are the characters
read: the trailing blanks of `loose` are dropped at the end. -/
def scan (term : Char → Bool) : Bool → Text → Text → Text → Text × Text
  | _, [], kept, loose => (kept ++ loose.rdropWhile isBlank, [])
  | true, char :: rest, kept, loose =>
    if char = '\'' then scan term false rest (kept ++ loose) []
    else scan term true rest kept (loose ++ [char])
  | false, [char], kept, loose =>
    -- A backslash or a quote at the very end.
    if term char then (kept ++ loose.rdropWhile isBlank, [char])
    else if char = '\'' then scan term true [] kept loose
    else scan term false [] kept (loose ++ [char])
  | false, char :: next :: rest, kept, loose =>
    if term char then (kept ++ loose.rdropWhile isBlank, char :: next :: rest)
    else if char = '\\' then scan term false rest (kept ++ loose ++ [next]) []
    else if char = '\'' then scan term true (next :: rest) kept loose
    else scan term false (next :: rest) kept (loose ++ [char])

def getToken (term : Char → Bool) (text : Text) : Text × Text :=
  scan term false (skipBlanks text) [] []

section Scan

variable {term : Char → Bool} {kept loose rest : Text}

def Plain (term : Char → Bool) (text : Text) : Prop :=
  ∀ char ∈ text, term char = false ∧ char ≠ '\'' ∧ char ≠ '\\'

instance (term : Char → Bool) (text : Text) : Decidable (Plain term text) :=
  List.decidableBAll (fun char => term char = false ∧ char ≠ '\'' ∧ char ≠ '\\') text

def Ends (term : Char → Bool) : Text → Prop
  | [] => True
  | char :: _ => term char = true

theorem scan_ends (hEnds : Ends term rest) :
    scan term false rest kept loose = (kept ++ loose.rdropWhile isBlank, rest) := by
  match rest, hEnds with
  | [], _ => rfl
  | [char], hTerm =>
    have hTrue : term char = true := hTerm
    simp [scan, hTrue]
  | char :: next :: rest, hTerm =>
    have hTrue : term char = true := hTerm
    simp [scan, hTrue]

variable {char : Char} {text : Text} {write : Char → Text}

theorem scan_plain_cons (hTerm : term char = false) (hQuote : char ≠ '\'') (hEscape : char ≠ '\\') :
    scan term false (char :: rest) kept loose = scan term false rest kept (loose ++ [char]) := by
  cases rest with
  | nil => simp [scan, hTerm, hQuote]
  | cons next rest => simp [scan, hTerm, hQuote, hEscape]

theorem scan_plain (hPlain : Plain term text) :
    scan term false (text ++ rest) kept loose = scan term false rest kept (loose ++ text) := by
  induction text generalizing loose with
  | nil => simp
  | cons char text hRec =>
    obtain ⟨hTerm, hQuote, hEscape⟩ := hPlain char List.mem_cons_self
    rw [List.cons_append, scan_plain_cons hTerm hQuote hEscape,
      hRec (List.forall_mem_cons.mp hPlain).2]
    simp

theorem scan_escape (hTerm : term '\\' = false) :
    scan term false ('\\' :: char :: rest) kept loose =
      scan term false rest (kept ++ loose ++ [char]) [] := by
  simp [scan, hTerm]

theorem scan_open (hTerm : term '\'' = false) :
    scan term false ('\'' :: text) kept loose = scan term true text kept loose := by
  cases text with
  | _ => simp [scan, hTerm]

theorem scan_inside (hText : '\'' ∉ text) :
    scan term true (text ++ '\'' :: rest) kept loose =
      scan term false rest (kept ++ loose ++ text) [] := by
  induction text generalizing loose with
  | nil => simp [scan]
  | cons char text hRec =>
    rw [List.mem_cons, not_or] at hText
    have hQuote : char ≠ '\'' := fun hSame => hText.1 hSame.symm
    simp only [List.cons_append, scan, if_neg hQuote]
    rw [hRec hText.2]
    simp

theorem scan_quoted (hTerm : term '\'' = false) (hText : '\'' ∉ text) :
    scan term false ('\'' :: (text ++ '\'' :: rest)) kept loose =
      scan term false rest (kept ++ loose ++ text) [] := by
  rw [scan_open hTerm, scan_inside hText]

theorem skipBlanks_cons (hBlank : isBlank char = false) :
    skipBlanks (char :: rest) = char :: rest :=
  List.dropWhile_cons_of_neg (by rw [hBlank]; decide)

theorem rdropWhile_blank (hBlank : ∀ char ∈ text, isBlank char = false) :
    text.rdropWhile isBlank = text := by
  rw [List.rdropWhile_eq_self_iff]
  intro hNe hLast
  rw [hBlank _ (List.getLast_mem hNe)] at hLast
  cases hLast

theorem getToken_word {word : Text} (hNe : word ≠ []) (hPlain : Plain term word)
    (hBlank : ∀ char ∈ word, isBlank char = false) (hEnds : Ends term rest) :
    getToken term (word ++ rest) = (word, rest) := by
  have hSkip : skipBlanks (word ++ rest) = word ++ rest := by
    cases word with
    | nil => exact absurd rfl hNe
    | cons char word => exact skipBlanks_cons (hBlank char List.mem_cons_self)
  unfold getToken
  rw [hSkip, scan_plain hPlain, scan_ends hEnds, List.nil_append, List.nil_append,
    rdropWhile_blank hBlank]

/-! ## Texts that decode -/

def Firm (text : Text) : Prop :=
  ∀ char, text.getLast? = some char → isBlank char = false

theorem Firm.rdropWhile_append (hFirm : Firm kept) :
    (kept ++ loose).rdropWhile isBlank = kept ++ loose.rdropWhile isBlank := by
  induction loose using List.reverseRecOn with
  | nil =>
    rw [List.append_nil, List.rdropWhile_nil, List.append_nil, List.rdropWhile_eq_self_iff]
    intro hNe hLast
    rw [hFirm _ (List.getLast?_eq_getLast_of_ne_nil hNe)] at hLast
    cases hLast
  | append_singleton loose char hRec =>
    rw [← List.append_assoc]
    by_cases hBlank : isBlank char = true
    · rw [List.rdropWhile_concat_pos _ _ _ hBlank, List.rdropWhile_concat_pos _ _ _ hBlank, hRec]
    · rw [List.rdropWhile_concat_neg _ _ _ hBlank, List.rdropWhile_concat_neg _ _ _ hBlank,
        List.append_assoc]

/-- Outside quotes the text is read as `read`, wherever it stands. -/
def Decodes (term : Char → Bool) (written read : Text) : Prop :=
  ∀ rest kept loose, Firm kept → ∃ firm more, Firm firm ∧ firm ++ more = kept ++ loose ++ read ∧
    scan term false (written ++ rest) kept loose = scan term false rest firm more

theorem Decodes.nil : Decodes term [] [] :=
  fun _ kept loose hFirm => ⟨kept, loose, hFirm, by simp, rfl⟩

theorem Decodes.plain (hPlain : Plain term text) : Decodes term text text :=
  fun _ kept loose hFirm => ⟨kept, loose ++ text, hFirm, by simp, scan_plain hPlain⟩

theorem Decodes.single (hTerm : term char = false) (hQuote : char ≠ '\'')
    (hBackslash : char ≠ '\\') : Decodes term [char] [char] :=
  .plain (List.forall_mem_singleton.mpr ⟨hTerm, hQuote, hBackslash⟩)

theorem Decodes.escape (hTerm : term '\\' = false) (hBlank : isBlank char = false) :
    Decodes term ['\\', char] [char] := by
  intro rest kept loose hFirm
  refine ⟨kept ++ loose ++ [char], [], ?_, by simp, scan_escape hTerm⟩
  intro last hLast
  rw [List.getLast?_concat] at hLast
  rw [← Option.some.inj hLast]
  exact hBlank

theorem Decodes.append {first second firstRead secondRead : Text}
    (hFirst : Decodes term first firstRead) (hSecond : Decodes term second secondRead) :
    Decodes term (first ++ second) (firstRead ++ secondRead) := by
  intro rest kept loose hFirm
  obtain ⟨middle, between, hMiddle, hSame, hScan⟩ := hFirst (second ++ rest) kept loose hFirm
  obtain ⟨firm, more, hLast, hLastSame, hLastScan⟩ := hSecond rest middle between hMiddle
  refine ⟨firm, more, hLast, ?_, ?_⟩
  · rw [hLastSame, hSame, List.append_assoc]
  · rw [List.append_assoc, hScan, hLastScan]

theorem Decodes.flatMap {read : Char → Text}
    (hChar : ∀ char ∈ text, Decodes term (write char) (read char)) :
    Decodes term (text.flatMap write) (text.flatMap read) := by
  induction text with
  | nil => exact Decodes.nil
  | cons char text hRec =>
    exact (hChar char List.mem_cons_self).append (hRec (List.forall_mem_cons.mp hChar).2)

theorem getToken_decodes {written read : Text} (hDecodes : Decodes term written read)
    (hSkip : skipBlanks (written ++ rest) = written ++ rest) (hEnds : Ends term rest) :
    getToken term (written ++ rest) = (read.rdropWhile isBlank, rest) := by
  have hEmpty : Firm [] := nofun
  obtain ⟨firm, more, hFirm, hSame, hScan⟩ := hDecodes rest [] [] hEmpty
  unfold getToken
  rw [hSkip, hScan, scan_ends hEnds, ← hFirm.rdropWhile_append, hSame]
  rfl

/-- How blanks and other characters are written: a blank as it is, anything else from a
character on that is not blank. -/
def KeepsBlanks (write : Char → Text) (text : Text) : Prop :=
  ∀ char ∈ text, (isBlank char = true → write char = [char]) ∧
    (isBlank char = false → ∃ first after, write char = first :: after ∧ isBlank first = false)

theorem skipBlanks_flatMap (hBlanks : KeepsBlanks write text) (hRest : skipBlanks rest = rest) :
    skipBlanks (text.flatMap write ++ rest) = (skipBlanks text).flatMap write ++ rest := by
  induction text with
  | nil => exact hRest
  | cons char text hRec =>
    obtain ⟨hBlank, hOther⟩ := hBlanks char List.mem_cons_self
    cases hChar : isBlank char with
    | true =>
      have hSkip : skipBlanks (char :: text) = skipBlanks text :=
        List.dropWhile_cons_of_pos hChar
      have hSkipWritten : skipBlanks (char :: (text.flatMap write ++ rest)) =
          skipBlanks (text.flatMap write ++ rest) := List.dropWhile_cons_of_pos hChar
      rw [List.flatMap_cons, hBlank hChar, hSkip,
        ← hRec (List.forall_mem_cons.mp hBlanks).2, ← hSkipWritten]
      rfl
    | false =>
      obtain ⟨first, after, hWritten, hFirst⟩ := hOther hChar
      rw [skipBlanks_cons hChar, List.flatMap_cons, hWritten]
      exact skipBlanks_cons hFirst

theorem getToken_flatMap {read : Char → Text}
    (hChar : ∀ char ∈ text, Decodes term (write char) (read char))
    (hBlanks : KeepsBlanks write text) (hTerm : ∀ char, term char = true → isBlank char = false)
    (hEnds : Ends term rest) :
    getToken term (text.flatMap write ++ rest) =
      (((skipBlanks text).flatMap read).rdropWhile isBlank, rest) := by
  have hRest : skipBlanks rest = rest := by
    cases rest with
    | nil => rfl
    | cons char rest => exact skipBlanks_cons (hTerm char hEnds)
  have hSub : ∀ char ∈ skipBlanks text, char ∈ text :=
    fun char hMem => (List.dropWhile_sublist _).mem hMem
  have hStart : skipBlanks (skipBlanks text) = skipBlanks text := List.dropWhile_idempotent _ _
  have hSkip : skipBlanks ((skipBlanks text).flatMap write ++ rest) =
      (skipBlanks text).flatMap write ++ rest := by
    rw [skipBlanks_flatMap (fun char hMem => hBlanks char (hSub char hMem)) hRest, hStart]
  have hToken := getToken_decodes (Decodes.flatMap fun char hMem => hChar char (hSub char hMem))
    hSkip hEnds
  have hSame := skipBlanks_flatMap hBlanks hRest
  unfold getToken at hToken ⊢
  rw [hSame, ← hToken, hSkip]

/-! ## Texts written by a table -/

/-- A character as the table writes it, or as it is. -/
def rewrite : List (Char × Text) → Char → Text
  | [], char => [char]
  | (old, new) :: table, char => if char = old then new else rewrite table char

variable {table : List (Char × Text)}

theorem rewrite_cases (table : List (Char × Text)) (char : Char) :
    (char, rewrite table char) ∈ table ∨ rewrite table char = [char] := by
  induction table with
  | nil => exact Or.inr rfl
  | cons entry table hRec =>
    obtain ⟨old, new⟩ := entry
    by_cases hOld : char = old
    · simp [rewrite, hOld]
    · simp only [rewrite, if_neg hOld]
      exact hRec.imp_left (List.mem_cons_of_mem _)

/-- What a table escapes starts with the backslash. -/
theorem keepsBlanks_rewrite (hTable : ∀ entry ∈ table, isBlank entry.1 = false ∧
      entry.2.head? = some '\\') (text : Text) : KeepsBlanks (rewrite table) text := by
  intro char _
  rcases rewrite_cases table char with hMem | hSame
  · obtain ⟨hText, hHead⟩ := hTable _ hMem
    obtain ⟨after, hEscaped⟩ := List.head?_eq_some_iff.mp hHead
    refine ⟨fun hBlank => ?_, fun _ => ⟨'\\', after, hEscaped, by decide⟩⟩
    rw [hText] at hBlank
    cases hBlank
  · exact ⟨fun _ => hSame, fun hText => ⟨char, [], hSame, hText⟩⟩

theorem notMem_rewrite {mark : Char} (hTable : ∀ entry ∈ table, mark ∉ entry.2)
    (hText : ∀ char ∈ text, char ≠ mark) : mark ∉ text.flatMap (rewrite table) := by
  intro hMark
  obtain ⟨char, hChar, hMem⟩ := List.mem_flatMap.mp hMark
  rcases rewrite_cases table char with hEntry | hSame
  · exact hTable _ hEntry hMem
  · rw [hSame] at hMem
    exact hText char hChar (List.mem_singleton.mp hMem).symm

end Scan

end TimelapseManager.QuotedTokens
